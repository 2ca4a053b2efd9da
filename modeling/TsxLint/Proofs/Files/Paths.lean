import TsxLint.Path

/-!
# Components of joined paths

A path that names an entry of a directory has the components of the directory and the name. Only the
first piece of a path can stand for the root or for the current directory, and joining a name keeps
the first piece, unless there is none. A path as seen from a base is put together from its own
pieces.

## Main definitions

* `Path.IsPlain`: names of entries, free of separators.
* `Path.startOf`: what the first piece of a path stands for.

## Main results

* `Path.components_join`: the components of a directory and of a name in it.
* `Path.getLast?_splitAt_join`: a joined path ends with the name.
* `Path.mem_of_mem_seenFrom`: the characters of a path as seen from a base.
-/

namespace TsxLint

namespace Text

variable {isSeparator : Char → Bool}

theorem pieces_ne_nil (cs : List Char) : pieces isSeparator cs ≠ [] := by
  fun_cases pieces isSeparator cs <;> exact List.cons_ne_nil _ _

theorem pieces_append_separator {c : Char} (hc : isSeparator c = true) (before after : List Char) :
    pieces isSeparator (before ++ c :: after) =
      pieces isSeparator before ++ pieces isSeparator after := by
  induction before with
  | nil => simp [pieces, hc]
  | cons b before ih =>
    rw [List.cons_append, pieces, pieces, ih]
    split
    · rfl
    · cases hbefore : pieces isSeparator before with
      | nil => exact absurd hbefore (pieces_ne_nil before)
      | cons piece rest => rfl

theorem pieces_of_free {cs : List Char} (h : ∀ c ∈ cs, isSeparator c = false) :
    pieces isSeparator cs = [cs] := by
  induction cs with
  | nil => rfl
  | cons c cs ih =>
    obtain ⟨hc, hcs⟩ := List.forall_mem_cons.mp h
    simp [pieces, hc, ih hcs]

theorem eq_nil_of_pieces {cs : List Char} (h : pieces isSeparator cs = [[]]) : cs = [] := by
  cases cs with
  | nil => rfl
  | cons c cs =>
    rw [pieces] at h
    split at h
    · exact absurd (List.cons.inj h).2 (pieces_ne_nil cs)
    · split at h <;> cases (List.cons.inj h).1

theorem splitAt_of_free {separator : Char} {s : String} (h : separator ∉ s.toList) :
    splitAt separator s = [s] := by
  have hfree : ∀ c ∈ s.toList, (c == separator) = false := by
    intro c hc
    rw [beq_eq_false_iff_ne]
    rintro rfl
    exact h hc
  rw [splitAt, splitWhere, pieces_of_free hfree, List.map_singleton, String.ofList_toList]

theorem splitAt_append_separator (separator : Char) (before after : String) :
    splitAt separator (before ++ String.ofList [separator] ++ after) =
      splitAt separator before ++ splitAt separator after := by
  simp only [splitAt, splitWhere, String.toList_append, String.toList_ofList, List.append_assoc,
    List.singleton_append]
  rw [pieces_append_separator (by simp), List.map_append]

theorem eq_empty_of_splitAt {separator : Char} {s : String} (h : splitAt separator s = [""]) :
    s = "" := by
  obtain ⟨piece, hpieces, hpiece⟩ := List.map_eq_singleton_iff.mp h
  obtain rfl : piece = [] := by simpa using hpiece
  simpa using eq_nil_of_pieces hpieces

theorem mem_of_mem_pieces {cs piece : List Char} {c : Char} (hpiece : piece ∈ pieces isSeparator cs)
    (hc : c ∈ piece) : c ∈ cs := by
  induction cs generalizing piece with
  | nil => simp_all [pieces]
  | cons a cs ih =>
    rw [pieces] at hpiece
    split at hpiece
    · rcases List.mem_cons.mp hpiece with rfl | hpiece
      · cases hc
      · exact List.mem_cons_of_mem a (ih hpiece hc)
    · split at hpiece
      case h_1 hnil => exact absurd hnil (pieces_ne_nil cs)
      case h_2 first others hsplit =>
        rcases List.mem_cons.mp hpiece with rfl | hpiece
        · rcases List.mem_cons.mp hc with rfl | hc
          · exact List.mem_cons_self
          · exact List.mem_cons_of_mem a (ih (hsplit ▸ List.mem_cons_self) hc)
        · exact List.mem_cons_of_mem a (ih (hsplit ▸ List.mem_cons_of_mem first hpiece) hc)

theorem mem_of_mem_splitAt {separator c : Char} {s piece : String}
    (hpiece : piece ∈ splitAt separator s) (hc : c ∈ piece.toList) : c ∈ s.toList := by
  obtain ⟨cs, hcs, rfl⟩ := List.mem_map.mp hpiece
  exact mem_of_mem_pieces hcs (by rwa [String.toList_ofList] at hc)

theorem mem_joinWith {separator : String} {parts : List String} {c : Char}
    (hc : c ∈ (joinWith separator parts).toList) :
    c ∈ separator.toList ∨ ∃ part ∈ parts, c ∈ part.toList := by
  unfold joinWith at hc
  induction parts with
  | nil => simp at hc
  | cons part parts ih =>
    cases parts with
    | nil => exact .inr ⟨part, List.mem_cons_self, by simpa using hc⟩
    | cons next parts =>
      rw [String.intercalate_cons_cons, String.toList_append, String.toList_append] at hc
      simp only [List.mem_append] at hc
      rcases hc with (hc | hc) | hc
      · exact .inr ⟨part, List.mem_cons_self, hc⟩
      · exact .inl hc
      · refine (ih hc).imp_right ?_
        rintro ⟨p, hp, hc⟩
        exact ⟨p, List.mem_cons_of_mem part hp, hc⟩

theorem splitAt_ne_nil (separator : Char) (s : String) : splitAt separator s ≠ [] := by
  rw [splitAt, splitWhere, ne_eq, List.map_eq_nil_iff]
  exact pieces_ne_nil _

end Text

namespace Path

/-- A name of an entry: a piece of a path that stands for itself. -/
structure IsPlain (name : String) : Prop where
  component? : component? name = some (.normal name)
  free : '/' ∉ name.toList

/-- What the first piece of a path stands for beside its name: nothing before a separator is the
root, a dot the current directory. -/
def startOf : List String → List Component
  | [] => []
  | first :: rest =>
    if first = "" ∧ rest ≠ [] then [.root] else if first = "." then [.here] else []

theorem components_eq (path : String) : components path =
    startOf (Text.splitAt '/' path) ++ (Text.splitAt '/' path).filterMap Path.component? := by
  unfold components
  generalize Text.splitAt '/' path = parts
  dsimp only
  split
  · rfl
  · rfl
  · rename_i hroot hhere
    cases parts with
    | nil => rfl
    | cons first rest =>
      have hstart : startOf (first :: rest) = [] := by
        rw [startOf, if_neg, if_neg]
        · rintro rfl
          exact hhere rest rfl
        · rintro ⟨rfl, hrest⟩
          obtain ⟨second, others, rfl⟩ := List.exists_cons_of_ne_nil hrest
          exact hroot second others rfl
      rw [hstart, List.nil_append]

/-- What the first piece stands for does not depend on the name of a last piece behind it. -/
theorem startOf_append {parts : List String} (hparts : parts ≠ []) (a b : String) :
    startOf (parts ++ [a]) = startOf (parts ++ [b]) := by
  obtain ⟨first, rest, rfl⟩ := List.exists_cons_of_ne_nil hparts
  simp [startOf]

/-- A piece behind the others does not change what the first one stands for, unless it is the only
one and empty. -/
theorem startOf_append_of_ne {parts : List String} (hparts : parts ≠ []) (hempty : parts ≠ [""])
    (a : String) : startOf (parts ++ [a]) = startOf parts := by
  obtain ⟨first, rest, rfl⟩ := List.exists_cons_of_ne_nil hparts
  cases rest with
  | nil =>
    have hfirst : first ≠ "" := by simpa using hempty
    simp [startOf, hfirst]
  | cons second rest => simp [startOf]

theorem exists_of_endsWith_slash {s : String} (h : Text.endsWith s "/" = true) :
    ∃ before, s = before ++ "/" := by
  have hslash : ("/" : String).toList.reverse = ['/'] := rfl
  rw [Text.endsWith, hslash] at h
  cases hs : s.toList.reverse with
  | nil => simp [hs, Text.after?] at h
  | cons c cs =>
    rw [hs, Text.after?] at h
    split at h
    · subst c
      refine ⟨String.ofList cs.reverse, String.toList_inj.mp ?_⟩
      rw [String.toList_append, String.toList_ofList, ← List.reverse_reverse s.toList, hs]
      exact List.reverse_cons
    · cases h

section

variable {name : String} (hname : IsPlain name)
include hname

theorem IsPlain.splitAt : Text.splitAt '/' name = [name] := Text.splitAt_of_free hname.free

theorem IsPlain.startsWith : Text.startsWith name "/" = false := by
  have hslash : ("/" : String).toList = ['/'] := rfl
  have hfree := hname.free
  rw [Text.startsWith, hslash]
  cases hs : name.toList with
  | nil => rfl
  | cons c cs =>
    rw [Text.after?, if_neg]
    · rfl
    · rintro rfl
      exact hfree (hs ▸ List.mem_cons_self)

/-- The pieces of a name in a directory are pieces that give the components of the directory, and
the name. -/
theorem exists_splitAt_join (directory : String) : ∃ parts,
    Text.splitAt '/' (join directory name) = parts ++ [name] ∧
      startOf (parts ++ [name]) ++ parts.filterMap Path.component? = components directory := by
  unfold join
  rw [if_neg (by simp [hname.startsWith])]
  by_cases hempty : directory = ""
  · subst hempty
    have hdot : name ≠ "." := by
      rintro rfl
      cases hname.component?
    refine ⟨[], ?_, ?_⟩
    · simpa using hname.splitAt
    · simpa [startOf, hdot] using (by rfl : components "" = [])
  by_cases hslash : Text.endsWith directory "/" = true
  · obtain ⟨before, rfl⟩ := exists_of_endsWith_slash hslash
    have hwhole : Text.splitAt '/' (before ++ "/") = Text.splitAt '/' before ++ [""] := by
      rw [← String.append_empty (s := before ++ "/")]
      exact Text.splitAt_append_separator '/' before ""
    refine ⟨Text.splitAt '/' before, ?_, ?_⟩
    · rw [if_pos (by simp [hslash]), ← hname.splitAt]
      exact Text.splitAt_append_separator '/' before name
    · rw [components_eq, hwhole, startOf_append (Text.splitAt_ne_nil _ _) name "",
        List.filterMap_append]
      simp [component?]
  · refine ⟨Text.splitAt '/' directory, ?_, ?_⟩
    · rw [if_neg (by simp [hempty, hslash]), ← hname.splitAt]
      exact Text.splitAt_append_separator '/' directory name
    · rw [components_eq, startOf_append_of_ne (Text.splitAt_ne_nil _ _)
        fun h => hempty (Text.eq_empty_of_splitAt h)]

/-- A name in a directory has the components of the directory, and the name. -/
theorem components_join (directory : String) :
    components (join directory name) = components directory ++ [.normal name] := by
  obtain ⟨parts, hparts, hstart⟩ := exists_splitAt_join hname directory
  rw [components_eq, hparts, List.filterMap_append, ← List.append_assoc, hstart]
  simp [hname.component?]

theorem getLast?_splitAt_join (directory : String) :
    (Text.splitAt '/' (join directory name)).getLast? = some name := by
  obtain ⟨parts, hparts, -⟩ := exists_splitAt_join hname directory
  rw [hparts, List.getLast?_concat]

end

/-! ### Seen from a base -/

theorem trimPieces_subset (parts : List String) : trimPieces parts ⊆ parts := by
  intro part hpart
  rw [trimPieces, List.mem_reverse] at hpart
  exact List.mem_reverse.mp ((List.dropWhile_sublist _).subset hpart)

theorem dropComponents_subset (n : Nat) (parts : List String) : dropComponents n parts ⊆ parts := by
  fun_induction dropComponents n parts with
  | case1 parts => exact List.Subset.refl parts
  | case2 => exact List.Subset.refl []
  | case3 _ _ _ _ ih | case4 _ _ _ _ ih => exact List.Subset.trans ih (List.subset_cons_self _ _)

theorem piecesAfter_subset (n : Nat) (path : String) :
    piecesAfter n path ⊆ Text.splitAt '/' path := by
  unfold piecesAfter
  split <;> rename_i hparts
  · exact hparts ▸ List.Subset.trans (dropComponents_subset _ _) (List.subset_cons_self _ _)
  · exact hparts ▸ List.Subset.trans (dropComponents_subset _ _) (List.subset_cons_self _ _)
  · exact dropComponents_subset _ _

/-- Pieces of a path put together again have no characters but those of the path and separators. -/
theorem mem_of_mem_joinWith {path : String} {parts : List String} {c : Char}
    (hparts : parts ⊆ Text.splitAt '/' path) (hc : c ∈ (Text.joinWith "/" parts).toList) :
    c = '/' ∨ c ∈ path.toList := by
  rcases Text.mem_joinWith hc with hc | ⟨part, hpart, hc⟩
  · exact .inl (List.mem_singleton.mp hc)
  · exact .inr (Text.mem_of_mem_splitAt (hparts hpart) hc)

theorem mem_of_mem_trimmed {path : String} {c : Char} (hc : c ∈ (trimmed path).toList) :
    c = '/' ∨ c ∈ path.toList := by
  unfold trimmed at hc
  split at hc <;> rename_i hparts
  · rw [String.toList_append, List.mem_append] at hc
    rcases hc with hc | hc
    · exact .inl (List.mem_singleton.mp hc)
    · refine mem_of_mem_joinWith (hparts ▸ ?_) hc
      exact List.Subset.trans (trimPieces_subset _) (List.subset_cons_self _ _)
  · refine mem_of_mem_joinWith (hparts ▸ ?_) hc
    exact List.cons_subset_cons _ (trimPieces_subset _)
  · exact mem_of_mem_joinWith (trimPieces_subset _) hc

/-- A path as seen from a base has no characters but those of the path and separators. -/
theorem mem_of_mem_seenFrom {base path : String} {c : Char}
    (hc : c ∈ (seenFrom base path).toList) : c = '/' ∨ c ∈ path.toList := by
  unfold seenFrom strip? at hc
  dsimp only at hc
  split at hc
  · split at hc
    · exact mem_of_mem_trimmed hc
    · refine mem_of_mem_joinWith ?_ hc
      exact List.Subset.trans (trimPieces_subset _)
        (List.Subset.trans (List.dropWhile_sublist _).subset (piecesAfter_subset _ _))
  · exact .inr hc

end Path

end TsxLint
