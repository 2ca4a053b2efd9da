import Mathlib.Data.List.Basic
import TsxLint.Naming.Glob
import TsxLint.Proofs.Files.Paths

/-!
# What name globs cover

The stars of a glob cut it into literal parts, in which every character stands for itself. A glob
covers the names that have these parts in their order, the first part at the start of the name and
the last one at its end, with any run of characters in the place of each star. Its pattern says the
same: every character that would mean something is quoted, so the pattern can be read and has a part
for each character of the glob. Runs are tried one by one while a name is read, and no choice of
runs is missed.

## Main definitions

* `Naming.interleave`: parts with runs between them.
* `Naming.Admits`: the names of a glob, by its literal parts.
* `Naming.Spreads`: the same with a condition on what stands in the place of a star.

## Main results

* `Naming.read?_globPattern`: the pattern of a glob, read.
* `Naming.matchesAt_globParts_iff`: a glob covers the names over which it spreads with runs of one
  line.
* `Naming.GlobList.matches_iff_admits`: a list of globs covers the names that one of them admits.
-/

namespace TsxLint.Naming

/-! ### Parts and runs -/

/-- Parts with a run before each of them but the first. -/
def interleave (first : List Char) (runs parts : List (List Char)) : List Char :=
  first ++ (List.zipWith (· ++ ·) runs parts).flatten

/-- Whether a glob falls at its stars into literal parts that make up a name together with a run for
each star. -/
def Spreads (isRun : List Char → Prop) (glob name : List Char) : Prop :=
  ∃ first parts runs, (∀ part ∈ first :: parts, '*' ∉ part) ∧
    glob = interleave first (parts.map fun _ => ['*']) parts ∧
    runs.length = parts.length ∧ (∀ run ∈ runs, isRun run) ∧ name = interleave first runs parts

section

variable {isRun : List Char → Prop} {g : Char} {glob name : List Char}

theorem interleave_cons_cons (first run part : List Char) (runs parts : List (List Char)) :
    interleave first (run :: runs) (part :: parts) =
      first ++ run ++ interleave part runs parts := by
  simp [interleave]

theorem interleave_cons_left (c : Char) (first : List Char) (runs parts : List (List Char)) :
    interleave (c :: first) runs parts = c :: interleave first runs parts := rfl

theorem spreads_nil : Spreads isRun [] name ↔ name = [] := by
  constructor
  · rintro ⟨first, parts, runs, -, hglob, -, -, rfl⟩
    cases parts with
    | nil => simpa [interleave] using hglob.symm
    | cons part parts => simp [interleave_cons_cons] at hglob
  · rintro rfl
    exact ⟨[], [], [], by simp, rfl, rfl, by simp, rfl⟩

theorem spreads_star : Spreads isRun ('*' :: glob) name ↔
    ∃ run rest, isRun run ∧ name = run ++ rest ∧ Spreads isRun glob rest := by
  constructor
  · rintro ⟨first, parts, runs, hfree, hglob, hlen, hruns, rfl⟩
    cases first with
    | cons c first =>
      obtain ⟨rfl, -⟩ := List.cons.inj hglob
      exact absurd List.mem_cons_self (hfree _ List.mem_cons_self)
    | nil =>
      cases parts with
      | nil => cases hglob
      | cons part parts =>
        obtain ⟨run, runs, rfl⟩ := List.exists_cons_of_length_eq_add_one hlen
        refine ⟨run, interleave part runs parts, hruns run List.mem_cons_self,
          interleave_cons_cons .., part, parts, runs, fun p hp => hfree p (.tail _ hp), ?_,
          Nat.succ.inj hlen, fun r hr => hruns r (.tail _ hr), rfl⟩
        rw [List.map_cons, interleave_cons_cons] at hglob
        exact (List.cons.inj hglob).2
  · rintro ⟨run, rest, hrun, rfl, first, parts, runs, hfree, rfl, hlen, hruns, rfl⟩
    refine ⟨[], first :: parts, run :: runs, List.forall_mem_cons.mpr ⟨List.not_mem_nil, hfree⟩, ?_,
      congrArg (· + 1) hlen, List.forall_mem_cons.mpr ⟨hrun, hruns⟩, ?_⟩
    · rw [List.map_cons, interleave_cons_cons]
      rfl
    · rw [interleave_cons_cons]
      rfl

theorem spreads_char (hg : g ≠ '*') : Spreads isRun (g :: glob) name ↔
    ∃ rest, name = g :: rest ∧ Spreads isRun glob rest := by
  constructor
  · rintro ⟨first, parts, runs, hfree, hglob, hlen, hruns, rfl⟩
    cases first with
    | nil =>
      -- A glob whose first part is empty begins with a star, or it is empty.
      cases parts with
      | nil => cases hglob
      | cons part parts =>
        rw [List.map_cons, interleave_cons_cons] at hglob
        exact absurd (List.cons.inj hglob).1 hg
    | cons c first =>
      rw [interleave_cons_left] at hglob
      obtain ⟨rfl, hrest⟩ := List.cons.inj hglob
      obtain ⟨hfirst, hparts⟩ := List.forall_mem_cons.mp hfree
      have hstar : '*' ∉ first := fun h => hfirst (.tail _ h)
      exact ⟨_, interleave_cons_left .., first, parts, runs,
        List.forall_mem_cons.mpr ⟨hstar, hparts⟩, hrest, hlen, hruns, rfl⟩
  · rintro ⟨rest, rfl, first, parts, runs, hfree, rfl, hlen, hruns, rfl⟩
    obtain ⟨hfirst, hparts⟩ := List.forall_mem_cons.mp hfree
    have hstar : '*' ∉ g :: first := List.not_mem_cons_of_ne_of_not_mem (Ne.symm hg) hfirst
    exact ⟨g :: first, parts, runs, List.forall_mem_cons.mpr ⟨hstar, hparts⟩, rfl, hlen, hruns, rfl⟩

end

/-! ### The pattern of a glob -/

/-- The part of a pattern that a character of a glob stands for. -/
def globPart (c : Char) : PatternPart := if c = '*' then .anyRun else .char c

/-- How a character of a glob is written in its pattern. -/
def written (c : Char) : List Char := if c = '*' then ['.', '*'] else Text.quoteChar c

/-- To join the quoted parts is to write the glob character by character. -/
theorem intercalate_quoted (cs : List Char) :
    ['.', '*'].intercalate ((Text.pieces (· == '*') cs).map (·.flatMap Text.quoteChar)) =
      cs.flatMap written := by
  induction cs with
  | nil => rfl
  | cons c cs ih =>
    have hne : Text.pieces (· == '*') cs ≠ [] := Text.pieces_ne_nil cs
    obtain ⟨piece, pieces, hpieces⟩ := List.exists_cons_of_ne_nil hne
    rw [Text.pieces, List.flatMap_cons, ← ih, hpieces]
    by_cases hc : c = '*'
    · simp [written, hc]
    · cases pieces <;> simp [written, hc]

theorem toList_globPattern (glob : String) :
    (globPattern glob).toList = '^' :: (glob.toList.flatMap written ++ ['$']) := by
  have hparts : ((Text.splitAt '*' glob).map Text.quote).map String.toList =
      (Text.pieces (· == '*') glob.toList).map (·.flatMap Text.quoteChar) := by
    simp [Text.splitAt, Text.splitWhere, Text.quote, Function.comp_def]
  rw [globPattern, Text.joinWith, String.toList_append, String.toList_append,
    String.toList_intercalate, hparts]
  exact congrArg (fun cs => '^' :: (cs ++ ['$'])) (intercalate_quoted glob.toList)

theorem readParts?_written (c : Char) (cs : List Char) :
    Pattern.readParts? (written c ++ cs) = (Pattern.readParts? cs).map (globPart c :: ·) := by
  unfold written globPart Text.quoteChar
  split_ifs with hstar hsign
  · rfl
  · simp only [List.cons_append, List.nil_append, Pattern.readParts?, hsign, if_true]
  · have hne (sign : Char) (h : Text.signs.contains sign = true) : c ≠ sign :=
      fun hc => hsign (hc ▸ h)
    rw [List.singleton_append, Pattern.readParts?, if_neg hsign]
    · exact fun d ds hc => absurd hc (hne _ rfl)
    · exact fun ds hc => absurd hc (hne _ rfl)
    · exact hne _ rfl
    · exact hne _ rfl

/-- The pattern of a glob is read as a part for each character, between the ends of the name. -/
theorem read?_globPattern (glob : String) : Pattern.read? (globPattern glob) =
    some ⟨.start :: (glob.toList.map globPart ++ [.stop])⟩ := by
  have hread (cs : List Char) : Pattern.readParts? (cs.flatMap written ++ ['$']) =
      some (cs.map globPart ++ [.stop]) := by
    induction cs with
    | nil => rfl
    | cons c cs ih =>
      rw [List.flatMap_cons, List.append_assoc, readParts?_written, ih, Option.map_some,
        List.map_cons, List.cons_append]
  rw [Pattern.read?, toList_globPattern, Pattern.readParts?, hread]
  rfl

/-! ### Matching -/

/-- A run may leave whatever follows it within one line. -/
theorem mem_restsOfLine_iff {cs rest : List Char} :
    rest ∈ Pattern.restsOfLine cs ↔ ∃ run, '\n' ∉ run ∧ cs = run ++ rest := by
  induction cs with
  | nil =>
    rw [Pattern.restsOfLine, List.mem_singleton]
    constructor
    · rintro rfl
      exact ⟨[], List.not_mem_nil, rfl⟩
    · rintro ⟨run, -, h⟩
      exact (List.append_eq_nil_iff.mp h.symm).2
  | cons c cs ih =>
    have hstep : rest ∈ Pattern.restsOfLine (c :: cs) ↔
        rest = c :: cs ∨ c ≠ '\n' ∧ rest ∈ Pattern.restsOfLine cs := by
      rw [Pattern.restsOfLine]
      split_ifs with hc <;> simp [hc]
    rw [hstep, ih]
    constructor
    · rintro (rfl | ⟨hc, run, hrun, rfl⟩)
      · exact ⟨[], List.not_mem_nil, rfl⟩
      · exact ⟨c :: run, List.not_mem_cons_of_ne_of_not_mem (Ne.symm hc) hrun, rfl⟩
    · rintro ⟨run, hrun, h⟩
      cases run with
      | nil => exact .inl h.symm
      | cons d run =>
        obtain ⟨rfl, hcs⟩ := List.cons.inj h
        obtain ⟨hd, hrun⟩ := List.ne_and_not_mem_of_not_mem_cons hrun
        exact .inr ⟨Ne.symm hd, run, hrun, hcs⟩

/-- The parts of a glob match, up to the end of a name, the names over which it spreads with runs of
one line. -/
theorem matchesAt_globParts_iff (isStart : Bool) (glob name : List Char) :
    Pattern.matchesAt isStart (glob.map globPart ++ [.stop]) name = true ↔
      Spreads ('\n' ∉ ·) glob name := by
  induction glob generalizing isStart name with
  | nil => simp [Pattern.matchesAt, spreads_nil]
  | cons g glob ih =>
    rw [List.map_cons, List.cons_append, globPart]
    split_ifs with hg
    · rw [hg, spreads_star, Pattern.matchesAt, List.any_eq_true]
      simp only [mem_restsOfLine_iff, ih]
      constructor
      · rintro ⟨rest, ⟨run, hrun, rfl⟩, hrest⟩
        exact ⟨run, rest, hrun, rfl, hrest⟩
      · rintro ⟨run, rest, hrun, rfl, hrest⟩
        exact ⟨rest, ⟨run, hrun, rfl⟩, hrest⟩
    · rw [spreads_char hg]
      cases name with
      | nil => simp [Pattern.matchesAt]
      | cons c cs =>
        rw [Pattern.matchesAt, Bool.and_eq_true, beq_iff_eq, ih]
        constructor
        · rintro ⟨rfl, hrest⟩
          exact ⟨cs, rfl, hrest⟩
        · rintro ⟨rest, hname, hrest⟩
          obtain ⟨rfl, rfl⟩ := List.cons.inj hname
          exact ⟨rfl, hrest⟩

/-- A pattern that begins at the start of a text is found there or not at all. -/
theorem matchesSomewhere_start (isStart : Bool) (parts : List PatternPart) (cs : List Char) :
    Pattern.matchesSomewhere isStart (.start :: parts) cs =
      Pattern.matchesAt isStart (.start :: parts) cs := by
  have hlater (ds : List Char) : Pattern.matchesSomewhere false (.start :: parts) ds = false := by
    induction ds with
    | nil => rfl
    | cons d ds ih =>
      rw [Pattern.matchesSomewhere, ih, Pattern.matchesAt, Bool.false_and, Bool.or_self]
  cases cs with
  | nil => rfl
  | cons c cs => rw [Pattern.matchesSomewhere, hlater, Bool.or_false]

/-! ### The names of a glob -/

/-- Whether a glob admits a name: the parts of the glob between its stars make up the name, with a
text in the place of each star. -/
def Admits (glob name : String) : Prop :=
  ∃ first parts runs, (∀ part ∈ first :: parts, '*' ∉ part) ∧
    glob.toList = interleave first (parts.map fun _ => ['*']) parts ∧
    runs.length = parts.length ∧ name.toList = interleave first runs parts

theorem mem_interleave_of_mem_run {c : Char} {first run : List Char} {runs parts : List (List Char)}
    (hlen : runs.length = parts.length) (hrun : run ∈ runs) (hc : c ∈ run) :
    c ∈ interleave first runs parts := by
  induction runs generalizing first parts with
  | nil => cases hrun
  | cons other runs ih =>
    obtain ⟨part, parts, rfl⟩ := List.exists_cons_of_length_eq_add_one hlen.symm
    rw [interleave_cons_cons, List.append_assoc]
    refine List.mem_append_right _ ?_
    rcases List.mem_cons.mp hrun with rfl | hrun
    · exact List.mem_append_left _ hc
    · exact List.mem_append_right _ (ih (Nat.succ.inj hlen) hrun)

/-- The runs in a name of one line are within one line. -/
theorem spreads_iff_admits {glob name : String} (hname : '\n' ∉ name.toList) :
    Spreads ('\n' ∉ ·) glob.toList name.toList ↔ Admits glob name := by
  constructor
  · rintro ⟨first, parts, runs, hfree, hglob, hlen, -, heq⟩
    exact ⟨first, parts, runs, hfree, hglob, hlen, heq⟩
  · rintro ⟨first, parts, runs, hfree, hglob, hlen, heq⟩
    refine ⟨first, parts, runs, hfree, hglob, hlen, fun run hrun hbreak => hname ?_, heq⟩
    rw [heq]
    exact mem_interleave_of_mem_run hlen hrun hbreak

/-- A list of globs covers the names of one line that one of its globs admits. -/
theorem GlobList.matches_iff_admits (globs : List String) (name : String)
    (hname : '\n' ∉ name.toList) :
    (ofGlobs globs).matches name = true ↔ ∃ glob ∈ globs, Admits glob name := by
  have hpatterns : (ofGlobs globs).patterns =
      globs.map fun glob => ⟨.start :: (glob.toList.map globPart ++ [.stop])⟩ := by
    rw [ofGlobs, ← List.filterMap_eq_map]
    exact congrArg (List.filterMap · globs) (funext fun glob => read?_globPattern glob)
  rw [GlobList.matches, hpatterns, List.any_map, List.any_eq_true]
  refine exists_congr fun glob => and_congr_right fun _ => ?_
  rw [Function.comp_apply, Pattern.occursIn, matchesSomewhere_start, Pattern.matchesAt,
    Bool.true_and, matchesAt_globParts_iff, spreads_iff_admits hname]

/-- The parts of a glob do not overlap in a name, and a dot is a dot. -/
theorem parts_do_not_overlap : '\n' ∉ "aba".toList ∧
    ((GlobList.ofGlobs ["ab*ba", "a.a"]).matches "aba" = true ↔
      ∃ glob ∈ ["ab*ba", "a.a"], Admits glob "aba") ∧
    ¬∃ glob ∈ ["ab*ba", "a.a"], Admits glob "aba" := by
  have hname : '\n' ∉ "aba".toList := by decide
  have hiff := GlobList.matches_iff_admits ["ab*ba", "a.a"] "aba" hname
  have hmatches : ¬(GlobList.ofGlobs ["ab*ba", "a.a"]).matches "aba" = true := by decide
  exact ⟨hname, hiff, fun h => hmatches (hiff.mpr h)⟩

end TsxLint.Naming
