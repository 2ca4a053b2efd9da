import TsxLint.Message

/-!
# Templates of texts and holes

A template is written as a sum of texts and holes. Read back, its placeholders are the holes, as long
as no text has two opening braces in a row or ends with one, and no key of a hole the same with
closing braces. So which values a template asks for is seen from the way it is written.

## Main definitions

* `Template.isClear`: no brace is doubled in a text, nor may one be at its end.
* `Template.Asks`: templates of clear texts and of holes for some keys.

## Main results

* `Template.Asks.trim_mem`: the placeholders of a template are for those keys.
-/

namespace TsxLint.Template

/-- Whether a text has no two braces of a kind in a row, and none at its end. -/
def isClear (brace : Char) : List Char → Bool
  | [] => true
  | [c] => c != brace
  | c :: d :: cs => !(c == brace && d == brace) && isClear brace (d :: cs)

/-- Past a clear text a pair of braces is found where it is found behind it. -/
theorem cutAt?_append {brace : Char} {cs : List Char} (h : isClear brace cs = true)
    (rest : List Char) : Text.cutAt? [brace, brace] (cs ++ rest) =
      (Text.cutAt? [brace, brace] rest).map fun (before, after) => (cs ++ before, after) := by
  fun_induction isClear brace cs with
  | case1 => simp
  | case2 c =>
    have hc : ¬brace = c := fun heq => by simp [heq] at h
    rw [List.singleton_append, Text.cutAt?, Text.after?, if_neg hc]
    rfl
  | case3 c d cs ih =>
    obtain ⟨hpair, hcs⟩ := Bool.and_eq_true_iff.mp h
    have hnone : Text.after? [brace, brace] (c :: d :: (cs ++ rest)) = none := by
      have hne : brace = c → ¬brace = d := by
        rintro rfl rfl
        simp at hpair
      simp only [Text.after?, ite_eq_right_iff]
      exact fun hc hd => absurd hd (hne hc)
    rw [List.cons_append, List.cons_append, Text.cutAt?, hnone]
    dsimp only
    rw [← List.cons_append, ih hcs, Option.map_map]
    rfl

/-! ### Placeholders -/

/-- The placeholders of a text are for some of the keys. -/
def AsksFor (keys : List String) (cs : List Char) : Prop :=
  ∀ content, .slot content ∈ segments cs → Text.trim (String.ofList content) ∈ keys

/-- A template for some keys: clear texts and holes for the keys, one after another. -/
inductive Asks (keys : List String) : String → Prop
  | text {cs : List Char} (h : isClear '\x7b' cs = true) : Asks keys (String.ofList cs)
  | hole {cs : List Char} (hkey : String.ofList cs ∈ keys)
      (hcs : cs.all (fun c => c != '\x7d' && !Text.isBlank c) = true) :
      Asks keys (hole (String.ofList cs))
  | append {a b : String} (ha : Asks keys a) (hb : Asks keys b) : Asks keys (a ++ b)

variable {keys : List String} {cs rest : List Char}

theorem isClear_of_forall_ne {brace : Char} (h : ∀ c ∈ cs, c ≠ brace) :
    isClear brace cs = true := by
  fun_induction isClear brace cs with
  | case1 => rfl
  | case2 c => simpa using h
  | case3 c d cs ih =>
    obtain ⟨hc, hcs⟩ := List.forall_mem_cons.mp h
    simp [hc, ih hcs]

/-- The first placeholder is between the first opening and closing braces, the others behind it. -/
theorem slot_mem_segments_iff {content : List Char} : .slot content ∈ segments cs ↔
    ∃ before inside after next, Text.cutAt? opening cs = some (before, inside) ∧
      Text.cutAt? closing inside = some (next, after) ∧
        (content = next ∨ .slot content ∈ segments after) := by
  rw [segments]
  split
  · rename_i hnone
    simp [hnone]
  · rename_i before inside hopening
    split
    · rename_i hnone
      simp [hopening, hnone]
    · rename_i next after hclosing
      constructor
      · intro h
        exact ⟨before, inside, after, next, hopening, hclosing, by simpa using h⟩
      · rintro ⟨before', inside', after', next', hopening', hclosing', hwhere⟩
        obtain ⟨rfl, rfl⟩ := Prod.mk.inj (Option.some.inj (hopening.symm.trans hopening'))
        obtain ⟨rfl, rfl⟩ := Prod.mk.inj (Option.some.inj (hclosing.symm.trans hclosing'))
        simpa using hwhere

theorem AsksFor.text_append (hcs : isClear '\x7b' cs = true) (hrest : AsksFor keys rest) :
    AsksFor keys (cs ++ rest) := by
  intro content hcontent
  obtain ⟨before, inside, after, next, hopening, hclosing⟩ := slot_mem_segments_iff.mp hcontent
  rw [opening, cutAt?_append hcs] at hopening
  obtain ⟨⟨before', inside'⟩, hfound, heq⟩ := Option.map_eq_some_iff.mp hopening
  obtain ⟨-, rfl⟩ := Prod.mk.inj heq
  exact hrest content (slot_mem_segments_iff.mpr ⟨_, _, _, _, hfound, hclosing⟩)

theorem AsksFor.hole_append (hkey : String.ofList cs ∈ keys)
    (hcs : cs.all (fun c => c != '\x7d' && !Text.isBlank c) = true)
    (hrest : AsksFor keys rest) : AsksFor keys (opening ++ cs ++ closing ++ rest) := by
  have hplain : ∀ c ∈ cs, c ≠ '\x7d' ∧ Text.isBlank c = false := by simpa using hcs
  have hopening : Text.cutAt? opening (opening ++ cs ++ closing ++ rest) =
      some ([], cs ++ (closing ++ rest)) := by
    simp [opening, Text.cutAt?, Text.after?]
  have hclosing : Text.cutAt? closing (cs ++ (closing ++ rest)) = some (cs, rest) := by
    rw [closing, cutAt?_append (isClear_of_forall_ne fun c hc => (hplain c hc).1)]
    simp [Text.cutAt?, Text.after?]
  intro content hcontent
  obtain ⟨before, inside, after, next, hfirst, hnext, hwhere⟩ := slot_mem_segments_iff.mp hcontent
  obtain ⟨rfl, rfl⟩ := Prod.mk.inj (Option.some.inj (hopening.symm.trans hfirst))
  obtain ⟨rfl, rfl⟩ := Prod.mk.inj (Option.some.inj (hclosing.symm.trans hnext))
  rcases hwhere with rfl | hwhere
  · rw [Text.trim, String.toList_ofList,
      Text.trimChars_of_forall_not_blank fun c hc => (hplain c hc).2]
    exact hkey
  · exact hrest content hwhere

theorem Asks.append_asksFor {template : String} (h : Asks keys template)
    (hrest : AsksFor keys rest) : AsksFor keys (template.toList ++ rest) := by
  induction h generalizing rest with
  | text h =>
    rw [String.toList_ofList]
    exact hrest.text_append h
  | hole hkey hcs =>
    simp only [Template.hole, String.toList_append, String.toList_ofList]
    exact hrest.hole_append hkey hcs
  | append _ _ iha ihb =>
    rw [String.toList_append, List.append_assoc]
    exact iha (ihb hrest)

/-- The placeholders of a template are for the keys of its holes. -/
theorem Asks.trim_mem {template : String} (h : Asks keys template) :
    AsksFor keys template.toList := by
  have hnil : AsksFor keys [] := by
    intro content hcontent
    simp [segments, Text.cutAt?, opening] at hcontent
  simpa using h.append_asksFor hnil

end TsxLint.Template
