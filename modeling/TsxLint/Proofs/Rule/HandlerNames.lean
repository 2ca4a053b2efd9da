import TsxLint.Proofs.Naming.Vocabularies
import TsxLint.Rule.HandlerName

/-!
# Suggested names of handlers

Two rules suggest another name for a handler: the verb that the name leads with moves to its end.
A suggestion is worth following if the rule has nothing to say about the new name. For the rule
about the verb at the end this is so for names of ASCII characters: what was moved is the verb
letter for letter, whatever its case, and so the new name ends with it.

## Main definitions

* `Check.Spares`: a name that a check never reports.

## Main results

* `moveVerb?_eq_some_iff`: how a name is cut before its verb moves.
* `VerbSuffix.suggested_name_ends_with_verb`: a suggestion settles the finding it is made for.
-/

namespace TsxLint

/-! ### The verb that a name leads with -/

theorem Text.splitBytes?_eq_some_iff {s first rest : String} {n : Nat} :
    splitBytes? s n = some (first, rest) ↔ s = first ++ rest ∧ first.utf8ByteSize = n := by
  simp only [splitBytes?, Option.bind_eq_bind, Option.bind_eq_some_iff, Option.pure_def,
    Option.some.injEq, Prod.mk.injEq, takeBytes?_eq_some_iff, dropBytes?_eq_some_iff]
  constructor
  · rintro ⟨cs, ⟨after, hcs, hlen⟩, ds, ⟨before, hds, hlen'⟩, rfl, rfl⟩
    obtain ⟨rfl, rfl⟩ := append_inj_of_utf8Len (hcs.symm.trans hds) (hlen.trans hlen'.symm)
    rw [← String.ofList_append, ← hcs, String.ofList_toList, String.utf8ByteSize_ofList]
    exact ⟨rfl, hlen⟩
  · rintro ⟨rfl, rfl⟩
    simp only [String.toList_append, ← String.utf8Len_toList]
    exact ⟨first.toList, ⟨_, rfl, rfl⟩, rest.toList, ⟨_, rfl, rfl⟩, String.ofList_toList,
      String.ofList_toList⟩

theorem moveVerb?_eq_some_iff {rest verb suggestion : String} :
    moveVerb? rest verb = some suggestion ↔ ∃ leading subject, rest = leading ++ subject ∧
      leading.utf8ByteSize = verb.utf8ByteSize ∧ subject ≠ "" ∧
      Naming.firstIsUpperOrCaseless subject = true ∧ suggestion = "on" ++ subject ++ leading := by
  simp only [moveVerb?, Option.bind_eq_bind, Option.bind_eq_some_iff, Prod.exists,
    Text.splitBytes?_eq_some_iff, Option.ite_none_right_eq_some, Bool.and_eq_true, bne_iff_ne,
    Option.some.injEq, eq_comm (b := suggestion), and_assoc, ne_eq]

theorem handlerRest_append (rest : String) : handlerRest ("on" ++ rest) = rest := by
  rw [handlerRest, Text.stripStart?_eq_some_iff.mpr rfl, Option.getD_some]

theorem eq_append_handlerRest {prop : String} (h : Text.startsWith prop "on" = true) :
    prop = "on" ++ handlerRest prop := by
  obtain ⟨rest, rfl⟩ := Text.startsWith_iff.mp h
  rw [handlerRest_append]

theorem Naming.startsWith_of_isHandlerName {name : String} (h : isHandlerName name = true) :
    Text.startsWith name "on" = true := by
  obtain ⟨rest, hrest, -⟩ := (Option.any_eq_true _ _).mp h
  exact Text.startsWith_iff.mpr ⟨rest, Text.stripStart?_eq_some_iff.mp hrest⟩

/-- In an ASCII name, what is cut off for a verb is this verb in lower case. -/
theorem Text.lower_leading {leading subject verb : String} (hascii : IsAscii (leading ++ subject))
    (hverb : startsWith (lower (leading ++ subject)) verb = true)
    (hsize : leading.utf8ByteSize = verb.utf8ByteSize) : lower leading = verb := by
  obtain ⟨rest, hrest⟩ := startsWith_iff.mp hverb
  rw [lower_append hascii] at hrest
  refine (append_inj_of_utf8ByteSize hrest ?_).1
  rw [← hsize, utf8ByteSize_lower (isAscii_append.mp hascii).1]

/-! ### Names without findings -/

/-- A name that a check never reports: each finding is about an attribute with another name. -/
def Check.Spares (check : Check) (name : String) : Prop :=
  ∀ file, ∀ d ∈ check file, ∃ a ∈ file.attributes,
    d.span = a.nameSpan ∧ d.data.lookup "prop" = some a.tagName ∧ a.tagName ≠ name

/-- The file of the element `<a name />`. -/
def Subject.ofAttribute (name : String) : Subject :=
  let source := "<a " ++ name ++ " />"
  let stop := 3 + name.utf8ByteSize
  let element : Cst := ⟨"jsx_self_closing_element", true, "", ⟨0, stop + 3⟩, source, [
    ⟨"<", false, "", ⟨0, 1⟩, "<", []⟩,
    ⟨"identifier", true, "name", ⟨1, 2⟩, "a", []⟩,
    ⟨"jsx_attribute", true, "attribute", ⟨3, stop⟩, name, [
      ⟨"property_identifier", true, "", ⟨3, stop⟩, name, []⟩]⟩,
    ⟨"/>", false, "", ⟨stop + 1, stop + 3⟩, "/>", []⟩]⟩
  let program : Cst := ⟨"program", true, "", ⟨0, stop + 3⟩, source, [
    ⟨"expression_statement", true, "", ⟨0, stop + 3⟩, source, [element]⟩]⟩
  .ofFile ⟨"component.tsx", source, .tsx, .ofProgram (.ofCst program), .ofSource source⟩ none

namespace VerbSuffix

variable {verbs : List String} {rest prop suggestion : String} {span : Span} {d : Diagnostic}

theorem suggestion?_eq_some (h : suggestion? verbs rest = some suggestion) :
    ∃ verb ∈ verbs, Text.startsWith (Text.lower rest) verb = true ∧
      moveVerb? rest verb = some suggestion := by
  simp only [suggestion?, Option.ite_none_left_eq_some] at h
  obtain ⟨verb, hverb, h⟩ := List.exists_of_findSome?_eq_some h.2
  exact ⟨verb, hverb, Option.ite_none_right_eq_some.mp h⟩

theorem prop_of_finding? (h : finding? verbs prop span = some d) :
    d.span = span ∧ d.data.lookup "prop" = some prop := by
  unfold finding? at h
  split_ifs at h
  split at h
  all_goals
    obtain rfl := Option.some.inj h
    exact ⟨rfl, rfl⟩

theorem finding?_eq_preferVerbSuffix (h : finding? verbs prop span = some d)
    (hid : d.id = "preferVerbSuffix") : Naming.isHandlerName prop = true ∧
      ∃ suggestion, suggestion? verbs (handlerRest prop) = some suggestion ∧
        d = ⟨span, "preferVerbSuffix", [("suggestion", suggestion), ("prop", prop)]⟩ := by
  unfold finding? at h
  split_ifs at h with hskip
  simp only [Bool.or_eq_true, Bool.not_eq_true', not_or, Bool.not_eq_false] at hskip
  split at h
  · rename_i suggestion hsuggestion
    exact ⟨hskip.1, suggestion, hsuggestion, (Option.some.inj h).symm⟩
  · obtain rfl := Option.some.inj h
    exact absurd (show "mustEndWithVerb" = "preferVerbSuffix" from hid) (by decide)

theorem finding?_eq_none (h : endsWithVerb verbs rest = true) :
    finding? verbs ("on" ++ rest) span = none := by
  rw [finding?, if_pos (by rw [handlerRest_append, h, Bool.or_true])]

/-- Names that end with a verb are spared. -/
theorem spares_of_endsWithVerb (h : endsWithVerb verbs rest = true) :
    (check verbs).Spares ("on" ++ rest) := by
  intro file d hd
  obtain ⟨a, ha, hd⟩ := List.mem_filterMap.mp hd
  obtain ⟨hspan, hprop⟩ := prop_of_finding? hd
  refine ⟨a, ha, hspan, hprop, fun hname => ?_⟩
  rw [hname, finding?_eq_none h] at hd
  cases hd

theorem endsWithVerb_moved {verb leading subject : String} (hmem : verb ∈ verbs)
    (hascii : Text.IsAscii (leading ++ subject)) (hleading : Text.lower leading = verb) :
    endsWithVerb verbs (subject ++ leading) = true := by
  have hparts := Text.isAscii_append.mp hascii
  refine List.any_eq_true.mpr ⟨verb, hmem, Text.endsWith_iff.mpr ⟨Text.lower subject, ?_⟩⟩
  rw [Text.lower_append (Text.isAscii_append.mpr hparts.symm), hleading]

/-- **A suggestion for the end of a name settles the finding it is made for.** A name of ASCII
characters gets one that starts with `on`, has the same characters in another order and is never
reported. -/
theorem suggested_name_ends_with_verb {options : Data} {check : Check} {file : Subject}
    (hcheck : jsxOnHandlerVerbSuffix.configure options = some check) (hd : d ∈ check file)
    (hid : d.id = "preferVerbSuffix") : ∃ a ∈ file.attributes, ∃ suggestion,
      d = ⟨a.nameSpan, "preferVerbSuffix", [("suggestion", suggestion), ("prop", a.tagName)]⟩ ∧
      (Text.IsAscii a.tagName → suggestion.toList.Perm a.tagName.toList ∧
        Text.startsWith suggestion "on" = true ∧ check.Spares suggestion) := by
  obtain ⟨verbs, -, rfl⟩ := Option.map_eq_some_iff.mp hcheck
  obtain ⟨a, ha, hfinding⟩ := List.mem_filterMap.mp hd
  obtain ⟨hname, suggestion, hsuggestion, rfl⟩ := finding?_eq_preferVerbSuffix hfinding hid
  refine ⟨a, ha, suggestion, rfl, fun hascii => ?_⟩
  have hprop := eq_append_handlerRest (Naming.startsWith_of_isHandlerName hname)
  obtain ⟨verb, hmem, hverb, hmoved⟩ := suggestion?_eq_some hsuggestion
  obtain ⟨leading, subject, hrest, hsize, -, -, rfl⟩ := moveVerb?_eq_some_iff.mp hmoved
  rw [hrest] at hprop hverb
  rw [hprop] at hascii ⊢
  have hparts := (Text.isAscii_append.mp hascii).2
  rw [String.append_assoc]
  refine ⟨?_, Text.startsWith_iff.mpr ⟨_, rfl⟩,
    spares_of_endsWithVerb (endsWithVerb_moved hmem hparts (Text.lower_leading hparts hverb hsize))⟩
  simp only [String.toList_append]
  exact List.perm_append_comm.append_left _

/-- A name that leads with a verb and does not end with one gets a suggestion. -/
theorem exists_preferVerbSuffix {file : Subject} {a : Node} (ha : a ∈ file.attributes)
    (hname : Naming.isHandlerName a.tagName = true)
    (hends : endsWithVerb verbs (handlerRest a.tagName) = false)
    (hlength : 2 ≤ (handlerRest a.tagName).length)
    (hverb : ∃ verb ∈ verbs, Text.startsWith (Text.lower (handlerRest a.tagName)) verb = true ∧
      (moveVerb? (handlerRest a.tagName) verb).isSome = true) :
    ∃ d ∈ check verbs file, d.id = "preferVerbSuffix" := by
  obtain ⟨verb, hmem, hstart, hmoved⟩ := hverb
  have hsome : (suggestion? verbs (handlerRest a.tagName)).isSome = true := by
    rw [suggestion?, if_neg (by omega), List.findSome?_isSome_iff]
    exact ⟨verb, hmem, by rwa [if_pos hstart]⟩
  obtain ⟨suggestion, hsuggestion⟩ := Option.isSome_iff_exists.mp hsome
  have hfinding : finding? verbs a.tagName a.nameSpan =
      some ⟨a.nameSpan, "preferVerbSuffix", [("suggestion", suggestion), ("prop", a.tagName)]⟩ := by
    rw [finding?, hname, hends, if_neg (by decide), hsuggestion]
  exact ⟨_, List.mem_filterMap.mpr ⟨a, ha, hfinding⟩, rfl⟩

/-- Options that add the verb `Pick`. -/
private def pickOption : Data := .table [("extendVerbs", .list [.text " Pick "])]

/-- With `Pick` as another verb, `onPickColor` is reported, and the name suggested for it is not. -/
theorem pickColor_is_settled : ∃ check,
    jsxOnHandlerVerbSuffix.configure pickOption = some check ∧
    ∃ d ∈ check (.ofAttribute "onPickColor"), d.id = "preferVerbSuffix" ∧
      ∃ suggestion, d.data.lookup "suggestion" = some suggestion ∧ check.Spares suggestion := by
  have hcheck : jsxOnHandlerVerbSuffix.configure pickOption =
      some (check (Naming.mergeVocabulary Naming.handlerVerbs [" Pick "])) := rfl
  have hknown : ∀ word ∈ Naming.handlerVerbs, word ≠ "" ∧ word.toList.all Char.isLower = true := by
    decide +kernel
  have hpick : Naming.normalizeWord " Pick " = "pick" := by decide +kernel
  have hmem (verb : String) : verb ∈ Naming.mergeVocabulary Naming.handlerVerbs [" Pick "] ↔
      verb ∈ Naming.handlerVerbs ∨ verb ≠ "" ∧ "pick" = verb := by
    rw [Naming.mem_mergeVocabulary_iff_of_isLower hknown]
    simp only [List.mem_singleton, exists_eq_left, hpick]
  have hends : endsWithVerb (Naming.mergeVocabulary Naming.handlerVerbs [" Pick "]) "PickColor" =
      false := by
    have hlower : Text.lower "PickColor" = "pickcolor" := by decide +kernel
    have hall : ∀ verb ∈ Naming.handlerVerbs, ¬ Text.endsWith "pickcolor" verb = true := by
      decide +kernel
    refine List.any_eq_false.mpr fun verb hverb => ?_
    rw [hlower]
    rcases (hmem verb).mp hverb with hknown | ⟨-, rfl⟩
    · exact hall verb hknown
    · decide
  obtain ⟨a, ha, hname⟩ : ∃ a ∈ (Subject.ofAttribute "onPickColor").attributes,
      a.tagName = "onPickColor" := by
    decide +kernel
  have hrest : handlerRest a.tagName = "PickColor" := by
    rw [hname]
    decide +kernel
  have hverb : Text.startsWith (Text.lower "PickColor") "pick" = true ∧
      (moveVerb? "PickColor" "pick").isSome = true := by
    decide +kernel
  obtain ⟨d, hd, hid⟩ := exists_preferVerbSuffix ha (by rw [hname]; decide +kernel)
    (by rw [hrest, hends]) (by rw [hrest]; decide)
    ⟨"pick", (hmem "pick").mpr (.inr ⟨by decide, rfl⟩), by rwa [hrest]⟩
  obtain ⟨b, hb, suggestion, rfl, hsettled⟩ := suggested_name_ends_with_verb hcheck hd hid
  have hascii : ∀ b ∈ (Subject.ofAttribute "onPickColor").attributes, Text.IsAscii b.tagName := by
    decide +kernel
  exact ⟨_, hcheck, _, hd, hid, suggestion, rfl, (hsettled (hascii b hb)).2.2⟩

end VerbSuffix

end TsxLint
