import TsxLint.Message
import TsxLint.Proofs.Data.Lookup
import TsxLint.Proofs.Text.Cuts

/-!
# Filling a template

A template falls into literal pieces and placeholders in one way, which depends on the template
alone: a placeholder begins at the leftmost opening behind the one before and ends at the first
closing after it. Rendering puts values in the place of some placeholders and keeps all else. What
is put in is therefore never read again, whatever braces it has, and a template that asks for
nothing the data has stays as it is.

## Main definitions

* `Template.Segmented`: the pieces of a text, said by where openings and closings occur.
* `Template.Filled`: what pieces become with some data.

## Main results

* `Template.segmented_iff`: each text has pieces, and only one list of them.
* `Template.render_fills_once`: rendering fills the pieces of the template from left to right.
-/

namespace TsxLint.Template

/-! ### Pieces -/

/-- How a piece is written. -/
def Segment.source : Segment → List Char
  | literal text => text
  | slot content => opening ++ content ++ closing

/-- The pieces of a text. What follows the last placeholder is one literal piece, with every opening
that is never closed. -/
inductive Segmented : List Char → List Segment → Prop
  | last {text : List Char} (hunclosed : ∀ before content rest,
      text ≠ before ++ opening ++ (content ++ closing ++ rest)) : Segmented text [.literal text]
  | slot {before content rest : List Char} {pieces : List Segment}
      (hopening : Text.IsFirst opening before (content ++ closing ++ rest))
      (hclosing : Text.IsFirst closing content rest) (hrest : Segmented rest pieces) :
      Segmented (before ++ opening ++ (content ++ closing ++ rest))
        (.literal before :: .slot content :: pieces)

section

variable {text : List Char} {pieces : List Segment}

/-- The pieces of a text, put together again. -/
theorem Segmented.source (h : Segmented text pieces) : pieces.flatMap Segment.source = text := by
  induction h with
  | last => simp [Segment.source]
  | slot hopening hclosing hrest ih => simp [Segment.source, ih]

/-- Behind an opening without a closing no other opening is closed. -/
theorem unclosed_of_cutAt? {before after : List Char}
    (hopening : Text.cutAt? opening text = some (before, after))
    (hclosing : Text.cutAt? closing after = none) (other content rest : List Char) :
    text ≠ other ++ opening ++ (content ++ closing ++ rest) := by
  intro hother
  obtain ⟨htext, hfirst⟩ := Text.cutAt?_eq_some_iff.mp hopening
  have hlen := hfirst _ _ (htext.symm.trans hother)
  -- The other opening is not before the first one, so its closing lies behind the first one too.
  rcases List.append_eq_append_iff.mp (htext.symm.trans hother) with
    ⟨between, -, hafter⟩ | ⟨between, hlonger, hrest⟩
  · exact Text.cutAt?_eq_none_iff.mp hclosing ⟨between ++ content, rest, by simp [hafter]⟩
  · have hnil : between = [] := by
      have := congrArg List.length hlonger
      simp only [List.length_append] at this
      exact List.eq_nil_of_length_eq_zero (by omega)
    refine Text.cutAt?_eq_none_iff.mp hclosing ⟨content, rest, ?_⟩
    simpa [hnil] using hrest

theorem segmented_segments (text : List Char) : Segmented text (segments text) := by
  fun_induction segments text with
  | case1 text hopening =>
    refine .last fun before content rest htext => Text.cutAt?_eq_none_iff.mp hopening ?_
    exact ⟨before, content ++ closing ++ rest, htext.symm⟩
  | case2 text before after hopening hclosing => exact .last (unclosed_of_cutAt? hopening hclosing)
  | case3 text before after hopening content rest hclosing ih =>
    obtain ⟨rfl, hfirst⟩ := Text.cutAt?_eq_some_iff.mp hopening
    obtain ⟨rfl, hnext⟩ := Text.cutAt?_eq_some_iff.mp hclosing
    exact .slot hfirst hnext ih

/-- The first placeholder of a text is in the same place in any pieces of it. -/
theorem Segmented.unique {others : List Segment} (h : Segmented text pieces)
    (hothers : Segmented text others) : pieces = others := by
  induction h generalizing others with
  | last hunclosed =>
    cases hothers with
    | last => rfl
    | slot => exact absurd rfl (hunclosed _ _ _)
  | @slot before content rest pieces hopening hclosing hrest ih =>
    generalize htext : before ++ opening ++ (content ++ closing ++ rest) = text at hothers
    cases hothers with
    | last hunclosed => exact absurd htext.symm (hunclosed _ _ _)
    | slot hopening' hclosing' hrest' =>
      obtain ⟨rfl, hinside⟩ := hopening.unique hopening' htext
      obtain ⟨rfl, rfl⟩ := hclosing.unique hclosing' hinside
      rw [ih hrest']

/-- A text has pieces, and only one list of them. -/
theorem segmented_iff : Segmented text pieces ↔ pieces = segments text :=
  ⟨fun h => h.unique (segmented_segments text), fun h => h ▸ segmented_segments text⟩

end

/-! ### What pieces become -/

/-- The key of a placeholder: what is between its braces, without white space at either end. -/
def keyOf (content : List Char) : String := Text.trim (String.ofList content)

/-- What pieces become, from left to right: a placeholder whose key is in the data becomes the
value, character for character; every other piece stays as it is written. -/
inductive Filled (data : MessageData) : List Segment → List Char → Prop
  | nil : Filled data [] []
  | literal {pieces : List Segment} {rest : List Char} (words : List Char)
      (hrest : Filled data pieces rest) : Filled data (.literal words :: pieces) (words ++ rest)
  | value {pieces : List Segment} {content rest : List Char} {value : String}
      (hvalue : data.lookup (keyOf content) = some value) (hrest : Filled data pieces rest) :
      Filled data (.slot content :: pieces) (value.toList ++ rest)
  | unknown {pieces : List Segment} {content rest : List Char}
      (hkey : keyOf content ∉ data.map Prod.fst) (hrest : Filled data pieces rest) :
      Filled data (.slot content :: pieces) (opening ++ content ++ closing ++ rest)

section

variable {data : MessageData} {pieces : List Segment} {text content : List Char} {value : String}

theorem render_slot_of_lookup (hvalue : data.lookup (keyOf content) = some value) :
    (Segment.slot content).render data = value.toList := by
  rw [keyOf] at hvalue
  rw [Segment.render, hvalue]

theorem render_slot_of_not_mem (hkey : keyOf content ∉ data.map Prod.fst) :
    (Segment.slot content).render data = opening ++ content ++ closing := by
  have hvalue := mem_keys_iff_lookup_ne_none.not_left.mp hkey
  rw [keyOf] at hvalue
  rw [Segment.render, hvalue]

theorem filled_flatMap (data : MessageData) :
    (pieces : List Segment) → Filled data pieces (pieces.flatMap (·.render data))
  | [] => .nil
  | .literal words :: pieces => .literal words (filled_flatMap data pieces)
  | .slot content :: pieces => by
    rw [List.flatMap_cons]
    cases hvalue : data.lookup (keyOf content) with
    | some value =>
      rw [render_slot_of_lookup hvalue]
      exact .value hvalue (filled_flatMap data pieces)
    | none =>
      have hkey := mem_keys_iff_lookup_ne_none.not_left.mpr hvalue
      rw [render_slot_of_not_mem hkey]
      exact .unknown hkey (filled_flatMap data pieces)

/-- Pieces become one text with some data. -/
theorem filled_iff : Filled data pieces text ↔ text = pieces.flatMap (·.render data) := by
  refine ⟨fun h => ?_, fun h => h ▸ filled_flatMap data pieces⟩
  induction h with
  | nil => rfl
  | literal words hrest ih => rw [ih, List.flatMap_cons, Segment.render]
  | value hvalue hrest ih => rw [ih, List.flatMap_cons, render_slot_of_lookup hvalue]
  | unknown hkey hrest ih => rw [ih, List.flatMap_cons, render_slot_of_not_mem hkey]

/-- Pieces without a key of the data stay as they are written. -/
theorem flatMap_render_of_not_mem
    (hkeys : ∀ content, .slot content ∈ pieces → keyOf content ∉ data.map Prod.fst) :
    pieces.flatMap (·.render data) = pieces.flatMap Segment.source := by
  refine List.flatMap_congr fun piece hpiece => ?_
  cases piece with
  | literal words => rfl
  | slot content => exact render_slot_of_not_mem (hkeys content hpiece)

end

/-- Rendering is one substitution from left to right. The template alone decides the pieces; the
result is what they become with the data, no more and no less. A value stands in the result as it is
in the data, between what the pieces before its placeholder and the pieces behind it become. Without
a key that the data has, the result is the template. -/
theorem render_fills_once (template : String) : ∃ pieces : List Segment,
    (∀ others, Segmented template.toList others ↔ others = pieces) ∧
    pieces.flatMap Segment.source = template.toList ∧
    ∀ data : MessageData,
      (∀ text, Filled data pieces text ↔ text = (render template data).toList) ∧
      (∀ before content after value, pieces = before ++ .slot content :: after →
        data.lookup (keyOf content) = some value →
        ∃ left right, Filled data before left ∧ Filled data after right ∧
          (render template data).toList = left ++ value.toList ++ right) ∧
      ((∀ content, .slot content ∈ pieces → keyOf content ∉ data.map Prod.fst) →
        render template data = template) := by
  have hsource : (segments template.toList).flatMap Segment.source = template.toList :=
    (segmented_segments template.toList).source
  refine ⟨segments template.toList, fun others => segmented_iff, hsource, fun data => ?_⟩
  have hrender : (render template data).toList =
      (segments template.toList).flatMap (·.render data) := String.toList_ofList
  refine ⟨fun text => by rw [filled_iff, hrender], ?_, ?_⟩
  · intro before content after value hpieces hvalue
    refine ⟨_, _, filled_iff.mpr rfl, filled_iff.mpr rfl, ?_⟩
    rw [hrender, hpieces]
    simp [render_slot_of_lookup hvalue]
  · intro hkeys
    rw [← String.toList_inj, hrender, flatMap_render_of_not_mem hkeys, hsource]

/-- A value that looks like a placeholder is put in as it is, although the data has its key. -/
example : render "a \x7b\x7b\x7bx\x7d\x7d \x7b\x7b y \x7d\x7d"
    [("y", "\x7b\x7bz\x7d\x7d"), ("z", "!")] =
    "a \x7b\x7b\x7bx\x7d\x7d \x7b\x7bz\x7d\x7d" := by
  cbv

end TsxLint.Template
