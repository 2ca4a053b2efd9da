import TsxLint.Text.Affix
import TsxLint.Text.Blank
import TsxLint.Text.Span

/-!
# Findings and their messages

A rule reports a `Diagnostic`: a span, the identifier of a message and the values for the
placeholders of that message. A template marks a placeholder by two opening and two closing
braces. `Template.segments` cuts a template once, from left to right, and `Template.render` fills
the placeholders that have a value; inserted values are not looked at again.
-/

namespace TsxLint

/-- Values for the placeholders of a message. -/
abbrev MessageData := List (String × String)

/-- One finding of a rule. -/
structure Diagnostic where
  span : Span
  id : String
  data : MessageData
  deriving DecidableEq, Repr, Inhabited

/-- Findings in the order in which they start; findings that start together keep their order. -/
def byStart (findings : List Diagnostic) : List Diagnostic :=
  findings.mergeSort fun a b => a.span.start ≤ b.span.start

namespace Template

/-- A piece of a template: text that stands for itself, or what is between the braces of a
placeholder. -/
inductive Segment
  | literal (text : List Char)
  | slot (content : List Char)
  deriving DecidableEq, Repr

/-- The braces that open a placeholder. -/
def opening : List Char := ['\x7b', '\x7b']

/-- The braces that close a placeholder. -/
def closing : List Char := ['\x7d', '\x7d']

end Template

namespace Text

theorem length_after? {start cs rest : List Char} (h : after? start cs = some rest) :
    rest.length + start.length = cs.length := by
  induction start generalizing cs with
  | nil => simp_all [after?]
  | cons a start ih =>
    cases cs with
    | nil => simp [after?] at h
    | cons c cs =>
      simp only [after?] at h
      split at h
      · have := ih h
        simp only [List.length_cons]
        omega
      · cases h

/-- A cut keeps every character: those before, those of `sub`, and the rest. -/
theorem length_cutAt? {sub cs before rest : List Char} (h : cutAt? sub cs = some (before, rest)) :
    before.length + sub.length + rest.length = cs.length := by
  induction cs generalizing before with
  | nil =>
    unfold cutAt? at h
    split at h <;> simp_all
  | cons c cs ih =>
    unfold cutAt? at h
    split at h
    · rename_i tail htail
      simp only [Option.some.injEq, Prod.mk.injEq] at h
      obtain ⟨rfl, rfl⟩ := h
      have := length_after? htail
      simp only [List.length_nil]
      omega
    · obtain ⟨⟨b, r⟩, hb, heq⟩ := Option.map_eq_some_iff.1 h
      simp only [Prod.mk.injEq] at heq
      obtain ⟨rfl, rfl⟩ := heq
      have := ih hb
      simp only [List.length_cons]
      omega

end Text

namespace Template

/-- The pieces of a template. A placeholder runs from the leftmost opening to the first closing
after it; an opening that is never closed stands for itself. -/
def segments (cs : List Char) : List Segment :=
  match _h : Text.cutAt? opening cs with
  | none => [.literal cs]
  | some (before, afterOpening) =>
    match _h : Text.cutAt? closing afterOpening with
    | none => [.literal cs]
    | some (content, rest) => .literal before :: .slot content :: segments rest
termination_by cs.length
decreasing_by
  have h1 := Text.length_cutAt? ‹Text.cutAt? opening cs = _›
  have h2 := Text.length_cutAt? ‹Text.cutAt? closing _ = _›
  simp only [opening, closing, List.length_cons, List.length_nil] at h1 h2
  omega

/-- The text of a piece: a placeholder whose trimmed content is a key of the data gives the value,
any other piece is kept as written. -/
def Segment.render (data : MessageData) : Segment → List Char
  | literal text => text
  | slot content =>
    match data.lookup (Text.trim (String.ofList content)) with
    | some value => value.toList
    | none => opening ++ content ++ closing

/-- A template with its placeholders filled. -/
def render (template : String) (data : MessageData) : String :=
  String.ofList ((segments template.toList).flatMap (·.render data))

/-- A placeholder for the value named `key`. -/
def hole (key : String) : String :=
  String.ofList opening ++ key ++ String.ofList closing

end Template

end TsxLint
