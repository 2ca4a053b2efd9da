import Mathlib.Data.List.Flatten
import TsxLint.Component.Markup
import TsxLint.Proofs.Binding.Reached
import TsxLint.Proofs.Component.Bodies
import TsxLint.Proofs.Data.FirstOccurrences

/-!
# Handoffs

A component hands its markup on to the components that it renders self-closing. They are searched
for in what its body returns: through parentheses, the branches of conditions, the operands of
logical expressions, the children of elements and fragments, and expression containers. The values
of attributes are markup as well, and may render components too, but the search does not enter them.

## Main definitions

* `Node.GivesMarkup`: from an expression or markup to a part that it directly gives.
* `Node.HoldsAttribute`: from an element to its opening, its attributes and their values.
* `Node.selfClosingComponent?`: the component that an element renders self-closing.

## Main results

* `Node.selfClosing_eq`: the search follows the parts that directly give markup.
* `Body.handoffs_omit_attributes`: what handoffs list, and which components they miss.
-/

namespace TsxLint

namespace Node

/-! ### Markup inside of markup -/

/-- A part of an expression or of markup that it directly gives. -/
inductive GivesMarkup (n part : Node) : Prop
  | parenthesized (hpart : part ∈ n.children) (hkind : n.kind = .parenthesizedExpression)
      (hrole : part.role = .expression)
  | branch (hpart : part ∈ n.children) (hkind : n.kind = .conditionalExpression)
      (hrole : part.role = .consequent ∨ part.role = .alternate)
  | operand (hpart : part ∈ n.children) {operator : LogicalOperator}
      (hkind : n.kind = .logicalExpression operator)
      (hrole : part.role = .left ∨ part.role = .right)
  | child (hpart : part ∈ n.children) (hkind : n.isJsx = true) (hrole : part.role = .child)
  | contained (hpart : part ∈ n.children) (hkind : n.kind = .jsxExpressionContainer)
      (hrole : part.role = .expression)

/-- The way from an element through its opening to an attribute and its value. -/
inductive HoldsAttribute (n part : Node) : Prop
  | opening (hpart : part ∈ n.children) {isSelfClosing : Bool}
      (hkind : n.kind = .jsxElement isSelfClosing) (hrole : part.role = .opening)
  | attribute (hpart : part ∈ n.children) (hkind : n.kind = .jsxOpeningElement)
      (hattribute : part.kind = .jsxAttribute)
  | value (hpart : part ∈ n.children) (hkind : n.kind = .jsxAttribute) (hrole : part.role = .value)

/-- A part that markup gives, directly or in an attribute. -/
def RendersMarkup (n part : Node) : Prop := n.GivesMarkup part ∨ n.HoldsAttribute part

/-- Whether a part directly gives markup. -/
def isMarkupPart (holder part : Node) : Bool := holder.kind.markupRoles.contains part.role

/-- Whether a part is on the way to the value of an attribute. -/
def isAttributePart (holder part : Node) : Bool :=
  match holder.kind with
  | .jsxElement _ => part.role == .opening
  | .jsxOpeningElement =>
    match part.kind with
    | .jsxAttribute => true
    | _ => false
  | .jsxAttribute => part.role == .value
  | _ => false

variable {n part m : Node}

theorem follows_isMarkupPart_iff : Follows isMarkupPart n part ↔ n.GivesMarkup part := by
  constructor
  · rintro ⟨hpart, hfollow⟩
    rw [isMarkupPart, List.contains_iff_mem] at hfollow
    cases hkind : n.kind
    case parenthesizedExpression =>
      exact .parenthesized hpart hkind
        (by simpa [hkind, Kind.markupRoles, Kind.valueRoles] using hfollow)
    case conditionalExpression =>
      exact .branch hpart hkind
        (by simpa [hkind, Kind.markupRoles, Kind.valueRoles] using hfollow)
    case logicalExpression =>
      exact .operand hpart hkind
        (by simpa [hkind, Kind.markupRoles, Kind.valueRoles] using hfollow)
    case jsxElement | jsxFragment =>
      exact .child hpart (by rw [isJsx, hkind])
        (by simpa [hkind, Kind.markupRoles] using hfollow)
    case jsxExpressionContainer =>
      exact .contained hpart hkind (by simpa [hkind, Kind.markupRoles] using hfollow)
    all_goals simp [hkind, Kind.markupRoles, Kind.valueRoles] at hfollow
  · rintro (⟨hpart, hkind, hrole⟩ | ⟨hpart, hkind, hrole⟩ | ⟨hpart, hkind, hrole⟩ |
      ⟨hpart, hkind, hrole⟩ | ⟨hpart, hkind, hrole⟩)
    case child =>
      refine ⟨hpart, ?_⟩
      unfold isJsx at hkind
      split at hkind
      · simp [isMarkupPart, *, Kind.markupRoles]
      · simp [isMarkupPart, *, Kind.markupRoles]
      · cases hkind
    all_goals exact ⟨hpart, by simp [isMarkupPart, hkind, hrole, Kind.markupRoles, Kind.valueRoles]⟩

theorem follows_isMarkupPart : Follows isMarkupPart = GivesMarkup :=
  funext₂ fun _ _ => propext follows_isMarkupPart_iff

theorem follows_isAttributePart_iff : Follows isAttributePart n part ↔ n.HoldsAttribute part := by
  constructor
  · rintro ⟨hpart, hfollow⟩
    unfold isAttributePart at hfollow
    split at hfollow
    · exact .opening hpart ‹_› (by simpa using hfollow)
    · split at hfollow
      · exact .attribute hpart ‹_› ‹_›
      · cases hfollow
    · exact .value hpart ‹_› (by simpa using hfollow)
    · cases hfollow
  · rintro (⟨hpart, hkind, hrole⟩ | ⟨hpart, hkind, hrole⟩ | ⟨hpart, hkind, hrole⟩)
    all_goals exact ⟨hpart, by simp [isAttributePart, hkind, hrole]⟩

/-! ### The search -/

/-- The component that an element renders self-closing. -/
def selfClosingComponent? (n : Node) : Option String :=
  match n.kind with
  | .jsxElement true => (n.get? .opening).bind customElement?
  | _ => none

theorem selfClosingComponent?_of_ne (h : n.kind ≠ .jsxElement true) :
    n.selfClosingComponent? = none := by
  unfold selfClosingComponent?
  split
  · exact absurd ‹_› h
  · rfl

mutual

/-- The search follows the parts that directly give markup. -/
theorem selfClosing_eq : (n : Node) →
    n.selfClosing = (n.reached isMarkupPart).filterMap selfClosingComponent?
  | ⟨role, id, kind, span, children⟩ => by
    have hparts := selfClosingAt_eq ⟨role, id, kind, span, children⟩ children
    by_cases hkind : kind = .jsxElement true
    · subst hkind
      rw [selfClosing, reached, List.filterMap_cons, ← hparts, selfClosingComponent?, get?]
      cases (children.find? (·.role == .opening)).bind customElement? <;> rfl
    · rw [selfClosing, reached, List.filterMap_cons_none (selfClosingComponent?_of_ne hkind),
        ← hparts]
      · rfl
      · exact hkind

theorem selfClosingAt_eq (holder : Node) : (ns : List Node) →
    selfClosingAt holder.kind.markupRoles ns =
      (reachedFrom isMarkupPart holder ns).filterMap selfClosingComponent?
  | [] => by rw [selfClosingAt, reachedFrom, List.filterMap_nil]
  | n :: ns => by
    rw [selfClosingAt, reachedFrom, selfClosingAt_eq holder ns, List.filterMap_append]
    refine congrArg (· ++ _) ?_
    unfold isMarkupPart
    split_ifs
    · exact selfClosing_eq n
    · rfl

end

mutual

/-- What is reached from returned expressions is inside the body, in visiting order. -/
theorem flatMap_returns_sublist (follow : Node → Node → Bool) : (n : Node) →
    (n.returns.flatMap (reached follow)).Sublist n.preorder
  | ⟨role, id, kind, span, children⟩ => by
    rw [preorder]
    by_cases hkind : kind = .returnStatement
    · subst hkind
      rw [returns, preorderAll_eq_flatMap]
      refine ((List.filter_sublist.flatMap _).trans ?_).cons _
      exact List.Sublist.flatMap_right children fun n _ => reached_sublist n
    · rw [returns]
      · exact (flatMap_returnsAt_sublist follow _ children).cons _
      · exact hkind

theorem flatMap_returnsAt_sublist (follow : Node → Node → Bool) (roles : List Role) :
    (ns : List Node) → ((returnsAt roles ns).flatMap (reached follow)).Sublist (preorderAll ns)
  | [] => by
    rw [returnsAt, preorderAll]
    exact List.Sublist.refl _
  | n :: ns => by
    rw [returnsAt, preorderAll, List.flatMap_append]
    refine List.Sublist.append ?_ (flatMap_returnsAt_sublist follow roles ns)
    split_ifs
    · exact flatMap_returns_sublist follow n
    · exact List.nil_sublist _

end

/-! ### Markup in attributes -/

open Relation

/-- Markup that is rendered is given, or it is rendered behind the first attribute that holds it. -/
theorem reflTransGen_rendersMarkup_iff :
    ReflTransGen RendersMarkup n m ↔
      ReflTransGen GivesMarkup n m ∨ ∃ holder part, ReflTransGen GivesMarkup n holder ∧
        HoldsAttribute holder part ∧ ReflTransGen RendersMarkup part m := by
  constructor
  · intro h
    induction h using ReflTransGen.head_induction_on with
    | refl => exact Or.inl .refl
    | @head a b hstep hrest ih =>
      rcases hstep with hgives | hholds
      · rcases ih with ih | ⟨holder, part, hholder, hpart, hrest⟩
        · exact Or.inl (ih.head hgives)
        · exact Or.inr ⟨holder, part, hholder.head hgives, hpart, hrest⟩
      · exact Or.inr ⟨a, b, .refl, hholds, hrest⟩
  · have hmono {a b : Node} (h : ReflTransGen GivesMarkup a b) : ReflTransGen RendersMarkup a b :=
      ReflTransGen.mono (fun _ _ => Or.inl) a b h
    rintro (h | ⟨holder, part, hholder, hpart, hrest⟩)
    · exact hmono h
    · exact (hmono hholder).trans (hrest.head (Or.inr hpart))

theorem follows_rendersMarkup_iff :
    Follows (fun holder part => isMarkupPart holder part || isAttributePart holder part) n part ↔
      n.RendersMarkup part := by
  rw [RendersMarkup, ← follows_isMarkupPart_iff, ← follows_isAttributePart_iff, Follows, Follows,
    Follows, Bool.or_eq_true, and_or_left]

end Node

namespace Body

open Relation Node

/-- What is reached from the expressions that a body returns is inside the body, in visiting
order. -/
theorem flatMap_returned_sublist (follow : Node → Node → Bool) (body : Body) :
    (body.returned.flatMap (reached follow)).Sublist body.node.preorder := by
  cases body with
  | block node => exact flatMap_returns_sublist follow node
  | expression node =>
    rw [returned, List.flatMap_singleton]
    exact reached_sublist node

/-- **Handoffs omit what attributes hold.** The handoffs of a body are the components that are
rendered self-closing in the markup that its returned expressions give, each once, in the order in
which they first occur. A component that the body renders self-closing with attributes counted in is
missing exactly if it is only reached behind an attribute. -/
theorem handoffs_omit_attributes (body : Body) :
    (∃ markup : List Node, markup.Sublist body.node.preorder ∧
      (∀ m, m ∈ markup ↔ ∃ e ∈ body.returned, ReflTransGen GivesMarkup e m) ∧
      ListsFirsts (markup.filterMap selfClosingComponent?) (handoffs (some body))) ∧
    ∀ name, (∃ e ∈ body.returned, ∃ m, ReflTransGen RendersMarkup e m ∧
        m.selfClosingComponent? = some name) ↔
      name ∈ handoffs (some body) ∨ ∃ e ∈ body.returned, ∃ holder part m,
        ReflTransGen GivesMarkup e holder ∧ HoldsAttribute holder part ∧
        ReflTransGen RendersMarkup part m ∧ m.selfClosingComponent? = some name := by
  have hmem (m : Node) : m ∈ body.returned.flatMap (reached isMarkupPart) ↔
      ∃ e ∈ body.returned, ReflTransGen GivesMarkup e m := by
    simp only [List.mem_flatMap, mem_reached_iff, follows_isMarkupPart]
  have hfirsts : ListsFirsts
      ((body.returned.flatMap (reached isMarkupPart)).filterMap selfClosingComponent?)
      (handoffs (some body)) := by
    rw [List.filterMap_flatMap, ← funext selfClosing_eq]
    exact ComponentGraph.dedup_listsFirsts _
  refine ⟨⟨_, flatMap_returned_sublist isMarkupPart body, hmem, hfirsts⟩, fun name => ?_⟩
  rw [hfirsts.mem_iff, List.mem_filterMap]
  constructor
  · rintro ⟨e, he, m, hreach, hname⟩
    rcases reflTransGen_rendersMarkup_iff.mp hreach with
      hgives | ⟨holder, part, hholder, hpart, hrest⟩
    · exact Or.inl ⟨m, (hmem m).mpr ⟨e, he, hgives⟩, hname⟩
    · exact Or.inr ⟨e, he, holder, part, m, hholder, hpart, hrest, hname⟩
  · rintro (⟨m, hm, hname⟩ | ⟨e, he, holder, part, m, hholder, hpart, hrest, hname⟩)
    · obtain ⟨e, he, hgives⟩ := (hmem m).mp hm
      exact ⟨e, he, m, reflTransGen_rendersMarkup_iff.mpr (Or.inl hgives), hname⟩
    · exact ⟨e, he, m, reflTransGen_rendersMarkup_iff.mpr
        (Or.inr ⟨holder, part, hholder, hpart, hrest⟩), hname⟩

end Body

namespace Model

/-- The tree of `const A = () => <Card header={<Title />} />;`. -/
private def headerMarkup : Cst :=
  ⟨"program", true, "", ⟨0, 44⟩, "", [
    ⟨"lexical_declaration", true, "", ⟨0, 44⟩, "", [
      ⟨"const", false, "kind", ⟨0, 5⟩, "const", []⟩,
      ⟨"variable_declarator", true, "", ⟨6, 43⟩, "", [
        ⟨"identifier", true, "name", ⟨6, 7⟩, "A", []⟩,
        ⟨"=", false, "", ⟨8, 9⟩, "=", []⟩,
        ⟨"arrow_function", true, "value", ⟨10, 43⟩, "", [
          ⟨"formal_parameters", true, "parameters", ⟨10, 12⟩, "()", []⟩,
          ⟨"=>", false, "", ⟨13, 15⟩, "=>", []⟩,
          ⟨"jsx_self_closing_element", true, "body", ⟨16, 43⟩, "", [
            ⟨"<", false, "", ⟨16, 17⟩, "<", []⟩,
            ⟨"identifier", true, "name", ⟨17, 21⟩, "Card", []⟩,
            ⟨"jsx_attribute", true, "attribute", ⟨22, 40⟩, "", [
              ⟨"property_identifier", true, "", ⟨22, 28⟩, "header", []⟩,
              ⟨"=", false, "", ⟨28, 29⟩, "=", []⟩,
              ⟨"jsx_expression", true, "", ⟨29, 40⟩, "", [
                ⟨"jsx_self_closing_element", true, "", ⟨30, 39⟩, "", [
                  ⟨"identifier", true, "name", ⟨31, 36⟩, "Title", []⟩]⟩]⟩]⟩,
            ⟨"/>", false, "", ⟨41, 43⟩, "/>", []⟩]⟩]⟩]⟩,
      ⟨";", false, "", ⟨43, 44⟩, ";", []⟩]⟩]⟩

/-- A component in an attribute of the returned markup is rendered self-closing, but it is no
handoff. -/
theorem header_is_no_handoff :
    ∃ f ∈ (ofCst headerMarkup).components, ∃ body, f.body? = some body ∧
      handoffs (some body) = ["Card"] ∧
      ∃ e ∈ body.returned, ∃ m, Relation.ReflTransGen Node.RendersMarkup e m ∧
        m.selfClosingComponent? = some "Title" := by
  have hfound : (ofCst headerMarkup).components.any (fun f => f.body?.any fun body =>
      handoffs (some body) == ["Card"] && body.returned.any fun e =>
        (e.reached fun holder part =>
          Node.isMarkupPart holder part || Node.isAttributePart holder part).any
            (·.selfClosingComponent? == some "Title")) = true := by
    decide +kernel
  obtain ⟨f, hf, hbody⟩ := List.any_eq_true.mp hfound
  obtain ⟨body, hbody, hboth⟩ := (Option.any_eq_true _ _).mp hbody
  obtain ⟨hhandoffs, hreturned⟩ := Bool.and_eq_true_iff.mp hboth
  obtain ⟨e, he, hreached⟩ := List.any_eq_true.mp hreturned
  obtain ⟨m, hm, htitle⟩ := List.any_eq_true.mp hreached
  refine ⟨f, hf, body, hbody, eq_of_beq hhandoffs, e, he, m, ?_, eq_of_beq htitle⟩
  exact Relation.ReflTransGen.mono (fun _ _ => Node.follows_rendersMarkup_iff.mp) e m
    (Node.mem_reached_iff.mp hm)

end Model

end TsxLint
