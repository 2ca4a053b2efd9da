import TsxLint.Proofs.Binding.NodeTable
import TsxLint.Proofs.Lowering.Forms

/-!
# Spans along the tree

Lowering leaves out wrappers, makes nodes that stand for nothing of their own in the source and
flattens lists, so a typed node need not hold the nodes that its concrete node holds. Its span holds
theirs all the same, as long as the ranges of the concrete tree nest and the default value of a
parameter follows its pattern. Each form of a step makes nodes within the place that the step has,
and the place of a part is within that of its node.

## Main definitions

* `Cst.InPlace`: a concrete node whose range holds those of its children.
* `Step.place?`: the range that a step makes its nodes in.
* `Node.Nests`, `Model.SpansNest`: nodes whose spans hold those of their parts.

## Main results

* `Program.ofCst_nests`: every node of a lowered file nests.
* `Model.spans_nest`: spans nest along the tree.
-/

namespace TsxLint

namespace Span

variable {s t u : Span}

theorem contains_iff : s.contains t = true ↔ s.start ≤ t.start ∧ t.stop ≤ s.stop := by
  simp [contains]

theorem contains_self (s : Span) : s.contains s = true := by simp [contains]

theorem contains_trans (hst : s.contains t = true) (htu : t.contains u = true) :
    s.contains u = true := by
  rw [contains_iff] at *
  omega

end Span

/-! ### Concrete trees -/

namespace Cst

mutual

/-- The concrete nodes of a tree in preorder. -/
def preorder : Cst → List Cst
  | ⟨kind, isNamed, field, span, text, children⟩ =>
    ⟨kind, isNamed, field, span, text, children⟩ :: preorderAll children

/-- The concrete nodes of several trees. -/
def preorderAll : List Cst → List Cst
  | [] => []
  | c :: cs => preorder c ++ preorderAll cs

end

theorem preorder_eq (c : Cst) : c.preorder = c :: c.children.flatMap preorder := by
  have hall (cs : List Cst) : preorderAll cs = cs.flatMap preorder := by
    induction cs with
    | nil => rfl
    | cons c cs ih => rw [preorderAll, List.flatMap_cons, ih]
  obtain ⟨kind, isNamed, field, span, text, children⟩ := c
  rw [preorder, hall]

theorem mem_preorder_self (c : Cst) : c ∈ c.preorder := by
  rw [preorder_eq]
  exact List.mem_cons_self

theorem mem_preorder_of_mem_children {c child d : Cst} (hchild : child ∈ c.children)
    (hd : d ∈ child.preorder) : d ∈ c.preorder := by
  rw [preorder_eq]
  exact List.mem_cons_of_mem c (List.mem_flatMap.mpr ⟨child, hchild, hd⟩)

/-- A concrete node whose range is one, and holds those of its children; if it is a parameter with a
default value, then the pattern neither starts nor ends after the default value. -/
structure InPlace (c : Cst) : Prop where
  range : c.span.start ≤ c.span.stop
  inside : ∀ child ∈ c.children, c.span.contains child.span = true
  default : ∀ d ∈ c.default?, d.1.tree.span.start ≤ d.2.tree.span.start ∧
    d.1.tree.span.stop ≤ d.2.tree.span.stop

instance (c : Cst) : Decidable c.InPlace :=
  decidable_of_iff (c.span.start ≤ c.span.stop ∧
      (∀ child ∈ c.children, c.span.contains child.span = true) ∧
      ∀ d ∈ c.default?, d.1.tree.span.start ≤ d.2.tree.span.start ∧
        d.1.tree.span.stop ≤ d.2.tree.span.stop)
    ⟨fun h => ⟨h.1, h.2.1, h.2.2⟩, fun h => ⟨h.range, h.inside, h.default⟩⟩

/-- A concrete tree all of whose nodes are in place. -/
def AllInPlace (c : Cst) : Prop := ∀ d ∈ c.preorder, d.InPlace

instance (c : Cst) : Decidable c.AllInPlace := inferInstanceAs (Decidable (∀ _ ∈ _, _))

theorem InPlace.contains_kid {c : Cst} (h : c.InPlace) {k : Kid} (hk : k ∈ c.kids) :
    c.span.contains k.tree.span = true :=
  h.inside _ (List.mem_of_getElem? (getElem?_of_mem_kids hk))

namespace AllInPlace

variable {c : Cst} (h : c.AllInPlace)
include h

theorem self : c.InPlace := h c c.mem_preorder_self

theorem child {d : Cst} (hd : d ∈ c.children) : d.AllInPlace :=
  fun e he => h e (mem_preorder_of_mem_children hd he)

theorem range_kid {k : Kid} (hk : k ∈ c.kids) : k.tree.span.start ≤ k.tree.span.stop :=
  (h.child (List.mem_of_getElem? (getElem?_of_mem_kids hk))).self.range

end AllInPlace

theorem mem_kids_of_default? {c : Cst} {pattern value : Kid}
    (h : c.default? = some (pattern, value)) : pattern ∈ c.kids ∧ value ∈ c.kids := by
  obtain ⟨-, hpattern, hvalue⟩ := default?_eq_some_iff.mp h
  exact ⟨mem_kids_of_or_firstNamed? hpattern, mem_kids_of_field? hvalue⟩

end Cst

/-! ### The place of a step -/

namespace Step

/-- The range that a step for a concrete node makes its nodes in. -/
def place? (c : Cst) : Step → Option Span
  | .node _ _ span _ => some span
  | .child _ index _ => (c.children[index]?).map Cst.span
  | .lost _ => none

variable {c : Cst}

theorem place?_as {k : Kid} (hk : k ∈ c.kids) (role : Role) (goal : Goal) :
    (k.as role goal).place? c = some k.tree.span := by
  rw [Kid.as, place?, Cst.getElem?_of_mem_kids hk, Option.map_some]

namespace Planned

variable {role : Role} {kind : Kind} {span : Span} {parts : List Step}

/-- A step makes its nodes within the concrete node that it is planned for. -/
theorem contains_place {s : Step} (hs : s.Planned c) (hc : c.InPlace) {place : Span}
    (hplace : s.place? c = some place) : c.span.contains place = true := by
  cases hs with
  | child role index goal =>
    obtain ⟨d, hd, rfl⟩ := Option.map_eq_some_iff.mp hplace
    exact hc.inside d (List.mem_of_getElem? hd)
  | lost steps => cases hplace
  | here hparts hparams =>
    cases hplace
    exact c.span.contains_self
  | leaf hk =>
    cases hplace
    exact hc.contains_kid hk
  | around hk hgoal =>
    cases hplace
    exact hc.contains_kid hk
  | naming hk =>
    cases hplace
    exact hc.contains_kid hk
  | withDefault hdefault =>
    cases hplace
    obtain ⟨hpattern, hvalue⟩ := Cst.mem_kids_of_default? hdefault
    have hstart := Span.contains_iff.mp (hc.contains_kid hpattern)
    have hstop := Span.contains_iff.mp (hc.contains_kid hvalue)
    exact Span.contains_iff.mpr ⟨hstart.1, hstop.2⟩

/-- The range of a node is one. -/
theorem range (hs : (Step.node role kind span parts).Planned c) (hc : c.AllInPlace) :
    span.start ≤ span.stop := by
  cases hs with
  | here hparts hparams => exact hc.self.range
  | leaf hk => exact hc.range_kid hk
  | around hk hgoal => exact hc.range_kid hk
  | naming hk => exact hc.range_kid hk
  | withDefault hdefault =>
    have hvalue := hc.range_kid (Cst.mem_kids_of_default? hdefault).2
    exact Nat.le_trans (hc.self.default _ hdefault).1 hvalue

/-- The parts of a node are made within it. -/
theorem contains_place_part (hs : (Step.node role kind span parts).Planned c) (hc : c.InPlace)
    {s : Step} (hpart : s ∈ parts) {place : Span} (hplace : s.place? c = some place) :
    span.contains place = true := by
  cases hs with
  | here hparts hparams => exact (hparts s hpart).contains_place hc hplace
  | leaf hk => cases hpart
  | around hk hgoal =>
    obtain rfl := List.mem_singleton.mp hpart
    rw [place?_as hk] at hplace
    cases hplace
    exact Span.contains_self _
  | naming hk =>
    obtain rfl := List.mem_singleton.mp hpart
    cases hplace
    exact Span.contains_self _
  | withDefault hdefault =>
    obtain ⟨hpattern, hvalue⟩ := Cst.mem_kids_of_default? hdefault
    obtain ⟨hstart, hstop⟩ := hc.default _ hdefault
    rcases List.mem_pair.mp hpart with rfl | rfl
    · rw [place?_as hpattern] at hplace
      cases hplace
      exact Span.contains_iff.mpr ⟨Nat.le_refl _, hstop⟩
    · rw [place?_as hvalue] at hplace
      cases hplace
      exact Span.contains_iff.mpr ⟨hstart, Nat.le_refl _⟩

end Planned

end Step

/-! ### Lowered files -/

/-- A node with a span that is a range within another. -/
structure Node.LiesIn (n : Node) (outer : Span) : Prop where
  range : n.span.start ≤ n.span.stop
  inside : outer.contains n.span = true

theorem Node.LiesIn.mono {n : Node} {inner outer : Span} (h : n.LiesIn inner)
    (hinner : outer.contains inner = true) : n.LiesIn outer :=
  ⟨h.range, Span.contains_trans hinner h.inside⟩

/-- A node whose parts lie in it. -/
def Node.Nests (n : Node) : Prop := ∀ child ∈ n.children, child.LiesIn n.span

/-- Lowering a concrete tree that is in place gives nodes that lie in it and nest. -/
theorem nests_invariant : LoweringInvariant
    (fun c _ n => c.AllInPlace → n.LiesIn c.span ∧ ∀ m ∈ n.preorder, m.Nests)
    (fun c s n => s.Planned c → c.AllInPlace →
      (∃ place, s.place? c = some place ∧ n.LiesIn place) ∧ ∀ m ∈ n.preorder, m.Nests) where
  node := by
    intro c role id kind span parts children hparts hs hc
    refine ⟨⟨span, rfl, hs.range hc, span.contains_self⟩, ?_⟩
    refine Node.forall_mem_preorder.mpr ⟨fun child hchild => ?_, fun child hchild => ?_⟩
    · obtain ⟨s, hs', hn⟩ := hparts child hchild
      obtain ⟨⟨place, hplace, hlies⟩, -⟩ := hn (hs.allFit_parts s hs').1 hc
      exact hlies.mono (hs.contains_place_part hc.self hs' hplace)
    · obtain ⟨s, hs', hn⟩ := hparts child hchild
      exact (hn (hs.allFit_parts s hs').1 hc).2
  child := by
    intro c role index goal child n hchild hn hs hc
    obtain ⟨hlies, hnests⟩ := hn (hc.child (List.mem_of_getElem? hchild))
    exact ⟨⟨child.span, by rw [Step.place?, hchild, Option.map_some], hlies⟩, hnests⟩
  plan := by
    intro c goal role n s hs hn hc
    have hplanned := (Plan.allFit_steps goal s hs).1
    obtain ⟨⟨place, hplace, hlies⟩, hnests⟩ := hn hplanned hc
    exact ⟨hlies.mono (hplanned.contains_place hc.self hplace), hnests⟩

/-- Every node of a lowered file nests, if the concrete tree is in place. -/
theorem Program.ofCst_nests {c : Cst} (hc : c.AllInPlace) :
    ∀ n ∈ (Program.ofCst c).root.preorder, n.Nests := by
  refine Node.forall_mem_preorder.mpr ⟨fun child hchild => ?_, fun child hchild => ?_⟩
  · exact (nests_invariant.lower c child hchild hc).1
  · exact (nests_invariant.lower c child hchild hc).2

namespace Model

/-- The spans of a model nest along the tree of its nodes. -/
structure SpansNest (m : Model) : Prop where
  /-- The span of a node other than the root is a range within that of its parent. -/
  parent : ∀ n ∈ m.nodes, n ≠ m.program.root → n.span.start ≤ n.span.stop ∧
    ∃ p, m.parent? n.id = some p ∧ p.span.contains n.span = true
  /-- What lies within a node has its span within that of the node. -/
  within : ∀ a ∈ m.nodes, ∀ b ∈ m.nodes, m.isWithin a.id b.id = true →
    b.span.contains a.span = true

namespace IsTree

variable {m : Model} (h : m.IsTree) (hnests : ∀ n ∈ m.nodes, n.Nests)
include h hnests

theorem liesIn_parent {n p : Node} (hn : n ∈ m.nodes) (hp : m.parent? n.id = some p) :
    n.LiesIn p.span := by
  obtain ⟨hmem, hchild⟩ := (h.parent?_eq_some_iff n hn p).mp hp
  exact hnests p hmem n hchild

/-- The nodes around a node hold its span. -/
theorem contains_of_mem_ancestors {n p : Node} (hn : n ∈ m.nodes) (hp : p ∈ m.ancestors n.id) :
    p.span.contains n.span = true := by
  induction hid : n.id using Nat.strongRecOn generalizing n with
  | _ id ih =>
    subst hid
    cases hparent : m.parent? n.id with
    | none =>
      rw [h.ancestors_of_parent?_eq_none hparent] at hp
      cases hp
    | some q =>
      have hinside := (h.liesIn_parent hnests hn hparent).inside
      rw [h.ancestors_of_parent? hparent] at hp
      rcases List.mem_cons.mp hp with rfl | hp
      · exact hinside
      · have hq := ((h.parent?_eq_some_iff n hn q).mp hparent).1
        exact Span.contains_trans (ih q.id (h.parent_lt _ q hparent) hq hp rfl) hinside

/-- Where the nodes nest, their spans do. -/
theorem spansNest : m.SpansNest where
  parent := by
    intro n hn hne
    cases hp : m.parent? n.id with
    | none => exact absurd ((h.parent?_eq_none_iff n hn).mp hp) hne
    | some p =>
      have hlies := h.liesIn_parent hnests hn hp
      exact ⟨hlies.range, p, rfl, hlies.inside⟩
  within := by
    intro a ha b hb hab
    rcases (isWithin_iff _ _).mp hab with heq | ⟨q, hq, hqb⟩
    · obtain rfl : a = b := List.inj_on_of_nodup_map h.nodup ha hb heq
      exact a.span.contains_self
    · have hmem := h.mem_nodes_of_mem_ancestors ha hq
      obtain rfl : q = b := List.inj_on_of_nodup_map h.nodup hmem hb hqb
      exact h.contains_of_mem_ancestors hnests ha hq

end IsTree

/-- **Spans nest along the tree.** Take a concrete tree in which the range of each node holds those
of its children and no default value of a parameter starts or ends before its pattern; that holds
where siblings stand in source order and default values come after patterns. Then every recorded
node other than the root has a span that is a range within the span of its parent, and what lies
within a node has its span within that of the node. -/
theorem spans_nest (c : Cst) (hc : c.AllInPlace) : (ofCst c).SpansNest := by
  refine (isTree_ofCst c).spansNest fun n hn => ?_
  rw [nodes_ofCst] at hn
  exact Program.ofCst_nests hc n hn

/-- The tree of `(a = 1) => b`. -/
private def defaultParameter : Cst :=
  ⟨"program", true, "", ⟨0, 12⟩, "(a = 1) => b", [
    ⟨"expression_statement", true, "", ⟨0, 12⟩, "(a = 1) => b", [
      ⟨"arrow_function", true, "", ⟨0, 12⟩, "(a = 1) => b", [
        ⟨"formal_parameters", true, "parameters", ⟨0, 7⟩, "(a = 1)", [
          ⟨"(", false, "", ⟨0, 1⟩, "(", []⟩,
          ⟨"required_parameter", true, "", ⟨1, 6⟩, "a = 1", [
            ⟨"identifier", true, "pattern", ⟨1, 2⟩, "a", []⟩,
            ⟨"=", false, "", ⟨3, 4⟩, "=", []⟩,
            ⟨"number", true, "value", ⟨5, 6⟩, "1", []⟩]⟩,
          ⟨")", false, "", ⟨6, 7⟩, ")", []⟩]⟩,
        ⟨"=>", false, "", ⟨8, 10⟩, "=>", []⟩,
        ⟨"identifier", true, "body", ⟨11, 12⟩, "b", []⟩]⟩]⟩]⟩

/-- A tree with a default value in place, and the spans of its nodes, among them the parameter, its
pattern with the default value, and the two parts of that pattern. -/
theorem spans_nest_of_default_parameter :
    defaultParameter.AllInPlace ∧ (ofCst defaultParameter).SpansNest ∧
      (ofCst defaultParameter).nodes.map Node.span =
        [⟨0, 12⟩, ⟨0, 12⟩, ⟨0, 12⟩, ⟨1, 6⟩, ⟨1, 6⟩, ⟨1, 2⟩, ⟨5, 6⟩, ⟨11, 12⟩] :=
  ⟨by decide +kernel, spans_nest defaultParameter (by decide +kernel), by decide +kernel⟩

end Model

end TsxLint
