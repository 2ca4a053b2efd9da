import Mathlib.Data.List.Pairwise
import TsxLint.Proofs.Lowering.Plans

/-!
# Number order and visiting order

Carrying out a plan numbers a node before its parts and the parts one after the other. Parts are
visited in the order in which they were numbered, but for a rest element: it is visited after the
other parts of its pattern, also where it is written before one of them. So a walk meets the nodes
of a lowered file in the order of their numbers unless some pattern has such a rest element.

## Main definitions

* `Node.Before`: everything inside a node has a smaller number than everything inside another.
* `Node.Laid`: a node whose parts were numbered after it and one after the other.
* `Node.EarlyRest`: a rest element that is numbered before another part of its pattern.

## Main results

* `Program.ofCst_laid`: every node of a lowered file is laid.
* `Node.pairwise_inOrder`: two nodes are visited in the order of their numbers, unless the second is
  in an early rest element and the first in a part that it precedes.
* `Node.pairwise_lt_iff`: a walk follows the numbers exactly if no rest element is early.
-/

namespace TsxLint

namespace Node

/-! ### Everything inside a node -/

theorem preorder_eq (n : Node) : n.preorder = n :: preorderAll n.children := by
  obtain ⟨role, id, kind, span, children⟩ := n
  rw [preorder]

theorem mem_preorder_self (n : Node) : n ∈ n.preorder := by
  rw [preorder_eq]
  exact List.mem_cons_self

theorem mem_preorderAll {m : Node} {ns : List Node} :
    m ∈ preorderAll ns ↔ ∃ n ∈ ns, m ∈ n.preorder := by
  rw [preorderAll_eq_flatMap, List.mem_flatMap]

mutual

/-- What is inside a node is visited in the same order from the outside. -/
theorem preorder_sublist_of_mem {m : Node} : (n : Node) → m ∈ n.preorder →
    m.preorder.Sublist n.preorder
  | ⟨role, id, kind, span, children⟩, hm => by
    rw [preorder] at hm ⊢
    rcases List.mem_cons.mp hm with rfl | hm
    · rw [preorder]
    · exact (preorder_sublist_of_mem_all children hm).cons _

theorem preorder_sublist_of_mem_all {m : Node} : (ns : List Node) → m ∈ preorderAll ns →
    m.preorder.Sublist (preorderAll ns)
  | [], hm => by simp [preorderAll] at hm
  | n :: ns, hm => by
    rw [preorderAll] at hm ⊢
    rcases List.mem_append.mp hm with hm | hm
    · exact (preorder_sublist_of_mem n hm).trans (List.sublist_append_left _ _)
    · exact (preorder_sublist_of_mem_all ns hm).trans (List.sublist_append_right _ _)

end

/-! ### Laid nodes -/

/-- Everything inside the first node has a smaller number than everything inside the second. -/
def Before (p q : Node) : Prop := ∀ a ∈ p.preorder, ∀ b ∈ q.preorder, a.id < b.id

/-- A node that was numbered before everything inside it, and whose parts were numbered one after
the other before they were arranged. -/
structure Laid (n : Node) : Prop where
  lt : ∀ m ∈ preorderAll n.children, n.id < m.id
  parts : ∃ parts : List Node, n.children = Step.arrange parts ∧ parts.Pairwise Before

theorem Laid.lt_of_mem_children {n c : Node} (h : n.Laid) (hc : c ∈ n.children) : n.id < c.id :=
  h.lt c (mem_preorderAll.mpr ⟨c, hc, c.mem_preorder_self⟩)

end Node

/-- Nodes that were numbered one after the other, and inside of which everything is laid. -/
structure LaidOut (ns : List Node) : Prop where
  apart : ns.Pairwise Node.Before
  laid : ∀ n ∈ Node.preorderAll ns, n.Laid

namespace LaidOut

theorem nil : LaidOut [] := ⟨.nil, by simp [Node.preorderAll]⟩

theorem append {lo mid hi : Nat} {ns ms : List Node} (hns : LaidOut ns) (hms : LaidOut ms)
    (hlow : Numbered lo mid ns) (hhigh : Numbered mid hi ms) : LaidOut (ns ++ ms) where
  apart := by
    refine List.pairwise_append.mpr ⟨hns.apart, hms.apart, fun p hp q hq a ha b hb => ?_⟩
    have hlt := (hlow.bounds a (Node.mem_preorderAll.mpr ⟨p, hp, ha⟩)).2
    have hge := (hhigh.bounds b (Node.mem_preorderAll.mpr ⟨q, hq, hb⟩)).1
    omega
  laid := by
    intro n hn
    rw [Node.preorderAll_eq_flatMap, List.flatMap_append, List.mem_append] at hn
    rcases hn with hn | hn
    · exact hns.laid n (by rwa [Node.preorderAll_eq_flatMap])
    · exact hms.laid n (by rwa [Node.preorderAll_eq_flatMap])

/-- A node is laid if its parts take the numbers after its own. -/
theorem node {lo hi : Nat} {parts : List Node} (h : LaidOut parts)
    (hnumbered : Numbered (lo + 1) hi parts) (role : Role) (kind : Kind) (span : Span) :
    LaidOut [⟨role, lo, kind, span, Step.arrange parts⟩] where
  apart := List.pairwise_singleton _ _
  laid := by
    have harranged : ∀ m ∈ Node.preorderAll (Step.arrange parts), m ∈ Node.preorderAll parts := by
      intro m hm
      obtain ⟨p, hp, hmp⟩ := Node.mem_preorderAll.mp hm
      exact Node.mem_preorderAll.mpr ⟨p, (Step.arrange_perm parts).mem_iff.mp hp, hmp⟩
    intro n hn
    rw [Node.preorderAll, Node.preorderAll, List.append_nil, Node.preorder] at hn
    rcases List.mem_cons.mp hn with rfl | hn
    · exact ⟨fun m hm => (hnumbered.bounds m (harranged m hm)).1, parts, rfl, h.apart⟩
    · exact h.laid n (harranged n hn)

end LaidOut

namespace Step

/-- What lowering a child does gives laid nodes. -/
def LaysOut (lower : Lowering) : Prop := ∀ goal role next, LaidOut (lower goal role next).1

mutual

theorem run_laidOut {kids : List Lowering} (hnumbers : ∀ lower ∈ kids, Numbers lower)
    (hkids : ∀ lower ∈ kids, LaysOut lower) :
    (step : Step) → (next : Nat) → LaidOut (run kids step next).1
  | .node role kind span parts, next => by
    rw [run]
    exact (runAll_laidOut hnumbers hkids parts (next + 1)).node
      (runAll_numbered hnumbers parts (next + 1)) role kind span
  | .child role index goal, next => by
    rw [run]
    cases hk : kids[index]? with
    | none => exact .nil
    | some lower => exact hkids lower (List.mem_of_getElem? hk) goal role next
  | .lost steps, next => by
    rw [run]
    exact .nil

theorem runAll_laidOut {kids : List Lowering} (hnumbers : ∀ lower ∈ kids, Numbers lower)
    (hkids : ∀ lower ∈ kids, LaysOut lower) :
    (steps : List Step) → (next : Nat) → LaidOut (runAll kids steps next).1
  | [], next => by
    rw [runAll]
    exact .nil
  | step :: steps, next => by
    rw [runAll]
    exact (run_laidOut hnumbers hkids step next).append (runAll_laidOut hnumbers hkids steps _)
      (run_numbered hnumbers step next) (runAll_numbered hnumbers steps _)

end

theorem arrange_eq_self {parts : List Node} (h : ∀ n ∈ parts, n.role ≠ .rest) :
    arrange parts = parts := by
  rw [arrange, List.filter_eq_self.mpr (by simpa using h),
    List.filter_eq_nil_iff.mpr (by simpa using h), List.append_nil]

end Step

mutual

theorem Cst.lower_laysOut : (c : Cst) → Step.LaysOut c.lower
  | ⟨kind, isNamed, field, span, text, children⟩ => by
    intro goal role next
    rw [Cst.lower]
    exact Step.runAll_laidOut (Cst.lowerEach_numbers children)
      (Cst.lowerEach_laysOut children) _ next

theorem Cst.lowerEach_laysOut : (cs : List Cst) → ∀ lower ∈ Cst.lowerEach cs, Step.LaysOut lower
  | [] => by simp [Cst.lowerEach]
  | c :: cs => by
    intro lower hmem
    rw [Cst.lowerEach] at hmem
    rcases List.mem_cons.mp hmem with rfl | hmem
    · exact Cst.lower_laysOut c
    · exact Cst.lowerEach_laysOut cs lower hmem

end

/-- Every node of a lowered file is laid. -/
theorem Program.ofCst_laid (c : Cst) : ∀ n ∈ (Program.ofCst c).root.preorder, n.Laid := by
  have hstatements : Step.arrange (c.lower (.each .statement) .statement 1).1 =
      (c.lower (.each .statement) .statement 1).1 := by
    refine Step.arrange_eq_self fun n hn => ?_
    rw [(Cst.lower_lowers c).role hn]
    decide
  have hroot := (Cst.lower_laysOut c (.each .statement) .statement 1).node
    (Cst.lower_numbers c (.each .statement) .statement 1) .root .program c.span
  rw [hstatements] at hroot
  intro n hn
  exact hroot.laid n (Node.mem_preorderAll.mpr ⟨_, List.mem_singleton_self _, hn⟩)

namespace Node

/-! ### Early rest elements -/

/-- The rest element of a pattern is numbered before another part, which is visited first. -/
structure EarlyRest (n part rest : Node) : Prop where
  part_mem : part ∈ n.children
  rest_mem : rest ∈ n.children
  part_role : part.role ≠ .rest
  rest_role : rest.role = .rest
  lt : rest.id < part.id

/-- The first node has the smaller number, or the second is in a rest element of the tree that is
numbered before the part that the first is in. -/
def InOrder (tree a b : Node) : Prop :=
  a.id < b.id ∨ b.id < a.id ∧ ∃ n ∈ tree.preorder, ∃ part rest, n.EarlyRest part rest ∧
    a ∈ part.preorder ∧ b ∈ rest.preorder

/-- Of two parts of a laid node one comes before the other, in its numbers. -/
theorem before_or_before {parts : List Node} (h : parts.Pairwise Before) {p q : Node}
    (hp : p ∈ parts) (hq : q ∈ parts) (hne : p ≠ q) : p.Before q ∨ q.Before p := by
  have hsymm : Std.Symm fun p q : Node => p.Before q ∨ q.Before p := ⟨fun _ _ h => h.symm⟩
  have heither : parts.Pairwise fun p q => p.Before q ∨ q.Before p := h.imp fun hpq => Or.inl hpq
  exact heither.forall hp hq hne

/-- The parts of a laid node are visited in the order of their numbers, unless the second is an
early rest element. -/
theorem Laid.pairwise_children {tree n : Node} (h : n.Laid) (hn : n ∈ tree.preorder) :
    n.children.Pairwise fun p q => ∀ a ∈ p.preorder, ∀ b ∈ q.preorder, tree.InOrder a b := by
  obtain ⟨parts, hchildren, hparts⟩ := h.parts
  have hwithin (keep : Node → Bool) : (parts.filter keep).Pairwise fun p q =>
      ∀ a ∈ p.preorder, ∀ b ∈ q.preorder, tree.InOrder a b :=
    (hparts.filter keep).imp fun hbefore a ha b hb => Or.inl (hbefore a ha b hb)
  rw [hchildren, Step.arrange]
  refine List.pairwise_append.mpr ⟨hwithin _, hwithin _, fun part hpart rest hrest a ha b hb => ?_⟩
  rw [List.mem_filter, bne_iff_ne] at hpart
  rw [List.mem_filter, beq_iff_eq] at hrest
  have hne : part ≠ rest := by
    rintro rfl
    exact hpart.2 hrest.2
  rcases before_or_before hparts hpart.1 hrest.1 hne with hbefore | hbefore
  · exact Or.inl (hbefore a ha b hb)
  · have hmem {p : Node} (hp : p ∈ parts) : p ∈ n.children := by
      rw [hchildren]
      exact (Step.arrange_perm parts).mem_iff.mpr hp
    have hearly : n.EarlyRest part rest :=
      ⟨hmem hpart.1, hmem hrest.1, hpart.2, hrest.2,
        hbefore rest rest.mem_preorder_self part part.mem_preorder_self⟩
    exact Or.inr ⟨hbefore b hb a ha, n, hn, part, rest, hearly, ha, hb⟩

mutual

theorem pairwise_preorder_of_subset {tree : Node} (hlaid : ∀ n ∈ tree.preorder, n.Laid) :
    (n : Node) → n.preorder ⊆ tree.preorder → n.preorder.Pairwise tree.InOrder
  | ⟨role, id, kind, span, children⟩, hsub => by
    have hn := hsub (mem_preorder_self _)
    rw [preorder] at hsub ⊢
    refine List.pairwise_cons.mpr ⟨fun m hm => Or.inl ((hlaid _ hn).lt m hm), ?_⟩
    rw [preorderAll_eq_flatMap]
    refine List.pairwise_flatMap.mpr ⟨?_, (hlaid _ hn).pairwise_children hn⟩
    exact pairwise_preorder_of_mem hlaid children fun m hm => hsub (List.mem_cons_of_mem _ hm)

theorem pairwise_preorder_of_mem {tree : Node} (hlaid : ∀ n ∈ tree.preorder, n.Laid) :
    (ns : List Node) → preorderAll ns ⊆ tree.preorder → ∀ n ∈ ns, n.preorder.Pairwise tree.InOrder
  | [], _, n, hn => by cases hn
  | m :: ns, hsub, n, hn => by
    rw [preorderAll] at hsub
    rcases List.mem_cons.mp hn with heq | hn
    · rw [heq]
      exact pairwise_preorder_of_subset hlaid m fun a ha => hsub (List.mem_append_left _ ha)
    · exact pairwise_preorder_of_mem hlaid ns (fun a ha => hsub (List.mem_append_right _ ha)) n hn

end

/-- A walk through a tree of laid nodes follows their numbers, early rest elements apart. -/
theorem pairwise_inOrder {tree : Node} (hlaid : ∀ n ∈ tree.preorder, n.Laid) :
    tree.preorder.Pairwise tree.InOrder :=
  pairwise_preorder_of_subset hlaid tree (List.Subset.refl _)

/-- A walk through a tree of laid nodes follows their numbers exactly if no rest element of the tree
is early. -/
theorem pairwise_lt_iff {tree : Node} (hlaid : ∀ n ∈ tree.preorder, n.Laid) :
    tree.preorder.Pairwise (fun a b => a.id < b.id) ↔
      ∀ n ∈ tree.preorder, ∀ part rest, ¬ n.EarlyRest part rest := by
  constructor
  · intro h n hn part rest hearly
    obtain ⟨parts, hchildren, -⟩ := (hlaid n hn).parts
    have hinside : n.children.Pairwise Before := by
      have hsub := h.sublist (preorder_sublist_of_mem tree hn)
      rw [preorder_eq, preorderAll_eq_flatMap] at hsub
      exact (List.pairwise_flatMap.mp (List.pairwise_cons.mp hsub).2).2
    rw [hchildren, Step.arrange] at hinside
    have hpart := hearly.part_mem
    have hrest := hearly.rest_mem
    rw [hchildren, (Step.arrange_perm parts).mem_iff] at hpart hrest
    -- The part is visited before the rest element, so it would have the smaller number.
    have hbefore : part.Before rest := (List.pairwise_append.mp hinside).2.2 part
      (List.mem_filter.mpr ⟨hpart, by simpa using hearly.part_role⟩) rest
      (List.mem_filter.mpr ⟨hrest, by simpa using hearly.rest_role⟩)
    have hlt := hbefore part part.mem_preorder_self rest rest.mem_preorder_self
    exact Nat.lt_asymm hlt hearly.lt
  · intro h
    refine (pairwise_inOrder hlaid).imp fun hab => ?_
    rcases hab with hlt | ⟨-, n, hn, part, rest, hearly, -, -⟩
    · exact hlt
    · exact absurd hearly (h n hn part rest)

end Node

end TsxLint
