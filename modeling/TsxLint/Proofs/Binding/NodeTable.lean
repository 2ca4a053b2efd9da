import TsxLint.Proofs.Binding.Resolution
import TsxLint.Proofs.Lowering.Preorder

/-!
# The table of nodes

A model records a visit to each node of its file, with the nodes around it. For a lowered file these
records are a tree: each node is recorded once and under its own number, and each but the root has
the node that holds it for its parent, with a smaller number. So the way outwards from a node ends
at the root, and lying within a node is an order. The records stand in visiting order, which is the
order of the numbers unless some pattern has an early rest element.

## Main definitions

* `Model.IsTree`: the nodes of a model are recorded as the tree of its program.

## Main results

* `Model.IsTree.getLast?_ancestors`: the way outwards ends at the root.
* `Model.IsTree.isWithin_trans`, `Model.IsTree.isWithin_antisymm`: lying within is an order.
* `Model.node_table_is_tree`: all this holds of lowered files.
* `Model.nodes_in_order_unless_early_rest`: when the records follow the numbers.
-/

namespace TsxLint

namespace Model

/-! ### Trees of records -/

/-- The nodes of a model are recorded as the tree of its program, and ancestors are found by going
from parent to parent. -/
structure IsTree (m : Model) : Prop where
  /-- Every node of the program is recorded once, in visiting order. -/
  nodes : m.nodes = m.program.root.preorder
  nodup : (m.nodes.map Node.id).Nodup
  /-- The numbers stay below the number of those handed out. -/
  lt_nodeCount : ∀ n ∈ m.nodes, n.id < m.program.nodeCount
  /-- A node is found under its own number and no other. -/
  node?_eq_some_iff : ∀ id n, m.node? id = some n ↔ n ∈ m.nodes ∧ n.id = id
  root_kind : m.program.root.kind = .program
  root_id : m.program.root.id = 0
  /-- The root is the only node without a parent. -/
  parent?_eq_none_iff : ∀ n ∈ m.nodes, m.parent? n.id = none ↔ n = m.program.root
  /-- The parent of a node is the recorded node that directly holds it. -/
  parent?_eq_some_iff : ∀ n ∈ m.nodes, ∀ p,
    m.parent? n.id = some p ↔ p ∈ m.nodes ∧ n ∈ p.children
  parent_lt : ∀ id p, m.parent? id = some p → p.id < id
  ancestors_eq : ∀ id,
    m.ancestors id = ((m.parent? id).map fun p => p :: m.ancestors p.id).getD []

namespace IsTree

variable {m : Model} (h : m.IsTree)
include h

theorem ancestors_of_parent? {id : Nat} {p : Node} (hp : m.parent? id = some p) :
    m.ancestors id = p :: m.ancestors p.id := by
  rw [h.ancestors_eq, hp, Option.map_some, Option.getD_some]

theorem ancestors_of_parent?_eq_none {id : Nat} (hp : m.parent? id = none) :
    m.ancestors id = [] := by
  rw [h.ancestors_eq, hp, Option.map_none, Option.getD_none]

/-- The nodes around a node have smaller numbers. -/
theorem lt_of_mem_ancestors {id : Nat} {p : Node} (hp : p ∈ m.ancestors id) : p.id < id := by
  induction id using Nat.strongRecOn with
  | _ id ih =>
    cases hparent : m.parent? id with
    | none =>
      rw [h.ancestors_of_parent?_eq_none hparent] at hp
      cases hp
    | some q =>
      have hlt := h.parent_lt id q hparent
      rw [h.ancestors_of_parent? hparent] at hp
      rcases List.mem_cons.mp hp with rfl | hp
      · exact hlt
      · exact Nat.lt_trans (ih q.id hlt hp) hlt

/-- What is around a node around a node is around it. -/
theorem mem_ancestors_trans {id : Nat} {p q : Node} (hp : p ∈ m.ancestors id)
    (hq : q ∈ m.ancestors p.id) : q ∈ m.ancestors id := by
  induction id using Nat.strongRecOn with
  | _ id ih =>
    cases hparent : m.parent? id with
    | none =>
      rw [h.ancestors_of_parent?_eq_none hparent] at hp
      cases hp
    | some r =>
      rw [h.ancestors_of_parent? hparent] at hp ⊢
      rcases List.mem_cons.mp hp with rfl | hp
      · exact List.mem_cons_of_mem _ hq
      · exact List.mem_cons_of_mem _ (ih r.id (h.parent_lt id r hparent) hp)

/-- The nodes around a recorded node are recorded. -/
theorem mem_nodes_of_mem_ancestors {n p : Node} (hn : n ∈ m.nodes) (hp : p ∈ m.ancestors n.id) :
    p ∈ m.nodes := by
  induction hid : n.id using Nat.strongRecOn generalizing n with
  | _ id ih =>
    subst hid
    cases hparent : m.parent? n.id with
    | none =>
      rw [h.ancestors_of_parent?_eq_none hparent] at hp
      cases hp
    | some q =>
      have hq := ((h.parent?_eq_some_iff n hn q).mp hparent).1
      rw [h.ancestors_of_parent? hparent] at hp
      rcases List.mem_cons.mp hp with rfl | hp
      · exact hq
      · exact ih q.id (h.parent_lt _ q hparent) hq hp rfl

/-- Around a node around a node is what comes after it on the way outwards. -/
theorem ancestors_of_eq_append {id : Nat} {q : Node} {inner outer : List Node}
    (hid : m.ancestors id = inner ++ q :: outer) : m.ancestors q.id = outer := by
  induction inner generalizing id with
  | nil =>
    have hparent : m.parent? id = some q := by rw [parent?, hid, List.nil_append, List.head?_cons]
    rw [h.ancestors_of_parent? hparent] at hid
    exact (List.cons.inj hid).2
  | cons a inner ih =>
    have hparent : m.parent? id = some a := by rw [parent?, hid, List.cons_append, List.head?_cons]
    rw [h.ancestors_of_parent? hparent] at hid
    exact ih (List.cons.inj hid).2

/-- The way outwards from a recorded node ends at the root. -/
theorem getLast?_ancestors {n : Node} (hn : n ∈ m.nodes) :
    (n :: m.ancestors n.id).getLast? = some m.program.root := by
  -- A parent has a smaller number, and only the root has none.
  induction hid : n.id using Nat.strongRecOn generalizing n with
  | _ id ih =>
    subst hid
    cases hparent : m.parent? n.id with
    | none =>
      rw [h.ancestors_of_parent?_eq_none hparent, (h.parent?_eq_none_iff n hn).mp hparent]
      rfl
    | some p =>
      have hp := ((h.parent?_eq_some_iff n hn p).mp hparent).1
      rw [h.ancestors_of_parent? hparent, List.getLast?_cons_cons]
      exact ih p.id (h.parent_lt _ p hparent) hp rfl

omit h in
theorem isWithin_iff (inner outer : Nat) :
    m.isWithin inner outer = true ↔ inner = outer ∨ ∃ p ∈ m.ancestors inner, p.id = outer := by
  simp only [isWithin, Bool.or_eq_true, beq_iff_eq, List.any_eq_true]

theorem isWithin_trans {a b c : Nat} (hab : m.isWithin a b = true) (hbc : m.isWithin b c = true) :
    m.isWithin a c = true := by
  rw [isWithin_iff] at hab hbc ⊢
  rcases hab with rfl | ⟨p, hp, rfl⟩
  · exact hbc
  · rcases hbc with rfl | ⟨q, hq, rfl⟩
    · exact Or.inr ⟨p, hp, rfl⟩
    · exact Or.inr ⟨q, h.mem_ancestors_trans hp hq, rfl⟩

theorem le_of_isWithin {a b : Nat} (hab : m.isWithin a b = true) : b ≤ a := by
  rw [isWithin_iff] at hab
  rcases hab with rfl | ⟨p, hp, rfl⟩
  · exact Nat.le_refl a
  · exact Nat.le_of_lt (h.lt_of_mem_ancestors hp)

theorem isWithin_antisymm {a b : Nat} (hab : m.isWithin a b = true) (hba : m.isWithin b a = true) :
    a = b :=
  Nat.le_antisymm (h.le_of_isWithin hba) (h.le_of_isWithin hab)

/-- Every recorded node lies within the root. -/
theorem isWithin_root {n : Node} (hn : n ∈ m.nodes) : m.isWithin n.id 0 = true := by
  rw [isWithin_iff, ← h.root_id]
  have hroot := List.mem_of_getLast? (h.getLast?_ancestors hn)
  rcases List.mem_cons.mp hroot with heq | hroot
  · exact Or.inl (congrArg Node.id heq.symm)
  · exact Or.inr ⟨_, hroot, rfl⟩

end IsTree

/-! ### Lowered files -/

variable {c : Cst}

variable (c) in
/-- The nodes of a lowered file are recorded in visiting order. -/
theorem nodes_ofCst : (ofCst c).nodes = (Program.ofCst c).root.preorder := by
  rw [← Node.map_fst_paths [], ← places_ofCst, List.map_map]
  rfl

theorem exists_place_of_mem_nodes {n : Node} (hn : n ∈ (ofCst c).nodes) :
    ∃ outer, (n, outer) ∈ (Program.ofCst c).root.paths [] := by
  rw [nodes_ofCst, ← Node.map_fst_paths []] at hn
  obtain ⟨⟨n', outer⟩, hplace, rfl⟩ := List.mem_map.mp hn
  exact ⟨outer, hplace⟩

theorem mem_nodes_of_place {n : Node} {outer : List Node}
    (hplace : (n, outer) ∈ (Program.ofCst c).root.paths []) : n ∈ (ofCst c).nodes := by
  rw [nodes_ofCst]
  exact Node.mem_preorder_of_mem_paths hplace

/-- The ancestors of a node are the nodes around its place. -/
theorem ancestors_of_place {n : Node} {outer : List Node}
    (hplace : (n, outer) ∈ (Program.ofCst c).root.paths []) :
    (ofCst c).ancestors n.id = outer := by
  rw [← places_ofCst] at hplace
  obtain ⟨v, hv, heq⟩ := List.mem_map.mp hplace
  obtain ⟨rfl, rfl⟩ := Prod.mk.inj heq
  rw [ancestors, visit?_of_mem hv]
  rfl

/-- Whatever has a parent is recorded, in a place inside the place of its parent. -/
theorem exists_place_of_parent? {id : Nat} {p : Node} (hp : (ofCst c).parent? id = some p) :
    ∃ n outer, n.id = id ∧ (n, p :: outer) ∈ (Program.ofCst c).root.paths [] := by
  rw [parent?, ancestors] at hp
  cases hvisit : (ofCst c).visit? id with
  | none =>
    rw [hvisit] at hp
    cases hp
  | some v =>
    rw [hvisit, Option.map_some, Option.getD_some] at hp
    obtain ⟨outer, houter⟩ := List.head?_eq_some_iff.mp hp
    have hplace := place_mem_of_mem_visits (List.mem_of_find?_eq_some hvisit)
    rw [Visit.place, houter] at hplace
    exact ⟨v.node, outer, by simpa using List.find?_some hvisit, hplace⟩

variable (c) in
/-- The nodes of a lowered file are recorded as a tree. -/
theorem isTree_ofCst : (ofCst c).IsTree where
  nodes := nodes_ofCst c
  nodup := by
    rw [nodes_ofCst]
    exact Program.ofCst_nodup c
  lt_nodeCount := by
    intro n hn
    rw [nodes_ofCst] at hn
    exact ((Program.ofCst_numbered c).bounds n
      (Node.mem_preorderAll.mpr ⟨_, List.mem_singleton_self _, hn⟩)).2
  node?_eq_some_iff := by
    intro id n
    constructor
    · intro hn
      obtain ⟨v, hv, rfl⟩ := Option.map_eq_some_iff.mp hn
      exact ⟨List.mem_map_of_mem (List.mem_of_find?_eq_some hv), by simpa using List.find?_some hv⟩
    · rintro ⟨hn, rfl⟩
      obtain ⟨v, hv, rfl⟩ := List.mem_map.mp hn
      rw [node?, visit?_of_mem hv, Option.map_some]
  root_kind := rfl
  root_id := rfl
  parent?_eq_none_iff := by
    intro n hn
    obtain ⟨outer, hplace⟩ := exists_place_of_mem_nodes hn
    constructor
    · intro hnone
      rw [parent?, ancestors_of_place hplace, List.head?_eq_none_iff] at hnone
      rcases Node.parent_mem_paths _ hplace with heq | ⟨p, rest, houter, -, -⟩
      · exact congrArg Prod.fst heq
      · rw [hnone] at houter
        cases houter
    · rintro rfl
      have hroot : ((Program.ofCst c).root, []) ∈ (Program.ofCst c).root.paths [] := by
        rw [Node.paths_eq]
        exact List.mem_cons_self
      rw [parent?]
      exact congrArg List.head? (ancestors_of_place hroot)
  parent?_eq_some_iff := by
    intro n hn p
    constructor
    · intro hp
      obtain ⟨outer, hplace⟩ := exists_place_of_mem_nodes hn
      rw [parent?, ancestors_of_place hplace] at hp
      obtain ⟨rest, rfl⟩ := List.head?_eq_some_iff.mp hp
      obtain ⟨hchild, hparent⟩ := Node.parent_mem_paths_root hplace
      exact ⟨mem_nodes_of_place hparent, hchild⟩
    · rintro ⟨hp, hchild⟩
      obtain ⟨rest, hparent⟩ := exists_place_of_mem_nodes hp
      rw [parent?, ancestors_of_place (Node.child_mem_paths _ hparent hchild), List.head?_cons]
  parent_lt := by
    intro id p hp
    obtain ⟨n, outer, rfl, hplace⟩ := exists_place_of_parent? hp
    obtain ⟨hchild, hparent⟩ := Node.parent_mem_paths_root hplace
    have hlaid := Program.ofCst_laid c p (Node.mem_preorder_of_mem_paths hparent)
    exact hlaid.lt_of_mem_children hchild
  ancestors_eq := by
    intro id
    cases hp : (ofCst c).parent? id with
    | none => exact List.head?_eq_none_iff.mp hp
    | some p =>
      obtain ⟨n, outer, rfl, hplace⟩ := exists_place_of_parent? hp
      rw [ancestors_of_place hplace, Option.map_some, Option.getD_some,
        ancestors_of_place (Node.parent_mem_paths_root hplace).2]

theorem nodup_nodes : (ofCst c).nodes.Nodup := (isTree_ofCst c).nodup.of_map _

/-- **The table of nodes is a tree.** The nodes of a lowered file are recorded once each, under
distinct numbers below the number of those handed out; the root has number zero and alone has no
parent; any other node has the node that holds it for its parent, recorded and with a smaller
number. So the way outwards ends at the root, and lying within is an order with the root at its
top. -/
theorem node_table_is_tree (c : Cst) :
    (ofCst c).IsTree ∧
    (∀ n ∈ (ofCst c).nodes,
      (n :: (ofCst c).ancestors n.id).getLast? = some (ofCst c).program.root) ∧
    (∀ id, (ofCst c).isWithin id id = true) ∧
    (∀ i j k, (ofCst c).isWithin i j = true → (ofCst c).isWithin j k = true →
      (ofCst c).isWithin i k = true) ∧
    (∀ i j, (ofCst c).isWithin i j = true → (ofCst c).isWithin j i = true → i = j) ∧
    (∀ n ∈ (ofCst c).nodes, (ofCst c).isWithin n.id 0 = true) := by
  have htree := isTree_ofCst c
  refine ⟨htree, fun n hn => htree.getLast?_ancestors hn, fun id => ?_,
    fun i j k => htree.isWithin_trans, fun i j => htree.isWithin_antisymm,
    fun n hn => htree.isWithin_root hn⟩
  rw [IsTree.isWithin_iff]
  exact Or.inl rfl

/-- **Visiting order is number order unless a rest element is early.** Of two nodes of a lowered
file the one that is visited first has the smaller number, unless the other is inside a rest element
that is numbered before the part of its pattern that the first is inside. So the numbers increase
from visit to visit exactly if no pattern of the file has such a rest element. -/
theorem nodes_in_order_unless_early_rest (c : Cst) :
    (ofCst c).nodes.Pairwise (fun a b => a.id < b.id ∨
      b.id < a.id ∧ ∃ n ∈ (ofCst c).nodes, ∃ part rest, n.EarlyRest part rest ∧
        a ∈ part.preorder ∧ b ∈ rest.preorder) ∧
    (((ofCst c).nodes.map Node.id).Pairwise (· < ·) ↔
      ∀ n ∈ (ofCst c).nodes, ∀ part rest, ¬ n.EarlyRest part rest) := by
  rw [nodes_ofCst, List.pairwise_map]
  exact ⟨Node.pairwise_inOrder (Program.ofCst_laid c), Node.pairwise_lt_iff (Program.ofCst_laid c)⟩

/-- The tree of `[...a, b] = c;`. -/
private def earlyRestAssignment : Cst :=
  ⟨"program", true, "", ⟨0, 14⟩, "[...a, b] = c;", [
    ⟨"expression_statement", true, "", ⟨0, 14⟩, "[...a, b] = c;", [
      ⟨"assignment_expression", true, "", ⟨0, 13⟩, "[...a, b] = c", [
        ⟨"array_pattern", true, "left", ⟨0, 9⟩, "[...a, b]", [
          ⟨"[", false, "", ⟨0, 1⟩, "[", []⟩,
          ⟨"rest_pattern", true, "", ⟨1, 5⟩, "...a", [
            ⟨"...", false, "", ⟨1, 4⟩, "...", []⟩,
            ⟨"identifier", true, "", ⟨4, 5⟩, "a", []⟩]⟩,
          ⟨",", false, "", ⟨5, 6⟩, ",", []⟩,
          ⟨"identifier", true, "", ⟨7, 8⟩, "b", []⟩,
          ⟨"]", false, "", ⟨8, 9⟩, "]", []⟩]⟩,
        ⟨"=", false, "", ⟨10, 11⟩, "=", []⟩,
        ⟨"identifier", true, "right", ⟨12, 13⟩, "c", []⟩]⟩,
      ⟨";", false, "", ⟨13, 14⟩, ";", []⟩]⟩]⟩

/-- A rest element that is not written last is numbered before the element that is visited first. -/
theorem early_rest_is_visited_last :
    (ofCst earlyRestAssignment).nodes.map Node.id = [0, 1, 2, 3, 6, 4, 5, 7] ∧
      ¬ ((ofCst earlyRestAssignment).nodes.map Node.id).Pairwise (· < ·) := by
  decide +kernel

end Model

end TsxLint
