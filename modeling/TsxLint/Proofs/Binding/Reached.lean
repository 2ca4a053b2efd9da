import Mathlib.Data.List.Chain
import Mathlib.Logic.Relation
import TsxLint.Proofs.Binding.NodeTable

/-!
# Searches through a tree

Several searches start at a node and go on from every node that they reach to some of its parts:
the one for returns to the parts of statements, the one for calls to all parts that are no
functions, the one for markup to the parts that an expression may give. What such a search reaches
is said once here: the nodes to which a chain of followed parts leads. Read outwards, these are the
nodes inside the first one with no part on the way back that is not followed.

## Main definitions

* `Node.Follows`: the step from a node to a part that is followed.
* `Node.reached`: what a search reaches, in visiting order.
* `Node.passes`: the parts that a search follows which stops at some nodes.

## Main results

* `Node.mem_reached_iff`: a search reaches what chains of followed parts lead to.
* `Model.mem_reached_iff_ancestors`: the same, read from the nodes around a node.
* `Model.filter_reached_eq`: in a lowered file, what a search finds stands in visiting order.
-/

namespace TsxLint

/-- What is kept of a list without repetitions is its members that are kept. -/
theorem eq_filter_of_sublist {α : Type} {l kept : List α} (h : kept.Sublist l) (hl : l.Nodup)
    {p : α → Bool} (hp : ∀ a ∈ l, p a = true ↔ a ∈ kept) : kept = l.filter p := by
  induction h with
  | slnil => rfl
  | @cons kept l a h ih =>
    obtain ⟨ha, hl⟩ := List.nodup_cons.mp hl
    have hdropped : ¬ p a = true := fun hpa =>
      ha (h.subset ((hp a List.mem_cons_self).mp hpa))
    rw [List.filter_cons_of_neg hdropped]
    exact ih hl fun b hb => hp b (List.mem_cons_of_mem a hb)
  | @cons_cons kept l a h ih =>
    obtain ⟨ha, hl⟩ := List.nodup_cons.mp hl
    rw [List.filter_cons_of_pos ((hp a List.mem_cons_self).mpr List.mem_cons_self)]
    refine congrArg (a :: ·) (ih hl fun b hb => (hp b (List.mem_cons_of_mem a hb)).trans ?_)
    refine ⟨fun hmem => ?_, List.mem_cons_of_mem a⟩
    rcases List.mem_cons.mp hmem with rfl | hmem
    · exact absurd hb ha
    · exact hmem

namespace Node

variable (follow : Node → Node → Bool)

/-- From a node to one of its parts, if it is followed. -/
def Follows (holder part : Node) : Prop := part ∈ holder.children ∧ follow holder part = true

mutual

/-- A node and what is reached through its parts that are followed, in visiting order. -/
def reached : Node → List Node
  | ⟨role, id, kind, span, children⟩ =>
    ⟨role, id, kind, span, children⟩ :: reachedFrom ⟨role, id, kind, span, children⟩ children

/-- What is reached through those of some parts of `holder` that are followed. -/
def reachedFrom (holder : Node) : List Node → List Node
  | [] => []
  | n :: ns => (if follow holder n then n.reached else []) ++ reachedFrom holder ns

end

variable {follow}

theorem reached_eq (n : Node) : n.reached follow = n :: reachedFrom follow n n.children := by
  obtain ⟨role, id, kind, span, children⟩ := n
  rw [reached]

theorem mem_reached_self (n : Node) : n ∈ n.reached follow := by
  rw [reached_eq]
  exact List.mem_cons_self

theorem mem_reachedFrom {holder m : Node} {ns : List Node} :
    m ∈ reachedFrom follow holder ns ↔
      ∃ n ∈ ns, follow holder n = true ∧ m ∈ n.reached follow := by
  induction ns with
  | nil => simp [reachedFrom]
  | cons n ns ih =>
    rw [reachedFrom, List.mem_append, ih]
    cases hfollow : follow holder n <;> simp [hfollow]

mutual

theorem reached_sublist : (n : Node) → (n.reached follow).Sublist n.preorder
  | ⟨role, id, kind, span, children⟩ => by
    rw [reached, preorder]
    exact (reachedFrom_sublist _ children).cons_cons _

theorem reachedFrom_sublist (holder : Node) : (ns : List Node) →
    (reachedFrom follow holder ns).Sublist (preorderAll ns)
  | [] => by rw [reachedFrom, preorderAll]
  | n :: ns => by
    rw [reachedFrom, preorderAll]
    refine List.Sublist.append ?_ (reachedFrom_sublist holder ns)
    split_ifs
    · exact reached_sublist n
    · exact List.nil_sublist _

end

mutual

theorem reflTransGen_of_mem_reached {m : Node} : (n : Node) → m ∈ n.reached follow →
    Relation.ReflTransGen (Follows follow) n m
  | ⟨role, id, kind, span, children⟩, hm => by
    rw [reached] at hm
    rcases List.mem_cons.mp hm with rfl | hm
    · exact .refl
    · obtain ⟨c, hc, hfollow, hcm⟩ := reflTransGen_of_mem_reachedFrom _ children hm
      exact .head ⟨hc, hfollow⟩ hcm

theorem reflTransGen_of_mem_reachedFrom {m : Node} (holder : Node) : (ns : List Node) →
    m ∈ reachedFrom follow holder ns →
    ∃ n ∈ ns, follow holder n = true ∧ Relation.ReflTransGen (Follows follow) n m
  | [], hm => by simp [reachedFrom] at hm
  | n :: ns, hm => by
    rw [reachedFrom, List.mem_append] at hm
    rcases hm with hm | hm
    · split_ifs at hm with hfollow
      · exact ⟨n, List.mem_cons_self, hfollow, reflTransGen_of_mem_reached n hm⟩
      · cases hm
    · obtain ⟨c, hc, hcm⟩ := reflTransGen_of_mem_reachedFrom holder ns hm
      exact ⟨c, List.mem_cons_of_mem n hc, hcm⟩

end

/-- A search reaches the nodes to which a chain of followed parts leads. -/
theorem mem_reached_iff {n m : Node} :
    m ∈ n.reached follow ↔ Relation.ReflTransGen (Follows follow) n m := by
  refine ⟨reflTransGen_of_mem_reached n, fun h => ?_⟩
  induction h using Relation.ReflTransGen.head_induction_on with
  | refl => exact mem_reached_self m
  | head hstep _ ih =>
    rw [reached_eq]
    exact List.mem_cons_of_mem _ (mem_reachedFrom.mpr ⟨_, hstep.1, hstep.2, ih⟩)

/-! ### Searches that stop -/

section

variable {stop : Node → Bool} {n m : Node}

/-- Whether a search that stops at some nodes goes on with a part. -/
def passes (stop : Node → Bool) (_holder part : Node) : Bool := !stop part

/-- Such a search stops at nothing between its start and what it reaches. -/
theorem isChain_passes {inner : List Node} :
    ((inner ++ [n]).IsChain fun part holder => passes stop holder part = true) ↔
      ∀ p ∈ inner, stop p = false := by
  induction inner with
  | nil => simp
  | cons p inner ih =>
    have hhead : ∃ q, (inner ++ [n]).head? = some q := by
      cases inner with
      | nil => exact ⟨n, rfl⟩
      | cons q inner => exact ⟨q, rfl⟩
    obtain ⟨q, hq⟩ := hhead
    rw [List.cons_append, List.isChain_cons, ih, hq, List.forall_mem_cons]
    simp [passes]

/-- Within a node at which it stops, a search reaches what it reaches from that node and does not
stop at. -/
theorem mem_reachedFrom_passes_iff (hn : stop n = true) :
    m ∈ reachedFrom (passes stop) n n.children ↔ m ∈ n.reached (passes stop) ∧ stop m = false := by
  rw [reached_eq]
  constructor
  · intro hm
    refine ⟨List.mem_cons_of_mem n hm, ?_⟩
    obtain ⟨p, -, hp, hreach⟩ := mem_reachedFrom.mp hm
    rcases (mem_reached_iff.mp hreach).cases_tail with rfl | ⟨q, -, hstep⟩
    · simpa [passes] using hp
    · simpa [passes] using hstep.2
  · rintro ⟨hm, hstop⟩
    rcases List.mem_cons.mp hm with rfl | hm
    · rw [hn] at hstop
      cases hstop
    · exact hm

end

/-! ### Searches and places -/

section

variable {root : Node}

/-- Chains of followed parts lead inwards, through the nodes on the way back. -/
theorem reflTransGen_iff_of_place {n m : Node} {outer : List Node}
    (h : (n, outer) ∈ root.paths []) :
    Relation.ReflTransGen (Follows follow) n m ↔
      ∃ inner around, (m, around) ∈ root.paths [] ∧ m :: around = inner ++ n :: outer ∧
        (inner ++ [n]).IsChain fun part holder => follow holder part = true := by
  constructor
  · intro hreach
    induction hreach with
    | refl => exact ⟨[], outer, h, rfl, List.isChain_singleton n⟩
    | @tail p c _ hstep ih =>
      obtain ⟨inner, around, hplace, heq, hchain⟩ := ih
      refine ⟨c :: inner, p :: around, child_mem_paths root hplace hstep.1,
        by rw [heq, List.cons_append], List.isChain_cons.mpr ⟨fun q hq => ?_, hchain⟩⟩
      have hhead : (inner ++ [n]).head? = some p := by
        cases inner with
        | nil => rw [(List.cons.inj heq).1]; rfl
        | cons a inner => rw [(List.cons.inj heq).1]; rfl
      obtain rfl : p = q := Option.some.inj (hhead.symm.trans hq)
      exact hstep.2
  · rintro ⟨inner, around, hplace, heq, hchain⟩
    induction inner generalizing m around with
    | nil =>
      obtain rfl := (List.cons.inj heq).1
      exact .refl
    | cons a inner ih =>
      obtain ⟨rfl, rfl⟩ := List.cons.inj heq
      obtain ⟨hhead, hchain⟩ := List.isChain_cons.mp hchain
      -- The node around the last part of the chain is the next one inwards from `n`.
      obtain ⟨p, rest, hp⟩ : ∃ p rest, inner ++ n :: outer = p :: rest :=
        List.exists_cons_of_ne_nil (by simp)
      have hfollow : follow p m = true := by
        refine hhead p ?_
        cases inner with
        | nil => rw [(List.cons.inj hp).1]; rfl
        | cons b inner => rw [(List.cons.inj hp).1]; rfl
      rw [List.append_eq, hp] at hplace
      obtain ⟨hchild, hplace⟩ := parent_mem_paths_root hplace
      exact (ih rest hplace hp.symm hchain).tail ⟨hchild, hfollow⟩

end

end Node

namespace Model

/-- Around a node on the way outwards is what comes after it. -/
theorem IsTree.ancestors_of_cons_eq_append {model : Model} (h : model.IsTree) {m q : Node}
    {inner outer : List Node} (hsplit : m :: model.ancestors m.id = inner ++ q :: outer) :
    model.ancestors q.id = outer := by
  cases inner with
  | nil =>
    obtain ⟨rfl, houter⟩ := List.cons.inj hsplit
    exact houter
  | cons a inner => exact h.ancestors_of_eq_append (List.cons.inj hsplit).2

/-- The nearest node around another one with a property is the first on the way outwards. -/
theorem IsTree.find?_ancestors_eq_some_iff {model : Model} (h : model.IsTree) {id : Nat} {q : Node}
    {p : Node → Bool} : (model.ancestors id).find? p = some q ↔
      p q = true ∧ ∃ inner, model.ancestors id = inner ++ q :: model.ancestors q.id ∧
        ∀ a ∈ inner, p a = false := by
  rw [List.find?_eq_some_iff_append]
  refine and_congr_right fun _ => exists_congr fun inner => ?_
  constructor
  · rintro ⟨outer, hsplit, hbefore⟩
    rw [h.ancestors_of_eq_append hsplit]
    exact ⟨hsplit, fun a ha => by simpa using hbefore a ha⟩
  · rintro ⟨hsplit, hbefore⟩
    exact ⟨_, hsplit, fun a ha => by simp [hbefore a ha]⟩

/-- The nearest node with a property is known by its number. -/
theorem IsTree.any_find?_ancestors_iff {model : Model} (h : model.IsTree) {m q : Node}
    (hm : m ∈ model.nodes) (hq : q ∈ model.nodes) {p : Node → Bool} :
    ((model.ancestors m.id).find? p).any (·.id == q.id) = true ↔
      (model.ancestors m.id).find? p = some q := by
  rw [Option.any_eq_true]
  refine ⟨?_, fun hfind => ⟨q, hfind, beq_self_eq_true _⟩⟩
  rintro ⟨a, ha, hid⟩
  have hmem := h.mem_nodes_of_mem_ancestors hm (List.mem_of_find?_eq_some ha)
  rw [ha, List.inj_on_of_nodup_map h.nodup hmem hq (by simpa using hid)]

variable {c : Cst} {n m : Node}

/-- One node of a lowered file is within another exactly if it is the node, or the way outwards
leads from the one to the other. -/
theorem isWithin_iff_append (hn : n ∈ (ofCst c).nodes) (hm : m ∈ (ofCst c).nodes) :
    (ofCst c).isWithin m.id n.id = true ↔
      ∃ inner, m :: (ofCst c).ancestors m.id = inner ++ n :: (ofCst c).ancestors n.id := by
  have htree := isTree_ofCst c
  rw [IsTree.isWithin_iff]
  constructor
  · rintro (hid | ⟨p, hp, hid⟩)
    · obtain rfl := List.inj_on_of_nodup_map htree.nodup hm hn hid
      exact ⟨[], rfl⟩
    · obtain rfl := List.inj_on_of_nodup_map htree.nodup
        (htree.mem_nodes_of_mem_ancestors hm hp) hn hid
      obtain ⟨inner, outer, hsplit⟩ := List.append_of_mem hp
      refine ⟨m :: inner, ?_⟩
      rw [hsplit, htree.ancestors_of_eq_append hsplit, List.cons_append]
  · rintro ⟨inner, hsplit⟩
    cases inner with
    | nil => exact Or.inl (congrArg Node.id (List.cons.inj hsplit).1)
    | cons a inner =>
      refine Or.inr ⟨n, ?_, rfl⟩
      rw [(List.cons.inj hsplit).2]
      simp

/-- What is met on the way outwards to a node is within the node. -/
theorem isWithin_of_append {inner : List Node} {p : Node}
    (hsplit : m :: (ofCst c).ancestors m.id = inner ++ n :: (ofCst c).ancestors n.id)
    (hp : p ∈ inner ++ [n]) : (ofCst c).isWithin p.id n.id = true := by
  obtain ⟨before, after, hinner⟩ := List.append_of_mem hp
  rw [List.append_cons, hinner, List.append_assoc, List.cons_append] at hsplit
  have hlast : (p :: after).getLast? = some n := by
    rw [← List.getLast?_append_cons before, ← hinner, List.getLast?_concat]
  rw [IsTree.isWithin_iff, (isTree_ofCst c).ancestors_of_cons_eq_append hsplit]
  rcases List.mem_cons.mp (List.mem_of_getLast? hlast) with rfl | hn
  · exact Or.inl rfl
  · exact Or.inr ⟨n, List.mem_append_left _ hn, rfl⟩

variable {follow : Node → Node → Bool}

/-- In a lowered file a search reaches the nodes from which the way outwards leads back to its
start, through parts that are followed only. -/
theorem mem_reached_iff_ancestors (hn : n ∈ (ofCst c).nodes) :
    m ∈ n.reached follow ↔ m ∈ (ofCst c).nodes ∧ ∃ inner,
      m :: (ofCst c).ancestors m.id = inner ++ n :: (ofCst c).ancestors n.id ∧
        (inner ++ [n]).IsChain fun part holder => follow holder part = true := by
  obtain ⟨outer, hplace⟩ := exists_place_of_mem_nodes hn
  rw [Node.mem_reached_iff, Node.reflTransGen_iff_of_place hplace, ancestors_of_place hplace]
  constructor
  · rintro ⟨inner, around, hm, heq, hchain⟩
    rw [← ancestors_of_place hm] at heq
    exact ⟨mem_nodes_of_place hm, inner, heq, hchain⟩
  · rintro ⟨hm, inner, heq, hchain⟩
    obtain ⟨around, hm⟩ := exists_place_of_mem_nodes hm
    rw [ancestors_of_place hm] at heq
    exact ⟨inner, around, hm, heq, hchain⟩

/-- What a search through a lowered file finds, it finds in visiting order. -/
theorem filter_reached_eq (hn : n ∈ (ofCst c).nodes) {find found : Node → Bool}
    (hfound : ∀ m ∈ (ofCst c).nodes, found m = true ↔ m ∈ n.reached follow ∧ find m = true) :
    (n.reached follow).filter find = (ofCst c).nodes.filter found := by
  have hsub : ((n.reached follow).filter find).Sublist (ofCst c).nodes := by
    rw [nodes_ofCst] at hn ⊢
    exact List.filter_sublist.trans
      (n.reached_sublist.trans (Node.preorder_sublist_of_mem _ hn))
  refine eq_filter_of_sublist hsub nodup_nodes fun m hm => ?_
  rw [hfound m hm, List.mem_filter]

end Model

end TsxLint
