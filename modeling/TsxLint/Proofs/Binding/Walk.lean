import TsxLint.Binding.Survey
import TsxLint.Proofs.Binding.Table
import TsxLint.Proofs.Lowering.Numbering

/-!
# The first pass of a survey

A walk visits every node of a tree once, in order, and finds the node stack equal to the nodes
around it. What the walk records beside the visits follows from them: the references are those that
the visits make, and each stands under the number of its node.

## Main definitions

* `Node.paths`: the nodes inside a node, each with the nodes around it.
* `Visit.Uses`: the four ways in which a visit uses a name as a value.
* `Survey.Formed`: how the tables of a survey hang together during a walk.

## Main results

* `Survey.walk_induction`, `Survey.walk_induction_at`: what entering and leaving a node keeps, a
  walk keeps; in the second form the node stands in its place.
* `Survey.walk_visits`: the visits of a walk, with the nodes around them.
* `Survey.Formed.walk`: a walk keeps a survey formed.
* `Visit.uses_iff`: which visits make a reference.
-/

namespace TsxLint

/-! ### Places in a tree -/

namespace Node

mutual

/-- The nodes inside a node, itself included, each with the nodes around it, in visiting order. -/
def paths (around : List Node) : Node → List (Node × List Node)
  | ⟨role, id, kind, span, children⟩ =>
    let node : Node := ⟨role, id, kind, span, children⟩
    (node, around) :: pathsAll (node :: around) children

/-- The nodes inside several nodes, each with the nodes around it. -/
def pathsAll (around : List Node) : List Node → List (Node × List Node)
  | [] => []
  | n :: ns => paths around n ++ pathsAll around ns

end

theorem paths_eq (around : List Node) (n : Node) :
    n.paths around = (n, around) :: pathsAll (n :: around) n.children := by
  obtain ⟨role, id, kind, span, children⟩ := n
  rw [paths]

theorem mem_pathsAll {around : List Node} {ns : List Node} {p : Node × List Node} :
    p ∈ pathsAll around ns ↔ ∃ n ∈ ns, p ∈ n.paths around := by
  induction ns with
  | nil => simp [pathsAll]
  | cons n ns ih => simp [pathsAll, ih]

mutual

theorem map_fst_paths (around : List Node) : (n : Node) → (n.paths around).map Prod.fst = n.preorder
  | ⟨role, id, kind, span, children⟩ => by
    rw [paths, preorder, List.map_cons, map_fst_pathsAll _ children]

theorem map_fst_pathsAll (around : List Node) : (ns : List Node) →
    (pathsAll around ns).map Prod.fst = preorderAll ns
  | [] => rfl
  | n :: ns => by
    rw [pathsAll, preorderAll, List.map_append, map_fst_paths around n, map_fst_pathsAll around ns]

end

mutual

/-- The children of a node in a tree have their place in the tree. -/
theorem child_mem_paths {around : List Node} {n c : Node} {outer : List Node} :
    (m : Node) → (n, outer) ∈ m.paths around → c ∈ n.children → (c, n :: outer) ∈ m.paths around
  | ⟨role, id, kind, span, children⟩, hn, hc => by
    rw [paths] at hn ⊢
    rcases List.mem_cons.mp hn with heq | hn
    · obtain ⟨rfl, rfl⟩ := Prod.mk.inj heq
      refine List.mem_cons_of_mem _ (mem_pathsAll.mpr ⟨c, hc, ?_⟩)
      rw [paths_eq]
      exact List.mem_cons_self
    · exact List.mem_cons_of_mem _ (child_mem_pathsAll children hn hc)

theorem child_mem_pathsAll {around : List Node} {n c : Node} {outer : List Node} :
    (ms : List Node) → (n, outer) ∈ pathsAll around ms → c ∈ n.children →
      (c, n :: outer) ∈ pathsAll around ms
  | [], hn, _ => by simp [pathsAll] at hn
  | m :: ms, hn, hc => by
    rw [pathsAll, List.mem_append] at hn ⊢
    rcases hn with hn | hn
    · exact Or.inl (child_mem_paths m hn hc)
    · exact Or.inr (child_mem_pathsAll ms hn hc)

end

mutual

/-- A node in a tree is the root, or a child of the node around it. -/
theorem parent_mem_paths {around : List Node} {n : Node} {outer : List Node} :
    (m : Node) → (n, outer) ∈ m.paths around →
      (n, outer) = (m, around) ∨
        ∃ p rest, outer = p :: rest ∧ n ∈ p.children ∧ (p, rest) ∈ m.paths around
  | ⟨role, id, kind, span, children⟩, hn => by
    rw [paths] at hn
    rcases List.mem_cons.mp hn with heq | hn
    · exact Or.inl heq
    · refine Or.inr ?_
      rw [paths]
      rcases parent_mem_pathsAll children hn with ⟨c, hc, heq⟩ | ⟨p, rest, houter, hp, hmem⟩
      · obtain ⟨rfl, rfl⟩ := Prod.mk.inj heq
        exact ⟨_, _, rfl, hc, List.mem_cons_self⟩
      · exact ⟨p, rest, houter, hp, List.mem_cons_of_mem _ hmem⟩

theorem parent_mem_pathsAll {around : List Node} {n : Node} {outer : List Node} :
    (ms : List Node) → (n, outer) ∈ pathsAll around ms →
      (∃ m ∈ ms, (n, outer) = (m, around)) ∨
        ∃ p rest, outer = p :: rest ∧ n ∈ p.children ∧ (p, rest) ∈ pathsAll around ms
  | [], hn => by simp [pathsAll] at hn
  | m :: ms, hn => by
    rw [pathsAll] at hn ⊢
    rcases List.mem_append.mp hn with hn | hn
    · rcases parent_mem_paths m hn with heq | ⟨p, rest, houter, hp, hmem⟩
      · exact Or.inl ⟨m, List.mem_cons_self, heq⟩
      · exact Or.inr ⟨p, rest, houter, hp, List.mem_append_left _ hmem⟩
    · rcases parent_mem_pathsAll ms hn with ⟨m', hm', heq⟩ | ⟨p, rest, houter, hp, hmem⟩
      · exact Or.inl ⟨m', List.mem_cons_of_mem _ hm', heq⟩
      · exact Or.inr ⟨p, rest, houter, hp, List.mem_append_right _ hmem⟩

end

section

variable {root : Node}

/-- The node around a place in a tree has its place too, and holds the node. -/
theorem parent_mem_paths_root {n p : Node} {outer : List Node}
    (h : (n, p :: outer) ∈ root.paths []) :
    n ∈ p.children ∧ (p, outer) ∈ root.paths [] := by
  rcases parent_mem_paths root h with heq | ⟨p', rest, houter, hn, hp⟩
  · cases heq
  · cases houter
    exact ⟨hn, hp⟩

theorem exists_mem_paths_of_mem {n p : Node} {outer : List Node} (h : (n, outer) ∈ root.paths [])
    (hp : p ∈ outer) : ∃ rest, (p, rest) ∈ root.paths [] := by
  induction outer generalizing n with
  | nil => cases hp
  | cons q outer ih =>
    obtain ⟨-, hq⟩ := parent_mem_paths_root h
    rcases List.mem_cons.mp hp with rfl | hp
    · exact ⟨outer, hq⟩
    · exact ih hq hp

theorem mem_preorder_of_mem_paths {n : Node} {outer : List Node} (h : (n, outer) ∈ root.paths []) :
    n ∈ root.preorder := by
  rw [← map_fst_paths []]
  exact List.mem_map_of_mem h

/-- A node has one place in a tree without repeated numbers. -/
theorem eq_of_mem_paths (hids : (root.preorder.map Node.id).Nodup) {n n' : Node}
    {outer outer' : List Node} (h : (n, outer) ∈ root.paths []) (h' : (n', outer') ∈ root.paths [])
    (hid : n.id = n'.id) : n = n' ∧ outer = outer' := by
  rw [← map_fst_paths [], List.map_map] at hids
  exact Prod.mk.inj (List.inj_on_of_nodup_map hids h h' hid)

end

end Node

/-! ### Uses of names -/

/-- Whether a node assigns to the names in its pattern: an assignment, or a loop whose head is a
target. -/
def Kind.isAssigning : Kind → Bool
  | assignmentExpression .. => true
  | forInStatement _ _ (.assigns _) => true
  | _ => false

namespace Visit

/-- A node with the nodes around it. -/
def place (v : Visit) : Node × List Node := (v.node, v.ancestors)

/-- The visit uses a name as a value: as an identifier expression, in the target of a destructuring
assignment or loop, as a capitalized element name, or as the root of a dotted one. -/
inductive Uses (v : Visit) : String → Prop
  | identifier {name : String} (hk : v.node.kind = .identifierReference name) : Uses v name
  | destructured {name : String} {owner : Node} (hk : v.node.kind = .bindingIdentifier name)
      (ho : (v.ancestors.find? fun n => !n.kind.isPatternPart) = some owner)
      (ha : owner.kind.isAssigning = true) : Uses v name
  | element {name : String} (hk : v.node.kind = .jsxIdentifier name)
      (hp : v.ancestors.head?.map Node.kind = some .jsxOpeningElement)
      (hc : ∀ c, Text.first? name = some c → c.isLower = false) : Uses v name
  | dotted {name : String} {rest : List String}
      (hk : v.node.kind = .jsxMemberName (name :: rest)) : Uses v name

theorem binderUse_eq_writes_iff (scopes : ScopeTree) (v : Visit) :
    v.binderUse scopes = .writes ↔
      ∃ owner, (v.ancestors.find? fun n => !n.kind.isPatternPart) = some owner ∧
        owner.kind.isAssigning = true := by
  rw [← List.head?_filter, binderUse]
  cases v.ancestors.filter fun n => !n.kind.isPatternPart with
  | nil => simp
  | cons owner outer =>
    simp only [List.head?_cons, Option.some.injEq, exists_eq_left']
    constructor
    · intro h
      split at h
      case h_2 => split_ifs at h
      case h_10 hk => rw [hk, Kind.isAssigning]
      case h_11 hk => rw [hk, Kind.isAssigning]
      all_goals cases h
    · intro h
      unfold Kind.isAssigning at h
      split at h
      · rename_i hk
        rw [hk]
      · rename_i hk
        rw [hk]
      · cases h

/-- A visit makes a reference under a name exactly if it uses the name, whatever scopes are open. -/
theorem uses_iff (scopes : ScopeTree) (v : Visit) (name : String) :
    v.Uses name ↔ ∃ access, v.use? scopes = some (name, access) := by
  constructor
  · rintro (hk | ⟨hk, ho, ha⟩ | ⟨hk, hp, hc⟩ | hk)
    · exact ⟨v.access, by simp only [use?, hk]⟩
    · have hw := (v.binderUse_eq_writes_iff scopes).mpr ⟨_, ho, ha⟩
      exact ⟨.write, by simp only [use?, hk, hw]⟩
    · have hl : (Text.first? name).any Char.isLower = false := by
        rw [Option.any_eq_false]
        intro c hcm
        simpa using hc c hcm
      exact ⟨.read, by simp [use?, hk, hp, hl]⟩
    · exact ⟨.read, by simp [use?, hk]⟩
  · rintro ⟨access, hu⟩
    unfold use? at hu
    split at hu
    · rename_i binder hk
      split at hu
      · rename_i hw
        obtain ⟨owner, ho, ha⟩ := (v.binderUse_eq_writes_iff scopes).mp hw
        cases hu
        exact .destructured hk ho ha
      · cases hu
    · rename_i hk
      cases hu
      exact .identifier hk
    · rename_i tag hk
      split at hu
      · rename_i hp
        split_ifs at hu with hl
        cases hu
        refine .element hk hp fun c hc => ?_
        simpa [hc] using hl
      · cases hu
    · rename_i segments hk
      obtain ⟨root, hr, heq⟩ := Option.map_eq_some_iff.mp hu
      cases heq
      obtain ⟨rest, rfl⟩ : ∃ rest, segments = name :: rest := List.head?_eq_some_iff.mp hr
      exact .dotted hk
    · cases hu

/-- Which reference a visit makes does not depend on the scopes that are open. -/
theorem reference?_scopes (scopes : ScopeTree) (v : Visit) :
    v.reference? scopes = v.reference? [] := by
  have hw : v.binderUse scopes = .writes ↔ v.binderUse [] = .writes := by
    rw [binderUse_eq_writes_iff, binderUse_eq_writes_iff]
  have hu : v.use? scopes = v.use? [] := by
    unfold use?
    split
    · split
      · rename_i h
        rw [hw.mp h]
      · rename_i h
        split
        · rename_i h'
          exact absurd (hw.mpr h') h
        · rfl
    all_goals rfl
  rw [reference?, reference?, hu]

theorem exists_of_reference? {scopes : ScopeTree} {v : Visit} {r : Reference}
    (h : v.reference? scopes = some r) :
    r.node = v.node.id ∧ r.scope = v.scope ∧ r.symbol = none ∧
      v.use? scopes = some (r.name, r.access) := by
  obtain ⟨⟨name, access⟩, hu, rfl⟩ := Option.map_eq_some_iff.mp h
  exact ⟨rfl, rfl, rfl, hu⟩

end Visit

/-! ### Walks -/

namespace Survey

/-- Recording a visit adds it, what it declares, and the reference that it makes with its place
under the number of the node. -/
theorem record_eq (s : Survey) (v : Visit) :
    s.record v =
      { s with
        visits := s.visits ++ [v]
        table := s.table.addVisit v
        references := s.references ++ (v.reference? []).toList
        referenceOf :=
          ((v.reference? []).toList.map fun r => (r.node, s.references.length)) ++
            s.referenceOf } := by
  simp only [record, v.reference?_scopes (s.table.addVisit v).scopes]
  cases v.reference? [] with
  | none => simp
  | some r => simp

@[simp] theorem openScope_visits (s : Survey) (n : Node) : (s.openScope n).visits = s.visits := by
  unfold openScope
  split <;> rfl

@[simp] theorem openScope_nodeStack (s : Survey) (n : Node) :
    (s.openScope n).nodeStack = s.nodeStack := by
  unfold openScope
  split <;> rfl

@[simp] theorem openScope_references (s : Survey) (n : Node) :
    (s.openScope n).references = s.references := by
  unfold openScope
  split <;> rfl

@[simp] theorem openScope_referenceOf (s : Survey) (n : Node) :
    (s.openScope n).referenceOf = s.referenceOf := by
  unfold openScope
  split <;> rfl

theorem enter_visits (s : Survey) (n : Node) :
    (s.enter n).visits.map Visit.place = s.visits.map Visit.place ++ [(n, s.nodeStack)] := by
  simp [enter, record_eq, visitTo, Visit.place]

theorem enter_nodeStack (s : Survey) (n : Node) : (s.enter n).nodeStack = n :: s.nodeStack := by
  simp [enter, record_eq]

mutual

/-- A walk visits the nodes of a tree in order and finds around each of them the node stack; the
stack is afterwards as it was. -/
theorem walk_visits (s : Survey) : (n : Node) →
    (s.walk n).visits.map Visit.place = s.visits.map Visit.place ++ n.paths s.nodeStack ∧
      (s.walk n).nodeStack = s.nodeStack
  | ⟨role, id, kind, span, children⟩ => by
    rw [walk, Node.paths]
    obtain ⟨hvisits, hstack⟩ := walkAll_visits (s.enter ⟨role, id, kind, span, children⟩) children
    rw [enter_visits, enter_nodeStack] at hvisits
    rw [enter_nodeStack] at hstack
    refine ⟨?_, ?_⟩
    · simpa [leave] using hvisits
    · simp [leave, hstack]

theorem walkAll_visits (s : Survey) : (ns : List Node) →
    (s.walkAll ns).visits.map Visit.place =
        s.visits.map Visit.place ++ Node.pathsAll s.nodeStack ns ∧
      (s.walkAll ns).nodeStack = s.nodeStack
  | [] => by simp [walkAll, Node.pathsAll]
  | n :: ns => by
    rw [walkAll, Node.pathsAll]
    obtain ⟨hfirst, hstack⟩ := walk_visits s n
    obtain ⟨hothers, hstack'⟩ := walkAll_visits (s.walk n) ns
    rw [hstack] at hothers hstack'
    refine ⟨?_, hstack'⟩
    rw [hothers, hfirst, List.append_assoc]

end

mutual

/-- What entering and leaving a node keeps, a walk keeps. -/
theorem walk_induction {P : Survey → Prop} (henter : ∀ s n, P s → P (s.enter n))
    (hleave : ∀ s n, P s → P (s.leave n)) {s : Survey} (hs : P s) : (n : Node) → P (s.walk n)
  | ⟨role, id, kind, span, children⟩ => by
    rw [walk]
    exact hleave _ _ (walkAll_induction henter hleave (henter _ _ hs) children)

theorem walkAll_induction {P : Survey → Prop} (henter : ∀ s n, P s → P (s.enter n))
    (hleave : ∀ s n, P s → P (s.leave n)) {s : Survey} (hs : P s) :
    (ns : List Node) → P (s.walkAll ns)
  | [] => by rwa [walkAll]
  | n :: ns => by
    rw [walkAll]
    exact walkAll_induction henter hleave (walk_induction henter hleave hs n) ns

end

mutual

/-- What a walk through a tree keeps when it enters a node in its place and when it leaves it there,
walking through a part of the tree keeps. -/
theorem walk_induction_at {root : Node} {P : Survey → Prop}
    (henter : ∀ s n, (n, s.nodeStack) ∈ root.paths [] → P s → P (s.enter n))
    (hleave : ∀ s n outer, (n, outer) ∈ root.paths [] → s.nodeStack = n :: outer → P s →
      P (s.leave n)) {s : Survey} (hs : P s) :
    (n : Node) → (n, s.nodeStack) ∈ root.paths [] → P (s.walk n)
  | ⟨role, id, kind, span, children⟩, hplace => by
    rw [walk]
    have hchildren := walkAll_induction_at henter hleave (henter _ _ hplace hs) children
      fun c hc => by
        rw [enter_nodeStack]
        exact Node.child_mem_paths root hplace hc
    have hstack := (walkAll_visits (s.enter ⟨role, id, kind, span, children⟩) children).2
    rw [enter_nodeStack] at hstack
    exact hleave _ _ _ hplace hstack hchildren

theorem walkAll_induction_at {root : Node} {P : Survey → Prop}
    (henter : ∀ s n, (n, s.nodeStack) ∈ root.paths [] → P s → P (s.enter n))
    (hleave : ∀ s n outer, (n, outer) ∈ root.paths [] → s.nodeStack = n :: outer → P s →
      P (s.leave n)) {s : Survey} (hs : P s) :
    (ns : List Node) → (∀ n ∈ ns, (n, s.nodeStack) ∈ root.paths []) → P (s.walkAll ns)
  | [], _ => by rwa [walkAll]
  | n :: ns, hplaces => by
    rw [walkAll]
    have hfirst := walk_induction_at henter hleave hs n (hplaces n List.mem_cons_self)
    refine walkAll_induction_at henter hleave hfirst ns fun m hm => ?_
    rw [(walk_visits s n).2]
    exact hplaces m (List.mem_cons_of_mem _ hm)

end

/-- The tables of a survey during a walk: the references are those that the visits make, each under
the number of its node, and the symbols are as declared. -/
structure Formed (s : Survey) : Prop where
  table : s.table.Formed
  references : s.references = s.visits.filterMap (Visit.reference? [])
  referenceOf : s.referenceOf = (s.references.map Reference.node).zipIdx.reverse

namespace Formed

theorem empty : Survey.empty.Formed := ⟨.empty, rfl, rfl⟩

variable {s : Survey} (hs : s.Formed)

include hs

theorem record (v : Visit) : (s.record v).Formed := by
  rw [record_eq]
  refine ⟨hs.table.addVisit v, ?_, ?_⟩
  · rw [List.filterMap_append, ← hs.references]
    cases hr : v.reference? [] with
    | none => simp [hr]
    | some r => simp [hr]
  · rw [hs.referenceOf]
    cases v.reference? [] with
    | none => simp
    | some r => simp [List.zipIdx_append]

theorem openScope (n : Node) : (s.openScope n).Formed := by
  refine ⟨?_, ?_, ?_⟩
  · unfold Survey.openScope
    split
    · exact hs.table
    · exact hs.table.openScope _ _ _
  · rw [openScope_references, openScope_visits]
    exact hs.references
  · rw [openScope_referenceOf, openScope_references]
    exact hs.referenceOf

theorem enter (n : Node) : (s.enter n).Formed := by
  have hr := hs.record (s.visitTo n)
  have hpush : { s.record (s.visitTo n) with
      nodeStack := n :: (s.record (s.visitTo n)).nodeStack }.Formed :=
    ⟨hr.table, hr.references, hr.referenceOf⟩
  exact hpush.openScope n

theorem leave (n : Node) : (s.leave n).Formed := ⟨hs.table, hs.references, hs.referenceOf⟩

theorem walk (n : Node) : (s.walk n).Formed :=
  walk_induction (fun _ n hs => hs.enter n) (fun _ n hs => hs.leave n) hs n

end Formed

end Survey

end TsxLint
