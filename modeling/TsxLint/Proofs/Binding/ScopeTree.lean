import Mathlib.Data.List.Chain
import Mathlib.Data.List.Find
import Mathlib.Data.List.Forall2
import Mathlib.Data.List.Nodup
import TsxLint.Proofs.Binding.NodeTable

/-!
# The tree of scopes

A walk opens the scope of a node right after it has recorded the visit, and closes the innermost
scope when it leaves the node on top of the stack. So the open scopes are at all times those of the
nodes that the walk is inside of, and the scopes of a file form a tree that mirrors the tree of its
nodes: a node sits in the scope of the nearest node around it that has one.

## Main definitions

* `Frame`, `ScopeTree.frames`: what of a scope no declaration changes.
* `Survey.Mirrors`: how scopes, visits and the two stacks hang together during a walk.
* `Model.ScopesMirrorNodes`: the scopes of a model mirror its nodes.

## Main results

* `Survey.Mirrors.enter`, `Survey.Mirrors.leave`: a step of a walk keeps scopes and nodes together.
* `Model.scopesMirrorNodes_ofCst`: the scopes of a lowered file mirror its nodes.
* `Model.scope_tree_mirrors_nodes`: what follows for containment and for the way outwards.
-/

namespace TsxLint

/-! ### Frames -/

/-- What of a scope is settled when it is opened: its kind, the scope around it and the node that
opened it. -/
structure Frame where
  kind : ScopeKind
  parent : Option Nat
  owner : Nat
  deriving DecidableEq, Repr

/-- The scope without its tables of names. -/
def Scope.frame (s : Scope) : Frame := ⟨s.kind, s.parent, s.owner⟩

/-- The scopes without their tables of names. -/
def ScopeTree.frames (scopes : ScopeTree) : List Frame := scopes.map Scope.frame

/-- Whether a node opens a scope. -/
def Node.opensScope (n : Node) : Bool := n.kind.scopeKind?.isSome

/-- The frame of the scope that the node of a visit opens, inside of the scope that it sits in. -/
def Visit.frame? (v : Visit) : Option Frame :=
  v.node.kind.scopeKind?.map fun kind => ⟨kind, some v.scope, v.node.id⟩

/-- A frame in its place: the first scope has none around it. -/
def Frame.inPlace (k : Nat) (f : Frame) : Frame := if k = 0 then { f with parent := none } else f

namespace ScopeTree

@[simp] theorem length_frames (scopes : ScopeTree) : scopes.frames.length = scopes.length :=
  List.length_map _

theorem getElem?_frames (scopes : ScopeTree) (k : Nat) :
    scopes.frames[k]? = scopes[k]?.map Scope.frame :=
  List.getElem?_map

theorem parent?_eq_frames (scopes : ScopeTree) (k : Nat) :
    scopes.parent? k = scopes.frames[k]?.bind Frame.parent := by
  rw [parent?, getElem?_frames, Option.bind_map]
  rfl

/-- Every scope but the first has an earlier scope around it. -/
structure Rooted (scopes : ScopeTree) : Prop where
  first : scopes.parent? 0 = none
  parent : ∀ k, k ≠ 0 → k < scopes.length → ∃ p, scopes.parent? k = some p ∧ p < k

theorem outward_of_parent? {scopes : ScopeTree} {k p : Nat} (hp : scopes.parent? k = some p)
    (hlt : p < k) : scopes.outward k = k :: scopes.outward p := by
  rw [outward, hp]
  exact if_pos hlt

/-- The way outwards stops at a scope or goes on from an earlier one around it. -/
theorem outward_cases (scopes : ScopeTree) (k : Nat) : scopes.outward k = [k] ∨
    ∃ p, scopes.parent? k = some p ∧ p < k ∧ scopes.outward k = k :: scopes.outward p := by
  cases hp : scopes.parent? k with
  | none =>
    rw [outward, hp]
    exact Or.inl rfl
  | some p =>
    by_cases hlt : p < k
    · exact Or.inr ⟨p, rfl, hlt, outward_of_parent? hp hlt⟩
    · rw [outward, hp]
      exact Or.inl (if_neg hlt)

theorem head?_outward (scopes : ScopeTree) (k : Nat) : (scopes.outward k).head? = some k := by
  rcases scopes.outward_cases k with heq | ⟨p, -, -, heq⟩
  · rw [heq, List.head?_cons]
  · rw [heq, List.head?_cons]

theorem mem_outward_self (scopes : ScopeTree) (k : Nat) : k ∈ scopes.outward k :=
  List.mem_of_mem_head? (scopes.head?_outward k)

/-- In a rooted tree the way outwards goes from parent to parent and ends at the first scope. -/
theorem Rooted.outward_spec {scopes : ScopeTree} (h : scopes.Rooted) {k : Nat}
    (hk : k < scopes.length) :
    (scopes.outward k).IsChain (fun inner outer => scopes.parent? inner = some outer) ∧
      (scopes.outward k).getLast? = some 0 := by
  induction k using Nat.strongRecOn with
  | _ k ih =>
    by_cases hzero : k = 0
    · subst hzero
      rw [outward, h.first]
      exact ⟨.singleton 0, rfl⟩
    · obtain ⟨p, hp, hlt⟩ := h.parent k hzero hk
      obtain ⟨hchain, hlast⟩ := ih p hlt (Nat.lt_trans hlt hk)
      rw [outward_of_parent? hp hlt, List.isChain_cons, List.getLast?_cons, hlast]
      refine ⟨⟨fun q hq => ?_, hchain⟩, rfl⟩
      rw [head?_outward] at hq
      rw [hp, hq]

/-- The scope was opened by the nearest of the nodes that opens one. -/
def Nearest (scopes : ScopeTree) (ns : List Node) (scope : Nat) : Prop :=
  ∃ p f, ns.find? Node.opensScope = some p ∧ scopes.frames[scope]? = some f ∧ f.owner = p.id

end ScopeTree

namespace SymbolTable

/-- A declaration changes no frame. -/
theorem frames_declare (t : SymbolTable) (symbol : Symbol) :
    (t.declare symbol).scopes.frames = t.scopes.frames := by
  unfold declare
  split
  · rfl
  · refine List.ext_getElem? fun k => ?_
    simp only [ScopeTree.getElem?_frames, List.getElem?_modify, Option.map_eq_map, Option.map_map]
    congr 1
    funext s
    simp only [Function.comp_apply, Scope.frame, Scope.bind]
    split_ifs <;> rfl

theorem frames_addVisit (t : SymbolTable) (v : Visit) :
    (t.addVisit v).scopes.frames = t.scopes.frames := by
  unfold addVisit
  split
  · split
    · exact t.frames_declare _
    · rfl
  · rfl

theorem frames_openScope (t : SymbolTable) (kind : ScopeKind) (current owner : Nat) :
    (t.openScope kind current owner).scopes.frames =
      t.scopes.frames ++ [⟨kind, if t.scopes.isEmpty then none else some current, owner⟩] := by
  simp [openScope, ScopeTree.frames, Scope.frame]

end SymbolTable

/-! ### The walk -/

namespace Survey

theorem enter_visits_eq (s : Survey) (n : Node) :
    (s.enter n).visits = s.visits ++ [s.visitTo n] := by
  simp [enter, record_eq]

theorem openScope_frames (s : Survey) (n : Node) :
    (s.openScope n).table.scopes.frames = s.table.scopes.frames ++
      (n.kind.scopeKind?.map fun kind =>
        (⟨kind, if s.table.scopes.frames.isEmpty then none else some s.currentScope, n.id⟩ :
          Frame)).toList := by
  have hempty : s.table.scopes.frames.isEmpty = s.table.scopes.isEmpty := List.isEmpty_map
  cases hkind : n.kind.scopeKind? with
  | none => simp [openScope, hkind]
  | some kind => simp [openScope, hkind, SymbolTable.frames_openScope, hempty]

theorem openScope_scopeStack (s : Survey) (n : Node) :
    (s.openScope n).scopeStack =
      if n.opensScope then (n.id, s.table.scopes.frames.length) :: s.scopeStack
      else s.scopeStack := by
  cases hkind : n.kind.scopeKind? with
  | none => simp [openScope, Node.opensScope, hkind]
  | some kind => simp [openScope, Node.opensScope, hkind]

/-- Entering a node opens its scope inside of the current one. -/
theorem enter_frames (s : Survey) (n : Node) :
    (s.enter n).table.scopes.frames = s.table.scopes.frames ++
      (n.kind.scopeKind?.map fun kind =>
        (⟨kind, if s.table.scopes.frames.isEmpty then none else some s.currentScope, n.id⟩ :
          Frame)).toList := by
  rw [enter, openScope_frames, record_eq]
  simp only [SymbolTable.frames_addVisit, currentScope]

theorem enter_scopeStack (s : Survey) (n : Node) :
    (s.enter n).scopeStack =
      if n.opensScope then (n.id, s.table.scopes.frames.length) :: s.scopeStack
      else s.scopeStack := by
  rw [enter, openScope_scopeStack, record_eq]
  simp only [SymbolTable.frames_addVisit]

theorem leave_scopeStack (s : Survey) (n : Node) :
    (s.leave n).scopeStack =
      if s.scopeStack.head?.any (·.1 == n.id) then s.scopeStack.tail else s.scopeStack :=
  rfl

/-- The scopes of a survey mirror the nodes that it has visited: they are those that the visited
nodes open, in order; a visited node sits in the scope of the nearest node around it that has one;
and the open scopes are those of the nodes that the walk is inside of. -/
structure Mirrors (s : Survey) : Prop where
  frames : s.table.scopes.frames = (s.visits.filterMap Visit.frame?).mapIdx Frame.inPlace
  parent_lt : ∀ (k : Nat) (f : Frame), s.table.scopes.frames[k]? = some f → ∀ p ∈ f.parent, p < k
  outermost : ∀ v ∈ s.visits, v.ancestors = [] → v.scope = 0
  visit : ∀ v ∈ s.visits, v.ancestors ≠ [] → s.table.scopes.Nearest v.ancestors v.scope
  stack : List.Forall₂ (fun n e => e.1 = n.id ∧
    ∃ f, s.table.scopes.frames[e.2]? = some f ∧ f.owner = n.id)
    (s.nodeStack.filter Node.opensScope) s.scopeStack

namespace Mirrors

theorem empty : Survey.empty.Mirrors :=
  ⟨rfl, by simp [Survey.empty, SymbolTable.empty, ScopeTree.frames], by simp [Survey.empty],
    by simp [Survey.empty], .nil⟩

variable {s : Survey} (h : s.Mirrors)

include h

/-- Inside of a node that has a scope, the current scope is that of the nearest such node. -/
theorem nearest_currentScope (hopen : ∃ p ∈ s.nodeStack, p.opensScope = true) :
    s.table.scopes.Nearest s.nodeStack s.currentScope := by
  have hstack := h.stack
  obtain ⟨p, hp⟩ : ∃ p, s.nodeStack.find? Node.opensScope = some p := by
    rwa [← Option.isSome_iff_exists, List.find?_isSome]
  obtain ⟨outer, houter⟩ := List.head?_eq_some_iff.mp (List.head?_filter.trans hp)
  rw [houter] at hstack
  obtain ⟨e, es, ⟨-, f, hf, howner⟩, -, hes⟩ := List.forall₂_cons_left_iff.mp hstack
  refine ⟨p, f, hp, ?_, howner⟩
  rw [currentScope, hes]
  exact hf

/-- The current scope is one of the scopes, if there are any. -/
theorem currentScope_lt (hne : s.table.scopes.frames ≠ []) :
    s.currentScope < s.table.scopes.frames.length := by
  have hstack := h.stack
  cases hes : s.scopeStack with
  | nil =>
    rw [currentScope, hes]
    exact List.length_pos_iff.mpr hne
  | cons e es =>
    rw [hes] at hstack
    obtain ⟨p, ps, ⟨-, f, hf, -⟩, -, -⟩ := List.forall₂_cons_right_iff.mp hstack
    rw [currentScope, hes]
    exact (List.getElem?_eq_some_iff.mp hf).1

/-- Entering a node adds the frame of its scope to those of the visits before. -/
theorem frames_enter (n : Node) : (s.enter n).table.scopes.frames =
    ((s.enter n).visits.filterMap Visit.frame?).mapIdx Frame.inPlace := by
  rw [enter_frames, enter_visits_eq, List.filterMap_append]
  cases hkind : n.kind.scopeKind? with
  | none => simp [Visit.frame?, visitTo, hkind, h.frames]
  | some kind =>
    have hlength : (s.visits.filterMap Visit.frame?).length = s.table.scopes.frames.length := by
      rw [h.frames, List.length_mapIdx]
    have hframe : [s.visitTo n].filterMap Visit.frame? = [⟨kind, some s.currentScope, n.id⟩] := by
      simp [Visit.frame?, visitTo, hkind]
    rw [hframe, List.mapIdx_append, ← h.frames, hlength]
    simp only [Option.map_some, Option.toList_some, List.mapIdx_cons, List.mapIdx_nil,
      Frame.inPlace, Nat.zero_add, List.isEmpty_iff, List.length_eq_zero_iff]
    split_ifs <;> rfl

/-- The scope that a node opens lies inside of an earlier one. -/
theorem parent_lt_enter (n : Node) (k : Nat) (f : Frame)
    (hf : (s.enter n).table.scopes.frames[k]? = some f) : ∀ p ∈ f.parent, p < k := by
  intro p hp
  rw [enter_frames, List.getElem?_append] at hf
  split at hf
  · exact h.parent_lt k f hf p hp
  · rename_i hk
    cases hkind : n.kind.scopeKind? with
    | none => simp [hkind] at hf
    | some kind =>
      simp only [hkind, Option.map_some, Option.toList_some, List.getElem?_singleton] at hf
      split_ifs at hf with hone hnil
      · cases hf
        cases hp
      · cases hf
        obtain rfl := Option.some.inj hp
        have hlt := h.currentScope_lt (by simpa using hnil)
        omega

omit h in
/-- The frames of before stand at the front, so what is said of them stays true. -/
theorem getElem?_frames_enter (n : Node) {k : Nat} {f : Frame}
    (hf : s.table.scopes.frames[k]? = some f) :
    (s.enter n).table.scopes.frames[k]? = some f := by
  rw [enter_frames, List.getElem?_append_left (List.getElem?_eq_some_iff.mp hf).1, hf]

/-- The scope of the node that is entered comes on top of the open ones. -/
theorem stack_enter (n : Node) : List.Forall₂ (fun n' e => e.1 = n'.id ∧
      ∃ f, (s.enter n).table.scopes.frames[e.2]? = some f ∧ f.owner = n'.id)
    ((s.enter n).nodeStack.filter Node.opensScope) (s.enter n).scopeStack := by
  have hold := h.stack.imp fun a b hab =>
    And.intro hab.1 (hab.2.imp fun f hf => And.intro (getElem?_frames_enter n hf.1) hf.2)
  rw [enter_nodeStack, enter_scopeStack, List.filter_cons]
  split_ifs with hn
  · refine .cons ⟨rfl, ?_⟩ hold
    obtain ⟨kind, hkind⟩ := Option.isSome_iff_exists.mp hn
    rw [enter_frames, hkind]
    exact ⟨_, List.getElem?_concat_length, rfl⟩
  · exact hold

theorem enter (n : Node) (hopen : s.nodeStack ≠ [] → ∃ p ∈ s.nodeStack, p.opensScope = true) :
    (s.enter n).Mirrors := by
  refine ⟨h.frames_enter n, h.parent_lt_enter n, fun v hv hnil => ?_, fun v hv hne => ?_,
    h.stack_enter n⟩
  · rw [enter_visits_eq, List.mem_append, List.mem_singleton] at hv
    rcases hv with hv | rfl
    · exact h.outermost v hv hnil
    · have hstack := h.stack
      have hnodes : s.nodeStack = [] := hnil
      rw [hnodes, List.filter_nil, List.forall₂_nil_left_iff] at hstack
      simp [visitTo, currentScope, hstack]
  · rw [enter_visits_eq, List.mem_append, List.mem_singleton] at hv
    rcases hv with hv | rfl
    · obtain ⟨p, f, hp, hf, howner⟩ := h.visit v hv hne
      exact ⟨p, f, hp, getElem?_frames_enter n hf, howner⟩
    · obtain ⟨p, f, hp, hf, howner⟩ := h.nearest_currentScope (hopen hne)
      exact ⟨p, f, hp, getElem?_frames_enter n hf, howner⟩

theorem leave {n : Node} {outer : List Node} (hstack : s.nodeStack = n :: outer)
    (hne : ∀ p ∈ outer, p.id ≠ n.id) : (s.leave n).Mirrors := by
  refine ⟨h.frames, h.parent_lt, h.outermost, h.visit, ?_⟩
  have hopen := h.stack
  have hnodes : (s.leave n).nodeStack = outer := by
    simp [Survey.leave, hstack]
  rw [hnodes, leave_scopeStack]
  rw [hstack, List.filter_cons] at hopen
  split_ifs at hopen with hn
  · obtain ⟨e, es, ⟨he, -⟩, htail, hes⟩ := List.forall₂_cons_left_iff.mp hopen
    have howned : s.scopeStack.head?.any (·.1 == n.id) = true := by simp [hes, he]
    rw [if_pos howned, hes]
    exact htail
  · -- The innermost scope is that of a node further out, which has another number.
    have hother : s.scopeStack.head?.any (·.1 == n.id) = false := by
      rw [Option.any_eq_false]
      intro e he
      obtain ⟨es, hes⟩ := List.head?_eq_some_iff.mp he
      rw [hes] at hopen
      obtain ⟨p, ps, ⟨hp, -⟩, -, hps⟩ := List.forall₂_cons_right_iff.mp hopen
      have hmem : p ∈ outer.filter Node.opensScope := by simp [hps]
      rw [hp]
      simpa using hne p (List.mem_filter.mp hmem).1
    rw [hother]
    exact hopen

end Mirrors

end Survey

/-! ### Lowered files -/

/-- The kinds of nodes that open a scope, by name. -/
def scopeOpeners : List String :=
  ["Program", "Function", "ArrowFunction", "StaticBlock", "BlockStatement", "ForStatement",
    "ForInStatement", "CatchClause", "Class", "SwitchStatement"]

theorem Node.opensScope_iff (n : Node) : n.opensScope = true ↔ n.kind.name ∈ scopeOpeners := by
  rw [opensScope]
  cases n.kind <;> simp [Kind.scopeKind?, Kind.name, scopeOpeners]

namespace Model

/-- The scopes of a model are a tree that mirrors the tree of its nodes. -/
structure ScopesMirrorNodes (m : Model) : Prop where
  /-- The first scope is that of the module; the root has opened it and there is none around it. -/
  first : ∃ s, m.scopes[0]? = some s ∧ s.kind = .module ∧ s.owner = m.program.root.id ∧
    s.parent = none
  /-- Around any other scope is the earlier one that the node which opened it sits in. -/
  parent : ∀ (k : Nat) (s : Scope), m.scopes[k]? = some s → k ≠ 0 →
    s.parent = some (m.scopeOf s.owner) ∧ m.scopeOf s.owner < k
  /-- A node opens one scope or none, by its kind. -/
  opened : ∀ n ∈ m.nodes,
    m.scopes.countP (·.owner == n.id) = if n.kind.name ∈ scopeOpeners then 1 else 0
  /-- Every scope was opened by a node, whose kind gives the kind of the scope. -/
  owner : ∀ s ∈ m.scopes, ∃ n ∈ m.nodes, n.id = s.owner ∧ n.kind.scopeKind? = some s.kind
  /-- A scope is found under the node that opened it. -/
  scopeOwnedBy?_eq_some_iff : ∀ id k,
    m.scopeOwnedBy? id = some k ↔ ∃ s, m.scopes[k]? = some s ∧ s.owner = id
  /-- A node but the root sits in the scope of the nearest node around it that has one. -/
  nearest : ∀ n ∈ m.nodes, n ≠ m.program.root →
    ∃ p, (m.ancestors n.id).find? (fun p => (m.scopeOwnedBy? p.id).isSome) = some p ∧
      m.scopeOwnedBy? p.id = some (m.scopeOf n.id)

variable {c : Cst}

theorem root_mem_of_place {n : Node} {outer : List Node} (hne : outer ≠ [])
    (hplace : (n, outer) ∈ (Program.ofCst c).root.paths []) : (Program.ofCst c).root ∈ outer := by
  have hlast := (isTree_ofCst c).getLast?_ancestors (mem_nodes_of_place hplace)
  rw [ancestors_of_place hplace] at hlast
  obtain ⟨p, rest, rfl⟩ := List.exists_cons_of_ne_nil hne
  rw [List.getLast?_cons_cons] at hlast
  exact List.mem_of_getLast? hlast

variable (c) in
/-- What holds of an empty survey and is kept by the steps of a walk, the walk through a lowered
file leaves. Inside of a node the walk is inside of the root, which opens a scope, and the nodes
around a node have other numbers. -/
theorem walked_induction {P : Survey → Prop} (hempty : P .empty)
    (henter : ∀ s n, (s.nodeStack ≠ [] → ∃ p ∈ s.nodeStack, p.opensScope = true) → P s →
      P (s.enter n))
    (hleave : ∀ s n outer, s.nodeStack = n :: outer → (∀ p ∈ outer, p.id ≠ n.id) → P s →
      P (s.leave n)) : P (walked c) := by
  have hplace : ((Program.ofCst c).root, []) ∈ (Program.ofCst c).root.paths [] := by
    rw [Node.paths_eq]
    exact List.mem_cons_self
  refine Survey.walk_induction_at ?_ ?_ hempty _ hplace
  · intro s n hn hs
    exact henter s n (fun hne => ⟨_, root_mem_of_place hne hn, rfl⟩) hs
  · intro s n outer hn hstack hs
    refine hleave s n outer hstack (fun p hp => ?_) hs
    rw [← ancestors_of_place hn] at hp
    exact Nat.ne_of_lt ((isTree_ofCst c).lt_of_mem_ancestors hp)

variable (c) in
/-- The walk through a lowered file leaves scopes that mirror the nodes. -/
theorem walked_mirrors : (walked c).Mirrors :=
  walked_induction c .empty (fun _ n hopen hs => hs.enter n hopen)
    fun _ _ _ hstack hne hs => hs.leave hstack hne

variable (c) in
theorem scopes_ofCst : (ofCst c).scopes = (walked c).table.scopes := (ofCst_resolved c).scopes

/-- A scope was opened by a visited node, inside of the scope that the node sits in. -/
theorem exists_visit_of_scope {k : Nat} {s : Scope} (hs : (ofCst c).scopes[k]? = some s) :
    ∃ v ∈ (ofCst c).visits, v.node.id = s.owner ∧ v.node.kind.scopeKind? = some s.kind ∧
      s.parent = if k = 0 then none else some v.scope := by
  have hframe : (ofCst c).scopes.frames[k]? = some s.frame := by
    rw [ScopeTree.getElem?_frames, hs, Option.map_some]
  rw [scopes_ofCst, (walked_mirrors c).frames, List.getElem?_mapIdx] at hframe
  obtain ⟨f, hf, hplaced⟩ := Option.map_eq_some_iff.mp hframe
  obtain ⟨v, hv, hvf⟩ := List.mem_filterMap.mp (List.mem_of_getElem? hf)
  obtain ⟨kind, hkind, rfl⟩ := Option.map_eq_some_iff.mp hvf
  refine ⟨v, by rwa [visits_ofCst], ?_⟩
  rw [Frame.inPlace] at hplaced
  split_ifs at hplaced ⊢ with hzero
  · obtain ⟨hk, hparent, howner⟩ := Frame.mk.inj hplaced
    exact ⟨howner, hk ▸ hkind, hparent.symm⟩
  · obtain ⟨hk, hparent, howner⟩ := Frame.mk.inj hplaced
    exact ⟨howner, hk ▸ hkind, hparent.symm⟩

variable (c) in
/-- The scopes are those of the nodes that open one, in visiting order. -/
theorem owners_ofCst :
    (ofCst c).scopes.map Scope.owner = ((ofCst c).nodes.filter Node.opensScope).map Node.id := by
  have hframes : (ofCst c).scopes.map Scope.owner = (ofCst c).scopes.frames.map Frame.owner := by
    rw [ScopeTree.frames, List.map_map]
    rfl
  have hplaced (fs : List Frame) :
      (fs.mapIdx Frame.inPlace).map Frame.owner = fs.map Frame.owner := by
    refine List.ext_getElem? fun k => ?_
    simp only [List.getElem?_map, List.getElem?_mapIdx, Option.map_map]
    congr 1
    funext f
    simp only [Function.comp_apply, Frame.inPlace]
    split_ifs <;> rfl
  have hvisits (visits : List Visit) : (visits.filterMap Visit.frame?).map Frame.owner =
      ((visits.map Visit.node).filter Node.opensScope).map Node.id := by
    induction visits with
    | nil => rfl
    | cons v visits ih =>
      cases hkind : v.node.kind.scopeKind? with
      | none => simp [Visit.frame?, Node.opensScope, hkind, ih]
      | some kind => simp [Visit.frame?, Node.opensScope, hkind, ih]
  rw [hframes, scopes_ofCst, (walked_mirrors c).frames, hplaced, hvisits, nodes, visits_ofCst]

variable (c) in
/-- No node opens two scopes. -/
theorem owners_nodup : ((ofCst c).scopes.map Scope.owner).Nodup := by
  rw [owners_ofCst]
  exact (List.filter_sublist.map Node.id).nodup (isTree_ofCst c).nodup

theorem scopeOwnedBy?_ofCst_eq_some_iff {id k : Nat} : (ofCst c).scopeOwnedBy? id = some k ↔
    ∃ s, (ofCst c).scopes[k]? = some s ∧ s.owner = id := by
  rw [scopeOwnedBy?, List.findIdx?_eq_some_iff_getElem]
  constructor
  · rintro ⟨hk, howner, -⟩
    exact ⟨_, List.getElem?_eq_getElem hk, by simpa using howner⟩
  · rintro ⟨s, hs, rfl⟩
    obtain ⟨hk, hget⟩ := List.getElem?_eq_some_iff.mp hs
    refine ⟨hk, by simp [hget], fun j hj howner => ?_⟩
    have hsame :
        ((ofCst c).scopes.map Scope.owner)[k]? = ((ofCst c).scopes.map Scope.owner)[j]? := by
      rw [List.getElem?_map, List.getElem?_map, hs, List.getElem?_eq_getElem (Nat.lt_trans hj hk)]
      simpa using (eq_of_beq howner).symm
    have heq := (List.getElem?_inj (by simpa using hk) (owners_nodup c)).mp hsame
    omega

theorem scopeOf_of_mem {v : Visit} (hv : v ∈ (ofCst c).visits) :
    (ofCst c).scopeOf v.node.id = v.scope := by
  rw [scopeOf, visit?_of_mem hv]
  rfl

/-- The nodes that have opened a scope are those whose kind opens one. -/
theorem mem_owners_iff {n : Node} (hn : n ∈ (ofCst c).nodes) :
    n.id ∈ (ofCst c).scopes.map Scope.owner ↔ n.opensScope = true := by
  rw [owners_ofCst, List.mem_map]
  constructor
  · rintro ⟨m, hm, hid⟩
    obtain ⟨hmem, hopens⟩ := List.mem_filter.mp hm
    rwa [← List.inj_on_of_nodup_map (isTree_ofCst c).nodup hmem hn hid]
  · exact fun hopens => ⟨n, List.mem_filter.mpr ⟨hn, hopens⟩, rfl⟩

theorem isSome_scopeOwnedBy? {n : Node} (hn : n ∈ (ofCst c).nodes) :
    ((ofCst c).scopeOwnedBy? n.id).isSome = n.opensScope := by
  rw [Bool.eq_iff_iff, ← mem_owners_iff hn, Option.isSome_iff_exists, List.mem_map]
  simp only [scopeOwnedBy?_ofCst_eq_some_iff]
  constructor
  · rintro ⟨k, s, hs, howner⟩
    exact ⟨s, List.mem_of_getElem? hs, howner⟩
  · rintro ⟨s, hs, howner⟩
    obtain ⟨k, hk⟩ := List.getElem?_of_mem hs
    exact ⟨k, s, hk, howner⟩

/-- A visited node other than the root sits in the scope of the nearest node around it that has
one. -/
theorem nearest_of_mem {v : Visit} (hv : v ∈ (ofCst c).visits)
    (hne : v.node ≠ (Program.ofCst c).root) : (ofCst c).scopes.Nearest v.ancestors v.scope := by
  have hplace := place_mem_of_mem_visits hv
  rw [scopes_ofCst]
  refine (walked_mirrors c).visit v (by rwa [← visits_ofCst]) fun hnil => ?_
  rcases Node.parent_mem_paths _ hplace with heq | ⟨p, rest, houter, -, -⟩
  · exact hne (congrArg Prod.fst heq)
  · rw [hnil] at houter
    cases houter

variable (c) in
/-- The scopes of a lowered file mirror its nodes. -/
theorem scopesMirrorNodes_ofCst : (ofCst c).ScopesMirrorNodes where
  first := by
    have howners : ((ofCst c).scopes.map Scope.owner)[0]? = some (Program.ofCst c).root.id := by
      rw [owners_ofCst, nodes_ofCst, Node.preorder_eq]
      rfl
    rw [List.getElem?_map] at howners
    obtain ⟨s, hs, howner⟩ := Option.map_eq_some_iff.mp howners
    obtain ⟨v, hv, hid, hkind, hparent⟩ := exists_visit_of_scope hs
    have hroot : v.node = (Program.ofCst c).root :=
      List.inj_on_of_nodup_map (isTree_ofCst c).nodup (List.mem_map_of_mem hv)
        (by rw [nodes_ofCst]; exact Node.mem_preorder_self _) (hid.trans howner)
    rw [hroot] at hkind
    exact ⟨s, hs, (Option.some.inj hkind).symm, howner, hparent⟩
  parent := by
    intro k s hs hne
    obtain ⟨v, hv, howner, -, hparent⟩ := exists_visit_of_scope hs
    rw [if_neg hne] at hparent
    rw [← howner, scopeOf_of_mem hv]
    refine ⟨hparent, (walked_mirrors c).parent_lt k s.frame ?_ v.scope hparent⟩
    rw [← scopes_ofCst, ScopeTree.getElem?_frames, hs, Option.map_some]
  opened := by
    intro n hn
    have hcount : (ofCst c).scopes.countP (·.owner == n.id) =
        ((ofCst c).scopes.map Scope.owner).count n.id := by
      rw [List.count, List.countP_map]
      rfl
    simp only [hcount, (owners_nodup c).count, mem_owners_iff hn, Node.opensScope_iff]
  owner := by
    intro s hs
    obtain ⟨k, hk⟩ := List.getElem?_of_mem hs
    obtain ⟨v, hv, howner, hkind, -⟩ := exists_visit_of_scope hk
    exact ⟨v.node, List.mem_map_of_mem hv, howner, hkind⟩
  scopeOwnedBy?_eq_some_iff := fun id k => scopeOwnedBy?_ofCst_eq_some_iff
  nearest := by
    intro n hn hne
    obtain ⟨v, hv, rfl⟩ := List.mem_map.mp hn
    obtain ⟨p, f, hp, hf, howner⟩ := nearest_of_mem hv hne
    have hplace := place_mem_of_mem_visits hv
    have hsame : v.ancestors.find? (fun p => ((ofCst c).scopeOwnedBy? p.id).isSome) = some p := by
      rw [← hp]
      refine List.find?_congr fun q hq => ?_
      obtain ⟨rest, hrest⟩ := Node.exists_mem_paths_of_mem hplace hq
      exact isSome_scopeOwnedBy? (mem_nodes_of_place hrest)
    refine ⟨p, by rw [ancestors_of_place hplace, hsame], ?_⟩
    rw [ScopeTree.getElem?_frames] at hf
    obtain ⟨s, hs, rfl⟩ := Option.map_eq_some_iff.mp hf
    rw [scopeOf_of_mem hv, scopeOwnedBy?_ofCst_eq_some_iff]
    exact ⟨s, hs, howner⟩

namespace ScopesMirrorNodes

variable {m : Model} (h : m.ScopesMirrorNodes)
include h

/-- Every scope but the first has an earlier scope around it. -/
theorem rooted : m.scopes.Rooted where
  first := by
    obtain ⟨s, hs, -, -, hparent⟩ := h.first
    rw [ScopeTree.parent?, hs, Option.bind_some, hparent]
  parent := by
    intro k hne hk
    have hs := List.getElem?_eq_getElem hk
    obtain ⟨hparent, hlt⟩ := h.parent k _ hs hne
    exact ⟨_, by rw [ScopeTree.parent?, hs, Option.bind_some, hparent], hlt⟩

/-- Around the scope of a node inside of another is the scope that the node sits in. -/
theorem outward_of_scopeOwnedBy? (htree : m.IsTree) {q : Node} (hq : m.ancestors q.id ≠ [])
    {k : Nat} (hk : m.scopeOwnedBy? q.id = some k) :
    m.scopes.outward k = k :: m.scopes.outward (m.scopeOf q.id) := by
  obtain ⟨s, hs, howner⟩ := (h.scopeOwnedBy?_eq_some_iff _ _).mp hk
  have hne : k ≠ 0 := by
    rintro rfl
    obtain ⟨s', hs', -, hroot, -⟩ := h.first
    obtain rfl := Option.some.inj (hs.symm.trans hs')
    obtain ⟨p, hp⟩ := List.exists_mem_of_ne_nil _ hq
    have hlt := htree.lt_of_mem_ancestors hp
    rw [← howner, hroot, htree.root_id] at hlt
    omega
  obtain ⟨hparent, hlt⟩ := h.parent k s hs hne
  rw [howner] at hparent hlt
  exact ScopeTree.outward_of_parent? (by rw [ScopeTree.parent?, hs, Option.bind_some, hparent]) hlt

/-- A node sits within the scope of every node around it that has one. -/
theorem isWithin_of_mem_ancestors (htree : m.IsTree) {n p : Node} (hn : n ∈ m.nodes)
    (hp : p ∈ m.ancestors n.id) {k : Nat} (hk : m.scopeOwnedBy? p.id = some k) :
    m.scopes.isWithin (m.scopeOf n.id) k = true := by
  rw [ScopeTree.isWithin, List.contains_iff_mem]
  induction hid : n.id using Nat.strongRecOn generalizing n with
  | _ id ih =>
    subst hid
    have hroot : n ≠ m.program.root := by
      rintro rfl
      have hlt := htree.lt_of_mem_ancestors hp
      rw [htree.root_id] at hlt
      omega
    obtain ⟨q, hq, hqk⟩ := h.nearest n hn hroot
    obtain ⟨-, inner, outer, hsplit, hinner⟩ := List.find?_eq_some_iff_append.mp hq
    -- Either `p` is the nearest node with a scope, or it is around that node too.
    rw [hsplit, List.mem_append, List.mem_cons] at hp
    rcases hp with hp | rfl | hp
    · simpa [hk] using hinner p hp
    · obtain rfl := Option.some.inj (hqk.symm.trans hk)
      exact m.scopes.mem_outward_self _
    · have hmem : q ∈ m.ancestors n.id := by simp [hsplit]
      rw [← htree.ancestors_of_eq_append hsplit] at hp
      rw [h.outward_of_scopeOwnedBy? htree (List.ne_nil_of_mem hp) hqk]
      exact List.mem_cons_of_mem _ (ih q.id (htree.lt_of_mem_ancestors hmem)
        (htree.mem_nodes_of_mem_ancestors hn hmem) hp rfl)

end ScopesMirrorNodes

/-- **The scopes mirror the nodes.** In the model of a lowered file the first scope is that of the
module, opened by the root; around any other scope is the earlier scope that the node which opened
it sits in; each node of the kinds that open scopes has opened exactly one and no other node has
any; and a node sits in the scope of the nearest node around it that has one. So a node sits within
the scope of every node around it that has one, and going outwards from a scope, from parent to
parent, ends at the first scope. -/
theorem scope_tree_mirrors_nodes (c : Cst) :
    (ofCst c).ScopesMirrorNodes ∧
    (∀ n ∈ (ofCst c).nodes, ∀ p ∈ (ofCst c).ancestors n.id, ∀ k,
      (ofCst c).scopeOwnedBy? p.id = some k →
        (ofCst c).scopes.isWithin ((ofCst c).scopeOf n.id) k = true) ∧
    (∀ k < (ofCst c).scopes.length,
      ((ofCst c).scopes.outward k).IsChain
        (fun inner outer => (ofCst c).scopes.parent? inner = some outer) ∧
      ((ofCst c).scopes.outward k).getLast? = some 0 ∧ (ofCst c).scopes.parent? 0 = none) := by
  have hmirror := scopesMirrorNodes_ofCst c
  refine ⟨hmirror, fun n hn p hp k hk => ?_, fun k hk => ?_⟩
  · exact hmirror.isWithin_of_mem_ancestors (isTree_ofCst c) hn hp hk
  · obtain ⟨hchain, hlast⟩ := hmirror.rooted.outward_spec hk
    exact ⟨hchain, hlast, hmirror.rooted.first⟩

end Model

end TsxLint
