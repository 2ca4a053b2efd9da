import TsxLint.Guard

/-!
# Component graphs

A `ComponentGraph` records which components a component hands its markup on to. Names keep the
order in which they were first registered. The chain of a component is a longest path of registered
components that starts at it; a component that is met again on the current path ends the path as a
stub of length one. Chains are computed once per graph and reused, so a chain found while another
component was in progress is kept as it was found.

## Main definitions

* `ComponentGraph.insert`, `ComponentGraph.children`: registration and its edges.
* `ComponentGraph.chainFrom`: the chain of one component, with the chains known so far.
* `ComponentGraph.chains`: the chain of every component.
* `ComponentGraph.flaggedRoots`: the components whose chain is too long, roots only.
-/

namespace TsxLint

/-- The registered components, each with the components it hands on to. -/
structure ComponentGraph where
  entries : List (String × List String)
  deriving DecidableEq, Repr, Inhabited

namespace ComponentGraph

/-- The graph without components. -/
def empty : ComponentGraph := ⟨[]⟩

/-- The names in order of registration. -/
def names (g : ComponentGraph) : List String := g.entries.map Prod.fst

/-- Whether a component is registered. -/
def contains (g : ComponentGraph) (name : String) : Bool := g.names.contains name

/-- The components that `name` hands on to; none if it is not registered. -/
def children (g : ComponentGraph) (name : String) : List String :=
  (g.entries.lookup name).getD []

/-- The list with later repetitions dropped. -/
def dedup (names : List String) : List String :=
  names.foldl (fun kept name => if kept.contains name then kept else kept ++ [name]) []

/-- Registers a component. Registering it again replaces its edges and keeps its place. -/
def insert (g : ComponentGraph) (name : String) (children : List String) : ComponentGraph :=
  if g.contains name then
    ⟨g.entries.map fun e => if e.1 == name then (name, dedup children) else e⟩
  else ⟨g.entries ++ [(name, dedup children)]⟩

theorem mem_names_of_mem_children {g : ComponentGraph} {name child : String}
    (h : child ∈ g.children name) : name ∈ g.names := by
  unfold children at h
  cases hl : g.entries.lookup name with
  | none => simp [hl] at h
  | some _ =>
    obtain ⟨before, after, heq, -⟩ := List.lookup_eq_some_iff.mp hl
    simp [names, heq]

/-- Chains found so far. -/
abbrev Memo := List (String × List String)

mutual

/-- The chain of `name` while the names of `guard` are in progress, with the chains known
afterwards. -/
def chainFrom (g : ComponentGraph) (guard : Guard) (memo : Memo) (name : String) :
    List String × Memo :=
  match memo.lookup name with
  | some chain => (chain, memo)
  | none =>
    if guard.isActive name = true then ([name], memo)
    else if name ∈ g.names then
      let found := bestOf g (guard.enter name).2 memo (g.children name) []
      let chain := name :: found.1
      (chain, (name, chain) :: found.2)
    else ([name], (name, [name]) :: memo)
termination_by (guard.unvisited g.names, 0)
decreasing_by
  exact Prod.Lex.left _ _ (Guard.unvisited_enter_lt ‹_› (by simpa using ‹¬guard.isActive name = true›))

/-- The first longest chain among `best` and those of the registered children. -/
def bestOf (g : ComponentGraph) (guard : Guard) (memo : Memo) (children best : List String) :
    List String × Memo :=
  match children with
  | [] => (best, memo)
  | child :: rest =>
    if g.contains child then
      let found := chainFrom g guard memo child
      bestOf g guard found.2 rest (if best.length < found.1.length then found.1 else best)
    else bestOf g guard memo rest best
termination_by (guard.unvisited g.names, children.length + 1)

end

/-- The chain of one component, nothing else being known. -/
def chain (g : ComponentGraph) (name : String) : List String :=
  (g.chainFrom Guard.empty [] name).1

/-- The chains of `names`, each computed with those known before it. -/
def chainsFrom (g : ComponentGraph) (memo : Memo) : List String → List (String × List String)
  | [] => []
  | name :: rest =>
    let found := g.chainFrom Guard.empty memo name
    (name, found.1) :: chainsFrom g found.2 rest

/-- The chain of every component, in order of registration. -/
def chains (g : ComponentGraph) : List (String × List String) := g.chainsFrom [] g.names

/-- A component whose chain is longer than allowed. -/
structure FlaggedChain where
  name : String
  chain : List String
  deriving DecidableEq, Repr, Inhabited

/-- The number of components on the chain. -/
def FlaggedChain.depth (f : FlaggedChain) : Nat := f.chain.length

/-- The component that the chain is handed on to first, or its root. -/
def FlaggedChain.nextHandoff (f : FlaggedChain) : String := f.chain[1]?.getD f.name

/-- The order of a report: deepest first, then by name. -/
def FlaggedChain.le (a b : FlaggedChain) : Bool :=
  b.depth < a.depth || (a.depth == b.depth && !(b.name < a.name))

/-- The components whose chain is longer than `allowed`, in the order of a report. -/
def overLimit (g : ComponentGraph) (allowed : Nat) : List FlaggedChain :=
  (((g.chains.filter fun c => allowed < c.2.length).map fun c => ⟨c.1, c.2⟩).mergeSort
    FlaggedChain.le)

/-- The components over the limit that are no direct child of a deeper one. -/
def flaggedRoots (g : ComponentGraph) (allowed : Nat) : List FlaggedChain :=
  let flagged := g.overLimit allowed
  flagged.filter fun f =>
    !flagged.any fun parent =>
      parent.name != f.name && f.depth < parent.depth && (g.children parent.name).contains f.name

end ComponentGraph

end TsxLint
