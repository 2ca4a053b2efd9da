import Mathlib.Data.List.Chain
import Mathlib.Data.List.Dedup
import TsxLint.Component.Graph

/-!
# Chains are walks

A chain that was found while another component was in progress is kept, and is later put behind
components for which that other component is no longer in progress. It is still a walk on which
nothing but its end occurs twice. What makes the two ends fit is a discipline of the search: the
components of a kept chain, its end apart, have a kept chain themselves, and a component in progress
has none yet. So the component in front of a kept chain is not on it, save as its end.

## Main definitions

* `ComponentGraph.HandsOn`: the edges between registered components.
* `ComponentGraph.IsChainFrom`: walks whose components are known, their end apart.
* `ComponentGraph.Memo.Sound`: the discipline of the chains found so far.

## Main results

* `ComponentGraph.chainFrom_isChainFrom`: a search keeps the discipline and finds a walk.
* `ComponentGraph.chains_are_walks`: the chains of a graph, and how long they can be.
-/

namespace TsxLint

namespace ComponentGraph

variable {g : ComponentGraph}

/-! ### Walks -/

/-- A component hands its markup on to a registered one. -/
def HandsOn (g : ComponentGraph) (name child : String) : Prop :=
  child ∈ g.children name ∧ child ∈ g.names

/-- A walk that starts at `name`. Nothing but its end occurs on it twice, and what comes before the
end is `known`. -/
structure IsChainFrom (g : ComponentGraph) (known : List String) (name : String)
    (chain : List String) : Prop where
  head : chain.head? = some name
  steps : chain.IsChain g.HandsOn
  distinct : chain.dropLast.Nodup
  known : ∀ other ∈ chain.dropLast, other ∈ known

namespace IsChainFrom

variable {known : List String} {name child : String} {chain : List String}

theorem stub : IsChainFrom g known name [name] where
  head := rfl
  steps := List.isChain_singleton name
  distinct := List.nodup_nil
  known := by simp

theorem mono (h : IsChainFrom g known name chain) {known' : List String} (hsub : known ⊆ known') :
    IsChainFrom g known' name chain :=
  { h with known := fun other hother => hsub (h.known other hother) }

/-- A component that is not known yet can be put in front of a walk. -/
theorem cons (h : IsChainFrom g known child chain) (hstep : g.HandsOn name child)
    (hnew : name ∉ known) : IsChainFrom g (name :: known) name (name :: chain) := by
  have hne : chain ≠ [] := by
    rintro rfl
    cases h.head
  have hinit : (name :: chain).dropLast = name :: chain.dropLast := List.dropLast_cons_of_ne_nil hne
  refine ⟨rfl, ?_, ?_, ?_⟩
  · refine h.steps.cons fun next hnext => ?_
    rw [h.head, Option.mem_some_iff] at hnext
    exact hnext ▸ hstep
  · rw [hinit, List.nodup_cons]
    exact ⟨fun hname => hnew (h.known name hname), h.distinct⟩
  · rw [hinit]
    intro other hother
    rcases List.mem_cons.mp hother with rfl | hother
    · exact List.mem_cons_self
    · exact List.mem_cons_of_mem _ (h.known other hother)

end IsChainFrom

/-- What hands on is registered. -/
theorem mem_names_of_mem_dropLast {chain : List String} (hsteps : chain.IsChain g.HandsOn) :
    ∀ name ∈ chain.dropLast, name ∈ g.names := by
  induction hsteps with
  | nil => simp
  | singleton => simp
  | cons_cons hstep _ ih =>
    intro name hname
    rcases List.mem_cons.mp hname with rfl | hname
    · exact mem_names_of_mem_children hstep.1
    · exact ih name hname

/-- A walk that repeats nothing but its end is at most one component longer than there are
components. -/
theorem length_le_of_isChain {chain : List String} (hsteps : chain.IsChain g.HandsOn)
    (hdistinct : chain.dropLast.Nodup) : chain.length ≤ g.names.dedup.length + 1 := by
  have hsub : chain.dropLast ⊆ g.names.dedup := by
    intro name hname
    exact List.mem_dedup.mpr (mem_names_of_mem_dropLast hsteps name hname)
  have hle : chain.dropLast.length ≤ g.names.dedup.length := hdistinct.length_le_of_subset hsub
  rw [List.length_dropLast] at hle
  omega

/-! ### Known chains -/

namespace Memo

/-- The components whose chain is known. -/
def keys (memo : Memo) : List String := memo.map Prod.fst

/-- Every known chain is a walk through components with known chains, and no component in progress
has one. -/
structure Sound (g : ComponentGraph) (guard : Guard) (memo : Memo) : Prop where
  chain : ∀ entry ∈ memo, IsChainFrom g memo.keys entry.1 entry.2
  idle : ∀ name ∈ guard.active, name ∉ memo.keys

variable {guard : Guard} {memo : Memo} {name : String} {chain : List String}

theorem Sound.empty : Sound g Guard.empty [] where
  chain := by simp
  idle := by simp [Guard.empty]

theorem Sound.of_lookup (h : Sound g guard memo) (hlookup : memo.lookup name = some chain) :
    IsChainFrom g memo.keys name chain := by
  obtain ⟨before, after, heq, -⟩ := List.lookup_eq_some_iff.mp hlookup
  exact h.chain (name, chain) (by simp [heq])

/-- A walk can be kept for a component that is not in progress. -/
theorem Sound.insert (h : Sound g guard memo) (hidle : guard.isActive name = false)
    (hchain : IsChainFrom g (name :: memo.keys) name chain) :
    Sound g guard ((name, chain) :: memo) where
  chain := by
    intro entry hentry
    rcases List.mem_cons.mp hentry with rfl | hentry
    · exact hchain
    · exact (h.chain entry hentry).mono (List.subset_cons_self _ _)
  idle := by
    intro other hother hkey
    rcases List.mem_cons.mp hkey with rfl | hkey
    · exact Guard.isActive_eq_false_iff.mp hidle hother
    · exact h.idle other hother hkey

/-- A component without a known chain can be entered. -/
theorem Sound.enter (h : Sound g guard memo) (hlookup : memo.lookup name = none)
    (hidle : guard.isActive name = false) : Sound g (guard.enter name).2 memo where
  chain := h.chain
  idle := by
    rw [Guard.active_enter hidle]
    intro other hother hkey
    rcases List.mem_cons.mp hother with rfl | hother
    · obtain ⟨entry, hentry, heq⟩ := List.mem_map.mp hkey
      have hne := List.lookup_eq_none_iff.mp hlookup entry hentry
      simp [heq] at hne
    · exact h.idle other hother hkey

/-- A component that was entered is left without a known chain. -/
theorem Sound.leave (h : Sound g (guard.enter name).2 memo) (hidle : guard.isActive name = false) :
    Sound g guard memo ∧ name ∉ memo.keys := by
  have hactive := Guard.active_enter hidle
  refine ⟨⟨h.chain, fun other hother => h.idle other ?_⟩, h.idle name ?_⟩
  · rw [hactive]
    exact List.mem_cons_of_mem _ hother
  · rw [hactive]
    exact List.mem_cons_self

/-- What a search leaves: sound chains, and among them all that were known before. -/
structure Extends (g : ComponentGraph) (guard : Guard) (memo later : Memo) : Prop where
  sound : Sound g guard later
  keys : memo.keys ⊆ later.keys

theorem Extends.trans {later last : Memo} (h : Extends g guard memo later)
    (h' : Extends g guard later last) : Extends g guard memo last :=
  ⟨h'.sound, List.Subset.trans h.keys h'.keys⟩

end Memo

/-! ### Searches -/

/-- The best that the children of a component have to offer: nothing, or a walk from one of them. -/
def IsOffer (g : ComponentGraph) (known : List String) (name : String)
    (best : List String) : Prop :=
  best = [] ∨ ∃ child, g.HandsOn name child ∧ IsChainFrom g known child best

theorem IsOffer.mono {known known' best : List String} {name : String}
    (h : IsOffer g known name best) (hsub : known ⊆ known') : IsOffer g known' name best := by
  rcases h with rfl | ⟨child, hstep, hchain⟩
  · exact Or.inl rfl
  · exact Or.inr ⟨child, hstep, hchain.mono hsub⟩

/-- A component that is not known yet turns an offer into its chain. -/
theorem IsOffer.isChainFrom {known best : List String} {name : String}
    (h : IsOffer g known name best) (hnew : name ∉ known) :
    IsChainFrom g (name :: known) name (name :: best) := by
  rcases h with rfl | ⟨child, hstep, hchain⟩
  · exact .stub
  · exact hchain.cons hstep hnew

mutual

/-- A search keeps the known chains sound and finds a walk. -/
theorem chainFrom_isChainFrom (g : ComponentGraph) (guard : Guard) (memo : Memo) (name : String)
    (h : memo.Sound g guard) :
    memo.Extends g guard (g.chainFrom guard memo name).2 ∧
      IsChainFrom g (g.chainFrom guard memo name).2.keys name (g.chainFrom guard memo name).1 := by
  rw [chainFrom]
  split
  · rename_i chain hlookup
    exact ⟨⟨h, List.Subset.refl _⟩, h.of_lookup hlookup⟩
  · rename_i hlookup
    split_ifs with hactive hregistered
    · exact ⟨⟨h, List.Subset.refl _⟩, .stub⟩
    · have hidle : guard.isActive name = false := by simpa using hactive
      obtain ⟨hextends, hoffer⟩ := bestOf_isOffer g (guard.enter name).2 memo name (g.children name)
        [] (h.enter hlookup hidle) (List.Subset.refl _) (Or.inl rfl)
      -- While the children were searched the component was in progress, so no chain knows it.
      obtain ⟨hsound, hnew⟩ := hextends.sound.leave hidle
      have hchain := hoffer.isChainFrom hnew
      exact ⟨⟨hsound.insert hidle hchain, fun other hother =>
        List.mem_cons_of_mem _ (hextends.keys hother)⟩, hchain⟩
    · have hidle : guard.isActive name = false := by simpa using hactive
      exact ⟨⟨h.insert hidle .stub, List.subset_cons_self _ _⟩, .stub⟩
termination_by (guard.unvisited g.names, 0)
decreasing_by
  exact Prod.Lex.left _ _ (Guard.unvisited_enter_lt hregistered hidle)

/-- A search through children keeps the known chains sound, and the best it finds is an offer. -/
theorem bestOf_isOffer (g : ComponentGraph) (guard : Guard) (memo : Memo) (name : String)
    (children best : List String) (h : memo.Sound g guard) (hchildren : children ⊆ g.children name)
    (hbest : IsOffer g memo.keys name best) :
    memo.Extends g guard (g.bestOf guard memo children best).2 ∧
      IsOffer g (g.bestOf guard memo children best).2.keys name
        (g.bestOf guard memo children best).1 := by
  cases children with
  | nil =>
    rw [bestOf]
    exact ⟨⟨h, List.Subset.refl _⟩, hbest⟩
  | cons child rest =>
    obtain ⟨hchild, hrest⟩ := List.cons_subset.mp hchildren
    rw [bestOf]
    split_ifs with hregistered
    · obtain ⟨hextends, hchain⟩ := chainFrom_isChainFrom g guard memo child h
      have hstep : g.HandsOn name child := ⟨hchild, by simpa [contains] using hregistered⟩
      have hbest' : IsOffer g (g.chainFrom guard memo child).2.keys name
          (if best.length < (g.chainFrom guard memo child).1.length
            then (g.chainFrom guard memo child).1 else best) := by
        split_ifs with hlonger
        · exact Or.inr ⟨child, hstep, hchain⟩
        · exact hbest.mono hextends.keys
      obtain ⟨hextends', hoffer⟩ := bestOf_isOffer g guard _ name rest _ hextends.sound hrest hbest'
      exact ⟨hextends.trans hextends', hoffer⟩
    · exact bestOf_isOffer g guard memo name rest best h hrest hbest
termination_by (guard.unvisited g.names, children.length + 1)

end

/-! ### Chains of a graph -/

theorem chainsFrom_isChainFrom (memo : Memo) (names : List String)
    (h : memo.Sound g Guard.empty) :
    (g.chainsFrom memo names).map Prod.fst = names ∧
      ∀ found ∈ g.chainsFrom memo names, ∃ known, IsChainFrom g known found.1 found.2 := by
  induction names generalizing memo with
  | nil => simp [chainsFrom]
  | cons name rest ih =>
    obtain ⟨hextends, hchain⟩ := chainFrom_isChainFrom g Guard.empty memo name h
    obtain ⟨hnames, hchains⟩ := ih _ hextends.sound
    refine ⟨by rw [chainsFrom, List.map_cons, hnames], fun found hfound => ?_⟩
    rw [chainsFrom, List.mem_cons] at hfound
    rcases hfound with rfl | hfound
    · exact ⟨_, hchain⟩
    · exact hchains found hfound

/-- Every registered component has a chain, in order of registration. The chain starts at the
component and goes on along registered children. Nothing but its end occurs on it twice, so that it
is at most one component longer than there are components. -/
theorem chains_are_walks (g : ComponentGraph) :
    g.chains.map Prod.fst = g.names ∧
      ∀ found ∈ g.chains,
        found.2.head? = some found.1 ∧
        found.2.IsChain (fun a b => b ∈ g.children a ∧ b ∈ g.names) ∧
        found.2.dropLast.Nodup ∧
        found.2.length ≤ g.names.dedup.length + 1 := by
  obtain ⟨hnames, hchains⟩ := chainsFrom_isChainFrom [] g.names (Memo.Sound.empty (g := g))
  refine ⟨hnames, fun found hfound => ?_⟩
  obtain ⟨known, hchain⟩ := hchains found hfound
  have hlength := length_le_of_isChain hchain.steps hchain.distinct
  exact ⟨hchain.head, hchain.steps, hchain.distinct, hlength⟩

-- The bound is attained, and the chain of `B` is the one found while `A` was in progress.
example : (ComponentGraph.mk [("A", ["B"]), ("B", ["A"])]).chains =
    [("A", ["A", "B", "A"]), ("B", ["B", "A"])] := by
  cbv

end ComponentGraph

end TsxLint
