import Mathlib.Logic.Relation
import TsxLint.Proofs.Component.Chains
import TsxLint.Proofs.Data.Lookup

/-!
# Longest paths of acyclic graphs

On a graph without cycles no component is met while it is in progress, so no chain is cut short and
none depends on what was searched before it. The chain of a component is then a longest path, and
among the longest it goes on with the first child that offers one. This says what the chain is
without naming the order of registration, which therefore does not matter.

## Main definitions

* `ComponentGraph.Acyclic`, `ComponentGraph.IsPath`: graphs without cycles, and their paths.
* `ComponentGraph.LongestFrom`: the first longest path from a component.
* `ComponentGraph.Surveyed`: what a search through children knows about those it has seen.

## Main results

* `ComponentGraph.LongestFrom.eq`: there is one first longest path.
* `ComponentGraph.LongestFrom.length_le`: no path is longer.
* `ComponentGraph.chainFrom_longestFrom`: a search finds it, whatever is known already.
* `ComponentGraph.chains_longest_of_acyclic`: the chains of an acyclic graph.
-/

namespace TsxLint

namespace ComponentGraph

variable {g : ComponentGraph}

/-! ### Acyclic graphs -/

/-- No registered component reaches itself through registered children. -/
def Acyclic (g : ComponentGraph) : Prop :=
  ∀ name ∈ g.names, ¬ Relation.TransGen g.HandsOn name name

/-- A graph is acyclic if its edges lead down in some ranking. -/
theorem acyclic_of_rank (rank : String → Nat)
    (hrank : ∀ name ∈ g.names, ∀ child ∈ g.children name, child ∈ g.names →
      rank child < rank name) : g.Acyclic := by
  have hdown : ∀ {a b : String}, Relation.TransGen g.HandsOn a b → rank b < rank a := by
    intro a b hab
    induction hab with
    | single hstep => exact hrank _ (mem_names_of_mem_children hstep.1) _ hstep.1 hstep.2
    | tail _ hstep ih =>
      have hlast := hrank _ (mem_names_of_mem_children hstep.1) _ hstep.1 hstep.2
      omega
  intro name _ hcycle
  exact Nat.lt_irrefl _ (hdown hcycle)

theorem Acyclic.not_transGen (hg : g.Acyclic) (name : String) :
    ¬ Relation.TransGen g.HandsOn name name := by
  intro hcycle
  obtain ⟨child, hstep, -⟩ := Relation.TransGen.head'_iff.mp hcycle
  exact hg name (mem_names_of_mem_children hstep.1) hcycle

theorem Acyclic.congr {g' : ComponentGraph} (hg : g.Acyclic)
    (hnames : ∀ name, name ∈ g'.names ↔ name ∈ g.names)
    (hchildren : ∀ name, g'.children name = g.children name) : g'.Acyclic := by
  have hsteps (a b : String) (hstep : g'.HandsOn a b) : g.HandsOn a b := by
    rwa [HandsOn, ← hchildren, ← hnames]
  intro name _ hcycle
  exact hg.not_transGen name (Relation.TransGen.mono hsteps _ _ hcycle)

/-- A path of registered components that starts at `name`. -/
structure IsPath (g : ComponentGraph) (name : String) (path : List String) : Prop where
  head : path.head? = some name
  registered : ∀ other ∈ path, other ∈ g.names
  steps : path.IsChain fun a b => b ∈ g.children a

namespace IsPath

variable {name child : String} {path : List String}

theorem singleton (hname : name ∈ g.names) : g.IsPath name [name] where
  head := rfl
  registered := by simpa using hname
  steps := List.isChain_singleton name

theorem cons (h : g.IsPath child path) (hname : name ∈ g.names)
    (hchild : child ∈ g.children name) : g.IsPath name (name :: path) where
  head := rfl
  registered := by
    intro other hother
    rcases List.mem_cons.mp hother with rfl | hother
    · exact hname
    · exact h.registered other hother
  steps := by
    refine h.steps.cons fun next hnext => ?_
    rw [h.head, Option.mem_some_iff] at hnext
    exact hnext ▸ hchild

/-- A path is its first component alone, or goes on as a path from one of its children. -/
theorem cases_on (h : g.IsPath name path) :
    path = [name] ∨
      ∃ next rest, path = name :: rest ∧ g.HandsOn name next ∧ g.IsPath next rest := by
  obtain ⟨rest, rfl⟩ : ∃ rest, path = name :: rest := List.head?_eq_some_iff.mp h.head
  cases rest with
  | nil => exact Or.inl rfl
  | cons next rest =>
    obtain ⟨hstep, hsteps⟩ := List.isChain_cons_cons.mp h.steps
    have hnext : next ∈ g.names := h.registered next (by simp)
    refine Or.inr ⟨next, next :: rest, rfl, ⟨hstep, hnext⟩, rfl, ?_, hsteps⟩
    exact fun other hother => h.registered other (List.mem_cons_of_mem _ hother)

end IsPath

/-! ### The first longest path -/

/-- The first longest path from a component: it goes on along the first child whose own first
longest path is as long as that of any other, and ends where no child is registered. -/
inductive LongestFrom (g : ComponentGraph) : String → List String → Prop
  | last {name : String} (hlast : ∀ child, ¬ g.HandsOn name child) : LongestFrom g name [name]
  | step {name child : String} {before after : List String} (chainOf : String → List String)
      (hsplit : g.children name = before ++ child :: after) (hchild : child ∈ g.names)
      (hchains : ∀ other, g.HandsOn name other → LongestFrom g other (chainOf other))
      (hbefore : ∀ other ∈ before, other ∈ g.names →
        (chainOf other).length < (chainOf child).length)
      (hafter : ∀ other ∈ after, other ∈ g.names →
        (chainOf other).length ≤ (chainOf child).length) :
      LongestFrom g name (name :: chainOf child)

namespace LongestFrom

variable {name : String} {chain : List String}

theorem ne_nil (h : g.LongestFrom name chain) : chain ≠ [] := by
  cases h <;> simp

/-- Of two first longest children neither comes before the other. -/
private theorem child_eq_of_split (length : String → Nat)
    {children before before' after after' : List String} {child child' : String}
    (hsplit : children = before ++ child :: after)
    (hsplit' : children = before' ++ child' :: after')
    (hbefore' : child ∈ before' → length child < length child')
    (hafter : child' ∈ after → length child' ≤ length child)
    (hbefore : child' ∈ before → length child' < length child)
    (hafter' : child ∈ after' → length child ≤ length child') : child = child' := by
  rcases List.append_eq_append_iff.mp (hsplit.symm.trans hsplit') with
    ⟨mid, hmid, htail⟩ | ⟨mid, hmid, htail⟩
  · cases mid with
    | nil => exact (List.cons.inj htail).1
    | cons head mid =>
      obtain ⟨rfl, hafter_eq⟩ := List.cons.inj htail
      have hlt := hbefore' (by simp [hmid])
      have hle := hafter (by simp [hafter_eq])
      omega
  · cases mid with
    | nil => exact (List.cons.inj htail).1.symm
    | cons head mid =>
      obtain ⟨rfl, hafter_eq⟩ := List.cons.inj htail
      have hlt := hbefore (by simp [hmid])
      have hle := hafter' (by simp [hafter_eq])
      omega

/-- There is one first longest path from a component. -/
theorem eq (h : g.LongestFrom name chain) {chain' : List String}
    (h' : g.LongestFrom name chain') : chain = chain' := by
  induction h generalizing chain' with
  | last hlast =>
    cases h' with
    | last => rfl
    | step _ hsplit hchild => exact absurd ⟨by simp [hsplit], hchild⟩ (hlast _)
  | @step name child before after chainOf hsplit hchild hchains hbefore hafter ih =>
    cases h' with
    | last hlast => exact absurd ⟨by simp [hsplit], hchild⟩ (hlast child)
    | @step _ child' before' after' chainOf' hsplit' hchild' hchains' hbefore' hafter' =>
      have hstep : g.HandsOn name child := ⟨by simp [hsplit], hchild⟩
      have hstep' : g.HandsOn name child' := ⟨by simp [hsplit'], hchild'⟩
      have hsame (other : String) (hother : g.HandsOn name other) :
          chainOf other = chainOf' other := ih other hother (hchains' other hother)
      obtain rfl : child = child' := by
        refine child_eq_of_split (fun other => (chainOf other).length) hsplit hsplit'
          (fun hmem => ?_) (fun hmem => hafter child' hmem hchild')
          (fun hmem => hbefore child' hmem hchild') (fun hmem => ?_)
        · rw [hsame child hstep, hsame child' hstep']
          exact hbefore' child hmem hchild
        · rw [hsame child hstep, hsame child' hstep']
          exact hafter' child hmem hchild
      rw [hsame child hstep]

/-- The first longest path is a path. -/
theorem isPath (h : g.LongestFrom name chain) (hname : name ∈ g.names) : g.IsPath name chain := by
  induction h with
  | last _ => exact .singleton hname
  | @step name child _ _ _ hsplit hchild _ _ _ ih =>
    have hstep : g.HandsOn name child := ⟨by simp [hsplit], hchild⟩
    exact (ih child hstep hchild).cons hname hstep.1

/-- No path from a component is longer than the first longest. -/
theorem length_le (h : g.LongestFrom name chain) {path : List String}
    (hpath : g.IsPath name path) : path.length ≤ chain.length := by
  induction h generalizing path with
  | last hlast =>
    rcases hpath.cases_on with rfl | ⟨next, rest, -, hstep, -⟩
    · exact Nat.le_refl _
    · exact absurd hstep (hlast next)
  | @step name child before after chainOf hsplit hchild _ hbefore hafter ih =>
    rcases hpath.cases_on with rfl | ⟨next, rest, rfl, hstep, hrest⟩
    · simp
    · have hle : rest.length ≤ (chainOf next).length := ih next hstep hrest
      have hbest : (chainOf next).length ≤ (chainOf child).length := by
        have hmem := hstep.1
        rw [hsplit, List.mem_append, List.mem_cons] at hmem
        rcases hmem with hmem | rfl | hmem
        · exact Nat.le_of_lt (hbefore next hmem hstep.2)
        · exact Nat.le_refl _
        · exact hafter next hmem hstep.2
      rw [List.length_cons, List.length_cons]
      omega

/-- The first longest path of a component is longer than those of its registered children. -/
theorem length_lt {child : String} {chain' : List String} (h : g.LongestFrom name chain)
    (hstep : g.HandsOn name child) (h' : g.LongestFrom child chain') :
    chain'.length < chain.length := by
  have hname : name ∈ g.names := mem_names_of_mem_children hstep.1
  exact h.length_le ((h'.isPath hstep.2).cons hname hstep.1)

/-- The first longest path depends on the edges, and on which components are registered. -/
theorem congr {g' : ComponentGraph} (hnames : ∀ name, name ∈ g'.names ↔ name ∈ g.names)
    (hchildren : ∀ name, g'.children name = g.children name) (h : g.LongestFrom name chain) :
    g'.LongestFrom name chain := by
  have hsteps (a b : String) : g'.HandsOn a b ↔ g.HandsOn a b := by
    rw [HandsOn, HandsOn, hchildren, hnames]
  induction h with
  | last hlast => exact .last fun child hstep => hlast child ((hsteps _ _).mp hstep)
  | step chainOf hsplit hchild _ hbefore hafter ih =>
    refine .step chainOf ((hchildren _).trans hsplit) ((hnames _).mpr hchild) ?_ ?_ ?_
    · exact fun other hother => ih other ((hsteps _ _).mp hother)
    · exact fun other hother hreg => hbefore other hother ((hnames other).mp hreg)
    · exact fun other hother hreg => hafter other hother ((hnames other).mp hreg)

end LongestFrom

/-! ### Searching an acyclic graph -/

/-- What is known after some children were searched: all of them have a first longest path, `best`
is as long as any, and it is that of the first child with one so long. -/
structure Surveyed (g : ComponentGraph) (seen best : List String) : Prop where
  exists_chain : ∀ child ∈ seen, child ∈ g.names → ∃ chain, g.LongestFrom child chain
  length_le : ∀ child ∈ seen, child ∈ g.names → ∀ chain, g.LongestFrom child chain →
    chain.length ≤ best.length
  first : best = [] ∨ ∃ before child after, seen = before ++ child :: after ∧ child ∈ g.names ∧
    g.LongestFrom child best ∧ ∀ other ∈ before, other ∈ g.names →
      ∀ chain, g.LongestFrom other chain → chain.length < best.length

namespace Surveyed

variable {seen best : List String} {child : String}

theorem nil : g.Surveyed [] [] where
  exists_chain := by simp
  length_le := by simp
  first := Or.inl rfl

/-- A child that is not registered is passed over. -/
theorem skip (h : g.Surveyed seen best) (hchild : child ∉ g.names) :
    g.Surveyed (seen ++ [child]) best where
  exists_chain := by
    intro other hother hreg
    rcases List.mem_append.mp hother with hother | hother
    · exact h.exists_chain other hother hreg
    · obtain rfl := List.mem_singleton.mp hother
      exact absurd hreg hchild
  length_le := by
    intro other hother hreg
    rcases List.mem_append.mp hother with hother | hother
    · exact h.length_le other hother hreg
    · obtain rfl := List.mem_singleton.mp hother
      exact absurd hreg hchild
  first := by
    rcases h.first with hbest | ⟨before, first, after, rfl, hfirst⟩
    · exact Or.inl hbest
    · exact Or.inr ⟨before, first, after ++ [child], by simp, hfirst⟩

/-- A registered child takes the lead if its path is longer than the best so far. -/
theorem step (h : g.Surveyed seen best) (hchild : child ∈ g.names) {chain : List String}
    (hchain : g.LongestFrom child chain) :
    g.Surveyed (seen ++ [child]) (if best.length < chain.length then chain else best) where
  exists_chain := by
    intro other hother hreg
    rcases List.mem_append.mp hother with hother | hother
    · exact h.exists_chain other hother hreg
    · obtain rfl := List.mem_singleton.mp hother
      exact ⟨chain, hchain⟩
  length_le := by
    have hbest : best.length ≤ (if best.length < chain.length then chain else best).length ∧
        chain.length ≤ (if best.length < chain.length then chain else best).length := by
      split_ifs <;> omega
    intro other hother hreg found hfound
    rcases List.mem_append.mp hother with hother | hother
    · exact Nat.le_trans (h.length_le other hother hreg found hfound) hbest.1
    · obtain rfl := List.mem_singleton.mp hother
      rw [hfound.eq hchain]
      exact hbest.2
  first := by
    split_ifs with hlonger
    · refine Or.inr ⟨seen, child, [], rfl, hchild, hchain, fun other hother hreg found hfound => ?_⟩
      exact Nat.lt_of_le_of_lt (h.length_le other hother hreg found hfound) hlonger
    · rcases h.first with rfl | ⟨before, first, after, rfl, hfirst⟩
      · have hpos := List.length_pos_of_ne_nil hchain.ne_nil
        exact absurd hpos hlonger
      · exact Or.inr ⟨before, first, after ++ [child], by simp, hfirst⟩

/-- Once all children were searched, the component itself has a first longest path. -/
theorem longestFrom {name : String} (h : g.Surveyed (g.children name) best) :
    g.LongestFrom name (name :: best) := by
  have hexists (child : String) : ∃ chain, g.HandsOn name child → g.LongestFrom child chain := by
    by_cases hstep : g.HandsOn name child
    · obtain ⟨chain, hchain⟩ := h.exists_chain child hstep.1 hstep.2
      exact ⟨chain, fun _ => hchain⟩
    · exact ⟨[], fun hstep' => absurd hstep' hstep⟩
  choose chainOf hchainOf using hexists
  rcases h.first with rfl | ⟨before, child, after, hsplit, hchild, hbest, hbefore⟩
  · refine .last fun child hstep => ?_
    have hle := h.length_le child hstep.1 hstep.2 _ (hchainOf child hstep)
    have hpos := List.length_pos_of_ne_nil (hchainOf child hstep).ne_nil
    exact absurd hle (Nat.not_le_of_lt hpos)
  · have hstep : g.HandsOn name child := ⟨by simp [hsplit], hchild⟩
    obtain rfl : best = chainOf child := hbest.eq (hchainOf child hstep)
    refine .step chainOf hsplit hchild hchainOf (fun other hother hreg => ?_)
      fun other hother hreg => ?_
    · exact hbefore other hother hreg _ (hchainOf other ⟨by simp [hsplit, hother], hreg⟩)
    · have hmem : other ∈ g.children name := by simp [hsplit, hother]
      exact h.length_le other hmem hreg _ (hchainOf other ⟨hmem, hreg⟩)

end Surveyed

/-- Every known chain is the first longest path of its component. -/
def Memo.Exact (g : ComponentGraph) (memo : Memo) : Prop :=
  ∀ entry ∈ memo, g.LongestFrom entry.1 entry.2

mutual

/-- A search of an acyclic graph finds the first longest path, whatever exact chains are known and
whichever of the components that lead to this one are in progress. -/
theorem chainFrom_longestFrom (hg : g.Acyclic) (guard : Guard) (memo : Memo) (name : String)
    (hmemo : memo.Exact g) (hname : name ∈ g.names)
    (hguard : ∀ other ∈ guard.active, Relation.TransGen g.HandsOn other name) :
    g.LongestFrom name (g.chainFrom guard memo name).1 ∧
      (g.chainFrom guard memo name).2.Exact g := by
  rw [chainFrom]
  split
  · rename_i chain hlookup
    obtain ⟨before, after, heq, -⟩ := List.lookup_eq_some_iff.mp hlookup
    exact ⟨hmemo (name, chain) (by simp [heq]), hmemo⟩
  · -- A component in progress leads to this one, so it is another one.
    have hidle : guard.isActive name = false := by
      rw [Guard.isActive_eq_false_iff]
      exact fun hactive => hg.not_transGen name (hguard name hactive)
    rw [if_neg (by simp [hidle]), if_pos hname]
    have hguard' : ∀ other ∈ (guard.enter name).2.active,
        Relation.ReflTransGen g.HandsOn other name := by
      rw [Guard.active_enter hidle]
      intro other hother
      rcases List.mem_cons.mp hother with rfl | hother
      · exact .refl
      · exact (hguard other hother).to_reflTransGen
    obtain ⟨hsurveyed, hexact⟩ := bestOf_surveyed hg (guard.enter name).2 memo name []
      (g.children name) [] hmemo rfl .nil hguard'
    have hchain := hsurveyed.longestFrom
    refine ⟨hchain, fun entry hentry => ?_⟩
    rcases List.mem_cons.mp hentry with rfl | hentry
    · exact hchain
    · exact hexact entry hentry
termination_by (guard.unvisited g.names, 0)
decreasing_by
  exact Prod.Lex.left _ _ (Guard.unvisited_enter_lt hname hidle)

/-- A search through the children of a component that were not seen yet surveys them all. -/
theorem bestOf_surveyed (hg : g.Acyclic) (guard : Guard) (memo : Memo) (name : String)
    (seen children best : List String) (hmemo : memo.Exact g)
    (hchildren : g.children name = seen ++ children) (hseen : g.Surveyed seen best)
    (hguard : ∀ other ∈ guard.active, Relation.ReflTransGen g.HandsOn other name) :
    g.Surveyed (g.children name) (g.bestOf guard memo children best).1 ∧
      (g.bestOf guard memo children best).2.Exact g := by
  cases children with
  | nil =>
    rw [bestOf, hchildren, List.append_nil]
    exact ⟨hseen, hmemo⟩
  | cons child rest =>
    have hsplit : g.children name = (seen ++ [child]) ++ rest := by simp [hchildren]
    rw [bestOf]
    split_ifs with hregistered
    · have hchild : child ∈ g.names := by simpa [contains] using hregistered
      have hstep : g.HandsOn name child := ⟨by simp [hchildren], hchild⟩
      obtain ⟨hchain, hexact⟩ := chainFrom_longestFrom hg guard memo child hmemo hchild
        fun other hother => Relation.TransGen.tail' (hguard other hother) hstep
      exact bestOf_surveyed hg guard _ name _ rest _ hexact hsplit (hseen.step hchild hchain) hguard
    · have hchild : child ∉ g.names := by simpa [contains] using hregistered
      exact bestOf_surveyed hg guard memo name _ rest best hmemo hsplit (hseen.skip hchild) hguard
termination_by (guard.unvisited g.names, children.length + 1)

end

/-! ### Chains of an acyclic graph -/

/-- The order in which components are registered does not matter to their edges. -/
theorem children_of_perm {g' : ComponentGraph} (hentries : g'.entries.Perm g.entries)
    (hnodup : g.names.Nodup) (name : String) : g'.children name = g.children name := by
  rw [children, children, lookup_of_perm hentries hnodup name]

theorem chainsFrom_longestFrom (hg : g.Acyclic) (memo : Memo) (names : List String)
    (hmemo : memo.Exact g) (hnames : names ⊆ g.names) :
    ∀ found ∈ g.chainsFrom memo names, g.LongestFrom found.1 found.2 := by
  induction names generalizing memo with
  | nil => simp [chainsFrom]
  | cons name rest ih =>
    obtain ⟨hname, hrest⟩ := List.cons_subset.mp hnames
    obtain ⟨hchain, hexact⟩ := chainFrom_longestFrom hg Guard.empty memo name hmemo hname
      (by simp [Guard.empty])
    intro found hfound
    rw [chainsFrom, List.mem_cons] at hfound
    rcases hfound with rfl | hfound
    · exact hchain
    · exact ih _ hexact hrest found hfound

theorem map_fst_chains (g : ComponentGraph) : g.chains.map Prod.fst = g.names :=
  (chainsFrom_isChainFrom [] g.names (Memo.Sound.empty (g := g))).1

/-- The components that have a chain are the registered ones. -/
theorem mem_names_iff_exists_chain {name : String} :
    name ∈ g.names ↔ ∃ chain, (name, chain) ∈ g.chains := by
  rw [← map_fst_chains, List.mem_map]
  constructor
  · rintro ⟨⟨other, chain⟩, hmem, rfl⟩
    exact ⟨chain, hmem⟩
  · rintro ⟨chain, hmem⟩
    exact ⟨(name, chain), hmem, rfl⟩

/-- The chains of an acyclic graph are the first longest paths of its components. -/
theorem mem_chains_iff (hg : g.Acyclic) {name : String} {chain : List String} :
    (name, chain) ∈ g.chains ↔ name ∈ g.names ∧ g.LongestFrom name chain := by
  have hall : ∀ found ∈ g.chains, g.LongestFrom found.1 found.2 :=
    chainsFrom_longestFrom hg [] g.names (by simp [Memo.Exact]) (List.Subset.refl _)
  constructor
  · exact fun hmem => ⟨mem_names_iff_exists_chain.mpr ⟨chain, hmem⟩, hall _ hmem⟩
  · rintro ⟨hname, hchain⟩
    obtain ⟨found, hfound⟩ := mem_names_iff_exists_chain.mp hname
    rw [hchain.eq (hall _ hfound)]
    exact hfound

/-- How the chain of a component of an acyclic graph goes on, in terms of the chains of others. -/
theorem chain_step_of_mem_chains (hg : g.Acyclic) {name : String} {chain : List String}
    (hmem : (name, chain) ∈ g.chains) :
    (chain = [name] ∧ ∀ child ∈ g.children name, child ∉ g.names) ∨
      ∃ before child after rest, g.children name = before ++ child :: after ∧
        chain = name :: rest ∧ (child, rest) ∈ g.chains ∧
        (∀ other ∈ before, ∀ found, (other, found) ∈ g.chains → found.length < rest.length) ∧
        (∀ other ∈ after, ∀ found, (other, found) ∈ g.chains → found.length ≤ rest.length) := by
  cases ((mem_chains_iff hg).mp hmem).2 with
  | last hlast => exact Or.inl ⟨rfl, fun child hchild hreg => hlast child ⟨hchild, hreg⟩⟩
  | @step _ child before after chainOf hsplit hchild hchains hbefore hafter =>
    have hother {other : String} {found : List String} (hin : other ∈ g.children name)
        (hfound : (other, found) ∈ g.chains) : other ∈ g.names ∧ chainOf other = found := by
      obtain ⟨hreg, hlongest⟩ := (mem_chains_iff hg).mp hfound
      exact ⟨hreg, (hchains other ⟨hin, hreg⟩).eq hlongest⟩
    refine Or.inr ⟨before, child, after, chainOf child, hsplit, rfl, ?_, ?_, ?_⟩
    · exact (mem_chains_iff hg).mpr ⟨hchild, hchains child ⟨by simp [hsplit], hchild⟩⟩
    · intro other hmem' found hfound
      obtain ⟨hreg, rfl⟩ := hother (by simp [hsplit, hmem']) hfound
      exact hbefore other hmem' hreg
    · intro other hmem' found hfound
      obtain ⟨hreg, rfl⟩ := hother (by simp [hsplit, hmem']) hfound
      exact hafter other hmem' hreg

/-- **On acyclic graphs chains are longest paths.** Every component has a chain, which is a path of
registered components that no other path from the component exceeds. It goes on with the chain of
the first child whose chain is as long as any, and ends where no child is registered. A graph with
the same components and edges gives every component the same chain, in whatever order its components
were registered. -/
theorem chains_longest_of_acyclic (g : ComponentGraph) (hg : g.Acyclic) :
    g.chains.map Prod.fst = g.names ∧
    (∀ name chain, (name, chain) ∈ g.chains →
      g.IsPath name chain ∧
      (∀ path, g.IsPath name path → path.length ≤ chain.length) ∧
      ((chain = [name] ∧ ∀ child ∈ g.children name, child ∉ g.names) ∨
        ∃ before child after rest, g.children name = before ++ child :: after ∧
          chain = name :: rest ∧ (child, rest) ∈ g.chains ∧
          (∀ other ∈ before, ∀ found, (other, found) ∈ g.chains → found.length < rest.length) ∧
          (∀ other ∈ after, ∀ found, (other, found) ∈ g.chains → found.length ≤ rest.length))) ∧
    (∀ g' : ComponentGraph, g'.names.Perm g.names →
      (∀ name, g'.children name = g.children name) →
      ∀ name chain, (name, chain) ∈ g'.chains ↔ (name, chain) ∈ g.chains) := by
  refine ⟨map_fst_chains g, fun name chain hmem => ?_, fun g' hnames hchildren name chain => ?_⟩
  · obtain ⟨hname, hlongest⟩ := (mem_chains_iff hg).mp hmem
    exact ⟨hlongest.isPath hname, fun path hpath => hlongest.length_le hpath,
      chain_step_of_mem_chains hg hmem⟩
  · have hsame (other : String) : other ∈ g'.names ↔ other ∈ g.names := hnames.mem_iff
    have hg' : g'.Acyclic := hg.congr hsame hchildren
    rw [mem_chains_iff hg, mem_chains_iff hg', hsame]
    refine and_congr_right fun _ => ⟨?_, LongestFrom.congr hsame hchildren⟩
    exact LongestFrom.congr (fun other => (hsame other).symm) fun other => (hchildren other).symm

/-- The graph in which `A` hands on to `B` and `C`, and both to `D`. -/
private def diamond : ComponentGraph :=
  ⟨[("A", ["B", "C"]), ("B", ["D"]), ("C", ["D", "Button"]), ("D", [])]⟩

/-- Registering the components of a diamond the other way round changes no chain. -/
theorem chains_longest_of_diamond :
    diamond.Acyclic ∧
    ∀ name chain, (name, chain) ∈ (ComponentGraph.mk diamond.entries.reverse).chains ↔
      (name, chain) ∈ diamond.chains := by
  have hg : diamond.Acyclic :=
    acyclic_of_rank (fun name => if name = "A" then 2 else if name = "D" then 0 else 1) (by decide)
  refine ⟨hg, (chains_longest_of_acyclic diamond hg).2.2 _ ?_ ?_⟩
  · exact (List.reverse_perm diamond.entries).map Prod.fst
  · exact children_of_perm (List.reverse_perm _) (by decide)

-- Both children of `A` offer a chain of two, and the tie goes to the first.
example : (ComponentGraph.mk [("A", ["B", "C"]), ("B", ["D"]), ("C", ["D"]), ("D", [])]).chains =
    [("A", ["A", "B", "D"]), ("B", ["B", "D"]), ("C", ["C", "D"]), ("D", ["D"])] := by
  cbv

end ComponentGraph

end TsxLint
