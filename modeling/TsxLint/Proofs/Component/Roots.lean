import TsxLint.Proofs.Component.LongestPaths

/-!
# Flagged roots

Of the components whose chain is too long only the roots are reported: a component is left out if a
deeper one that is reported or left out itself hands on to it. Depth goes up strictly from a
component to what hides it, and is bounded, so that following what hides a component ends at a root.
Hence nothing is lost, on cyclic graphs too.

## Main definitions

* `ComponentGraph.Hides`: a component over the limit is left out on account of another.

## Main results

* `ComponentGraph.chain_eq_of_mem_chains`: a component has one chain.
* `ComponentGraph.mem_flaggedRoots`: which components are reported.
* `ComponentGraph.exists_root_of_mem_overLimit`: a component over the limit lies below a root.
* `ComponentGraph.flaggedRoots_lose_nothing`: what is reported stands for all that is not.
-/

namespace TsxLint

namespace ComponentGraph

variable {g : ComponentGraph} {allowed : Nat}

/-! ### One chain per component -/

mutual

/-- A search keeps the chains that are known. -/
theorem lookup_chainFrom (g : ComponentGraph) (guard : Guard) (memo : Memo) (name : String)
    {other : String} {chain : List String} (h : memo.lookup other = some chain) :
    (g.chainFrom guard memo name).2.lookup other = some chain := by
  rw [chainFrom]
  split
  · exact h
  · rename_i hlookup
    have hne : (other == name) = false := by
      rw [beq_eq_false_iff_ne]
      rintro rfl
      rw [hlookup] at h
      cases h
    split_ifs with hactive hregistered
    · exact h
    · rw [List.lookup_cons, hne]
      exact lookup_bestOf g (guard.enter name).2 memo (g.children name) [] h
    · rw [List.lookup_cons, hne]
      exact h
termination_by (guard.unvisited g.names, 0)
decreasing_by
  exact Prod.Lex.left _ _
    (Guard.unvisited_enter_lt hregistered (by simpa using hactive))

/-- A search through children keeps the chains that are known. -/
theorem lookup_bestOf (g : ComponentGraph) (guard : Guard) (memo : Memo)
    (children best : List String) {other : String} {chain : List String}
    (h : memo.lookup other = some chain) :
    (g.bestOf guard memo children best).2.lookup other = some chain := by
  cases children with
  | nil => rwa [bestOf]
  | cons child rest =>
    rw [bestOf]
    split_ifs
    · exact lookup_bestOf g guard _ rest _ (lookup_chainFrom g guard memo child h)
    · exact lookup_bestOf g guard memo rest best h
termination_by (guard.unvisited g.names, children.length + 1)

end

theorem chainFrom_of_lookup (guard : Guard) {memo : Memo} {name : String} {chain : List String}
    (h : memo.lookup name = some chain) : g.chainFrom guard memo name = (chain, memo) := by
  rw [chainFrom, h]

/-- A search that starts with nothing in progress makes its chain known. -/
theorem lookup_chainFrom_self (memo : Memo) (name : String) :
    (g.chainFrom Guard.empty memo name).2.lookup name =
      some (g.chainFrom Guard.empty memo name).1 := by
  cases hlookup : memo.lookup name with
  | some chain => rw [chainFrom_of_lookup _ hlookup, hlookup]
  | none =>
    have hidle : ¬ Guard.empty.isActive name = true := by simp [Guard.empty, Guard.isActive]
    rw [chainFrom, hlookup]
    simp only [if_neg hidle]
    split_ifs
    · exact List.lookup_cons_self
    · exact List.lookup_cons_self

/-- A chain that is known is the one that is listed. -/
theorem eq_of_mem_chainsFrom {memo : Memo} {names : List String} {name : String}
    {chain found : List String} (h : memo.lookup name = some chain)
    (hfound : (name, found) ∈ g.chainsFrom memo names) : found = chain := by
  induction names generalizing memo with
  | nil => simp [chainsFrom] at hfound
  | cons first rest ih =>
    rw [chainsFrom, List.mem_cons] at hfound
    rcases hfound with heq | hfound
    · obtain ⟨rfl, rfl⟩ := Prod.mk.inj heq
      rw [chainFrom_of_lookup _ h]
    · exact ih (lookup_chainFrom g Guard.empty memo first h) hfound

theorem chainsFrom_functional {memo : Memo} {names : List String} {name : String}
    {chain chain' : List String} (h : (name, chain) ∈ g.chainsFrom memo names)
    (h' : (name, chain') ∈ g.chainsFrom memo names) : chain = chain' := by
  induction names generalizing memo with
  | nil => simp [chainsFrom] at h
  | cons first rest ih =>
    have hknown := lookup_chainFrom_self (g := g) memo first
    rw [chainsFrom, List.mem_cons] at h h'
    rcases h with heq | h
    · obtain ⟨rfl, rfl⟩ := Prod.mk.inj heq
      rcases h' with heq' | h'
      · exact (Prod.mk.inj heq').2.symm
      · exact (eq_of_mem_chainsFrom hknown h').symm
    · rcases h' with heq' | h'
      · obtain ⟨rfl, rfl⟩ := Prod.mk.inj heq'
        exact eq_of_mem_chainsFrom hknown h
      · exact ih h h'

/-- A component has one chain. -/
theorem chain_eq_of_mem_chains {name : String} {chain chain' : List String}
    (h : (name, chain) ∈ g.chains) (h' : (name, chain') ∈ g.chains) : chain = chain' :=
  chainsFrom_functional h h'

/-! ### Components over the limit -/

theorem mem_overLimit {f : FlaggedChain} :
    f ∈ g.overLimit allowed ↔ (f.name, f.chain) ∈ g.chains ∧ allowed < f.depth := by
  obtain ⟨name, chain⟩ := f
  rw [overLimit, List.mem_mergeSort, List.mem_map]
  constructor
  · rintro ⟨⟨other, found⟩, hmem, heq⟩
    obtain ⟨rfl, rfl⟩ := FlaggedChain.mk.inj heq
    rw [List.mem_filter, decide_eq_true_eq] at hmem
    exact hmem
  · intro hmem
    refine ⟨(name, chain), ?_, rfl⟩
    rw [List.mem_filter, decide_eq_true_eq]
    exact hmem

/-- Depth and name decide which of two components over the limit is reported first. -/
theorem FlaggedChain.le_iff {a b : FlaggedChain} :
    a.le b = true ↔ b.depth < a.depth ∨ a.depth = b.depth ∧ a.name ≤ b.name := by
  rw [FlaggedChain.le, Bool.or_eq_true, Bool.and_eq_true, decide_eq_true_eq, beq_iff_eq,
    Bool.not_eq_true', decide_eq_false_iff_not, String.not_lt]

theorem FlaggedChain.le_trans (a b c : FlaggedChain) (hab : a.le b = true) (hbc : b.le c = true) :
    a.le c = true := by
  rw [le_iff] at *
  rcases hab with hab | ⟨hdepth, hname⟩
  · rcases hbc with hbc | ⟨hdepth', -⟩
    · exact Or.inl (Nat.lt_trans hbc hab)
    · exact Or.inl (hdepth' ▸ hab)
  · rcases hbc with hbc | ⟨hdepth', hname'⟩
    · exact Or.inl (hdepth ▸ hbc)
    · exact Or.inr ⟨hdepth.trans hdepth', String.le_trans hname hname'⟩

theorem FlaggedChain.le_total (a b : FlaggedChain) : (a.le b || b.le a) = true := by
  rw [Bool.or_eq_true, le_iff, le_iff]
  rcases Nat.lt_trichotomy a.depth b.depth with hlt | heq | hgt
  · exact Or.inr (Or.inl hlt)
  · rcases String.le_total a.name b.name with hle | hle
    · exact Or.inl (Or.inr ⟨heq, hle⟩)
    · exact Or.inr (Or.inr ⟨heq.symm, hle⟩)
  · exact Or.inl (Or.inl hgt)

/-! ### Roots -/

/-- A component over the limit is left out on account of a deeper one that hands on to it. -/
structure Hides (g : ComponentGraph) (allowed : Nat) (parent f : FlaggedChain) : Prop where
  parent_mem : parent ∈ g.overLimit allowed
  mem : f ∈ g.overLimit allowed
  child : f.name ∈ g.children parent.name
  deeper : f.depth < parent.depth

/-- The components that are reported are those over the limit that nothing hides. -/
theorem mem_flaggedRoots {f : FlaggedChain} :
    f ∈ g.flaggedRoots allowed ↔
      f ∈ g.overLimit allowed ∧ ∀ parent, ¬ g.Hides allowed parent f := by
  rw [flaggedRoots, List.mem_filter]
  refine and_congr_right fun hf => ?_
  rw [Bool.not_eq_true', List.any_eq_false]
  constructor
  · intro h parent hhides
    have hne : parent.name ≠ f.name := by
      -- A component has one depth, so it is not deeper than itself.
      intro heq
      have hchain := (mem_overLimit.mp hhides.parent_mem).1
      rw [heq] at hchain
      have hdeeper := hhides.deeper
      rw [FlaggedChain.depth, FlaggedChain.depth,
        chain_eq_of_mem_chains hchain (mem_overLimit.mp hf).1] at hdeeper
      exact Nat.lt_irrefl _ hdeeper
    exact h parent hhides.parent_mem (by simp [hne, hhides.deeper, hhides.child])
  · intro h parent hparent hany
    simp only [Bool.and_eq_true, decide_eq_true_eq, List.contains_iff_mem] at hany
    exact h parent ⟨hparent, hf, hany.2, hany.1.2⟩

/-- No chain is deeper than one more than there are components. -/
theorem depth_le_of_mem_overLimit {f : FlaggedChain} (hf : f ∈ g.overLimit allowed) :
    f.depth ≤ g.names.dedup.length + 1 := by
  obtain ⟨-, hchains⟩ := chainsFrom_isChainFrom [] g.names (Memo.Sound.empty (g := g))
  obtain ⟨known, hchain⟩ := hchains (f.name, f.chain) (mem_overLimit.mp hf).1
  exact length_le_of_isChain hchain.steps hchain.distinct

/-- Every component over the limit is a root or lies below one. -/
theorem exists_root_of_mem_overLimit {f : FlaggedChain} (hf : f ∈ g.overLimit allowed) :
    ∃ root ∈ g.flaggedRoots allowed, Relation.ReflTransGen (g.Hides allowed) root f := by
  -- What hides a component is deeper, so the distance to the greatest depth goes down.
  induction hroom : g.names.dedup.length + 1 - f.depth using Nat.strong_induction_on
    generalizing f with
  | _ room ih =>
    by_cases hroot : f ∈ g.flaggedRoots allowed
    · exact ⟨f, hroot, .refl⟩
    · obtain ⟨parent, hhides⟩ : ∃ parent, g.Hides allowed parent f := by
        by_contra hnone
        exact hroot (mem_flaggedRoots.mpr ⟨hf, fun parent h => hnone ⟨parent, h⟩⟩)
      have hdeeper := hhides.deeper
      have hbound := depth_le_of_mem_overLimit hhides.parent_mem
      obtain ⟨root, hmem, hbelow⟩ := ih _ (by omega) hhides.parent_mem rfl
      exact ⟨root, hmem, hbelow.tail hhides⟩

/-- On an acyclic graph the roots are the components over the limit that no other hands on to. -/
theorem mem_flaggedRoots_of_acyclic (hg : g.Acyclic) {f : FlaggedChain} :
    f ∈ g.flaggedRoots allowed ↔
      f ∈ g.overLimit allowed ∧
        ∀ other ∈ g.names, other ≠ f.name → f.name ∉ g.children other := by
  rw [mem_flaggedRoots]
  refine and_congr_right fun hf => ⟨fun h other hother _ hchild => ?_, fun h parent hhides => ?_⟩
  · obtain ⟨hchain, hlong⟩ := mem_overLimit.mp hf
    obtain ⟨hname, hlongest⟩ := (mem_chains_iff hg).mp hchain
    obtain ⟨chain, hparent⟩ := mem_names_iff_exists_chain.mp hother
    -- The chain of what hands on is longer, so it is over the limit too.
    have hlt : f.depth < chain.length :=
      ((mem_chains_iff hg).mp hparent).2.length_lt ⟨hchild, hname⟩ hlongest
    exact h ⟨other, chain⟩
      ⟨mem_overLimit.mpr ⟨hparent, Nat.lt_trans hlong hlt⟩, hf, hchild, hlt⟩
  · have hparent := (mem_chains_iff hg).mp (mem_overLimit.mp hhides.parent_mem).1
    refine h parent.name hparent.1 (fun heq => ?_) hhides.child
    have hf' := (mem_chains_iff hg).mp (mem_overLimit.mp hf).1
    refine hg f.name hf'.1 (.single ⟨?_, hf'.1⟩)
    simpa [heq] using hhides.child

/-- **Reporting roots only loses nothing.** Every component that is reported is over the limit.
Every component over the limit is reported, or is reached from a reported one along children over
the limit whose depth goes down strictly, so that nothing is reported only if nothing is over the
limit. No reported component is a child of a deeper one. The report is in order of depth, the
deepest first, and of names where depths are equal. On an acyclic graph it holds those components
over the limit that no other component has as a child. -/
theorem flaggedRoots_lose_nothing (g : ComponentGraph) (allowed : Nat) :
    (∀ f ∈ g.flaggedRoots allowed, (f.name, f.chain) ∈ g.chains ∧ allowed < f.depth) ∧
    (∀ name chain, (name, chain) ∈ g.chains → allowed < chain.length →
      ∃ root ∈ g.flaggedRoots allowed,
        Relation.ReflTransGen (g.Hides allowed) root ⟨name, chain⟩) ∧
    (g.flaggedRoots allowed = [] → ∀ name chain, (name, chain) ∈ g.chains →
      chain.length ≤ allowed) ∧
    (∀ f ∈ g.flaggedRoots allowed, ∀ parent chain, (parent, chain) ∈ g.chains →
      allowed < chain.length → f.depth < chain.length → f.name ∉ g.children parent) ∧
    (g.flaggedRoots allowed).Pairwise (fun a b =>
      b.depth < a.depth ∨ a.depth = b.depth ∧ a.name ≤ b.name) ∧
    (g.Acyclic → ∀ name chain, ⟨name, chain⟩ ∈ g.flaggedRoots allowed ↔
      (name, chain) ∈ g.chains ∧ allowed < chain.length ∧
        ∀ other ∈ g.names, other ≠ name → name ∉ g.children other) := by
  have hbelow (name : String) (chain : List String) (hmem : (name, chain) ∈ g.chains)
      (hlong : allowed < chain.length) : ∃ root ∈ g.flaggedRoots allowed,
        Relation.ReflTransGen (g.Hides allowed) root ⟨name, chain⟩ :=
    exists_root_of_mem_overLimit (mem_overLimit.mpr ⟨hmem, hlong⟩)
  refine ⟨fun f hf => mem_overLimit.mp (mem_flaggedRoots.mp hf).1, hbelow, ?_, ?_, ?_, ?_⟩
  · intro hempty name chain hmem
    by_contra hlong
    obtain ⟨root, hroot, -⟩ := hbelow name chain hmem (by omega)
    rw [hempty] at hroot
    cases hroot
  · intro f hf parent chain hmem hlong hdeeper hchild
    obtain ⟨hover, hroot⟩ := mem_flaggedRoots.mp hf
    exact hroot ⟨parent, chain⟩ ⟨mem_overLimit.mpr ⟨hmem, hlong⟩, hover, hchild, hdeeper⟩
  · have hsorted : (g.overLimit allowed).Pairwise fun a b => a.le b = true :=
      List.pairwise_mergeSort FlaggedChain.le_trans FlaggedChain.le_total _
    exact (hsorted.filter _).imp FlaggedChain.le_iff.mp
  · intro hg name chain
    rw [mem_flaggedRoots_of_acyclic hg, mem_overLimit, and_assoc]
    rfl

-- Of two components that hand on to each other the deeper one is reported. One that hands on to
-- itself does not hide itself.
example : ((ComponentGraph.mk [("A", ["B"]), ("B", ["A"]), ("C", ["C"])]).flaggedRoots 1).map
    FlaggedChain.name = ["A", "C"] := by
  cbv

end ComponentGraph

end TsxLint
