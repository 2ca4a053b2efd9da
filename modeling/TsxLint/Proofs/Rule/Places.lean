import TsxLint.Proofs.Binding.NodeTable
import TsxLint.Proofs.Binding.Writes
import TsxLint.Rule.FunctionSize
import TsxLint.Rule.Mutation
import TsxLint.Rule.PropContract

/-!
# Searches stay inside

Rules look for names, patterns, members and targets inside a node. Whatever such a search finds is a
part of a part of the node, and so on, or it is reached through an alias of the file. A set of nodes
that is closed under taking parts holds what is found inside any of its nodes.

## Main definitions

* `Node.Closed`: sets of nodes that hold the parts of their nodes.

## Main results

* `Node.Closed.binders`, `Node.Closed.patternTargets`, `Node.Closed.chainRoot?`: patterns and
  targets.
* `Node.Closed.reach`: types that a walk stops at.
-/

namespace TsxLint

/-- A set of nodes that holds every part of its nodes. -/
def Node.Closed (P : Node → Prop) : Prop := ∀ n, P n → ∀ m ∈ n.children, P m

/-- The nodes of a lowered file are closed. -/
theorem Model.nodes_closed {c : Cst} : Node.Closed (· ∈ (ofCst c).nodes) := by
  intro n hn m hm
  obtain ⟨outer, hplace⟩ := exists_place_of_mem_nodes hn
  exact mem_nodes_of_place (Node.child_mem_paths _ hplace hm)

namespace Node

/-- An identifier stands for itself, any other node for nothing. -/
theorem asIdentifier?_eq (n : Node) :
    n.asIdentifier? = if n.kind.isIdentifier then some n else none := by
  unfold asIdentifier?
  cases n.kind <;> rfl

theorem asIdentifier?_eq_some_iff {n identifier : Node} :
    n.asIdentifier? = some identifier ↔ n = identifier ∧ identifier.kind.isIdentifier = true := by
  rw [asIdentifier?_eq, Option.ite_none_right_eq_some, Option.some.injEq, and_comm]
  refine and_congr_right ?_
  rintro rfl
  exact Iff.rfl

end Node

namespace Node.Closed

variable {P : Node → Prop} (h : Closed P) {n m : Node} {role : Role}

include h

/-! ### Parts -/

theorem get? (hn : P n) (hm : n.get? role = some m) : P m :=
  h n hn m (List.mem_of_find?_eq_some hm)

theorem all (hn : P n) (hm : m ∈ n.all role) : P m := h n hn m (List.mem_filter.mp hm).1

theorem keyNode? (hn : P n) (hm : n.keyNode? = some m) : P m :=
  h n hn m (List.mem_of_find?_eq_some hm)

omit h in
theorem asIdentifier? (hn : P n) (hm : n.asIdentifier? = some m) : P m :=
  (asIdentifier?_eq_some_iff.mp hm).1 ▸ hn

theorem boundName? (hn : P n) (hm : n.boundName? = some m) : P m := by
  obtain ⟨binding, hbinding, hm⟩ := Option.bind_eq_some_iff.mp hm
  split at hm
  · exact Option.some.inj hm ▸ h.get? hn hbinding
  · cases hm

theorem plainName? (hn : P n) (hm : n.plainName? = some m) : P m := by
  obtain ⟨name, hname, hm⟩ := Option.bind_eq_some_iff.mp hm
  split at hm
  · exact Option.some.inj hm ▸ h.get? hn hname
  · cases hm

theorem identifierKey? (hn : P n) (hm : n.identifierKey? = some m) : P m := by
  obtain ⟨key, hkey, hm⟩ := Option.bind_eq_some_iff.mp hm
  split at hm
  · exact Option.some.inj hm ▸ h.get? hn hkey
  · cases hm

theorem namedFunction? {f : NamedFunction} (hn : P n) (hf : n.namedFunction? = some f) :
    P f.nameNode ∧ P f.function := by
  unfold Node.namedFunction? at hf
  split at hf
  · obtain ⟨name, hname, rfl⟩ := Option.map_eq_some_iff.mp hf
    exact ⟨h.get? hn hname, hn⟩
  · split at hf
    · rename_i name initial hname hinitial
      split_ifs at hf
      obtain rfl := Option.some.inj hf
      exact ⟨h.boundName? hn hname, h.get? hn hinitial⟩
    · cases hf
  · cases hf

/-! ### Patterns of parameters -/

theorem barePattern? (hn : P n) (hm : n.barePattern? = some m) : P m := by
  obtain ⟨pattern, hpattern, hm⟩ := Option.bind_eq_some_iff.mp hm
  split at hm
  · exact h.get? (h.get? hn hpattern) hm
  · exact Option.some.inj hm ▸ h.get? hn hpattern

theorem simpleBinder? (hn : P n) (hm : n.simpleBinder? = some m) : P m := by
  unfold Node.simpleBinder? at hm
  split at hm
  · exact Option.some.inj hm ▸ hn
  · exact h.get? hn (Option.filter_eq_some_iff.mp hm).1
  · cases hm

theorem propBindings {params : List Node} {includeRest : Bool} {binding : PropBinding}
    (hparams : ∀ n ∈ params, P n) (hbinding : binding ∈ propBindings params includeRest) :
    P binding.binder := by
  unfold TsxLint.propBindings at hbinding
  split at hbinding
  · cases hbinding
  · rename_i pattern hpattern
    obtain ⟨param, hparam, hpattern⟩ := Option.bind_eq_some_iff.mp hpattern
    have hin : P pattern := h.barePattern? (hparams _ (List.mem_of_head? hparam)) hpattern
    split at hbinding
    · rcases List.mem_append.mp hbinding with hnamed | hrest
      · obtain ⟨property, hproperty, hbinder⟩ := List.mem_filterMap.mp hnamed
        obtain ⟨bound, hbound, rfl⟩ := Option.map_eq_some_iff.mp hbinder
        obtain ⟨value, hvalue, hbound⟩ := Option.bind_eq_some_iff.mp hbound
        exact h.simpleBinder? (h.get? (h.all hin hproperty) hvalue) hbound
      · split_ifs at hrest
        · obtain ⟨argument, hargument, hrest⟩ :=
            Option.bind_eq_some_iff.mp (Option.mem_toList.mp hrest)
          obtain ⟨rest, hin', hargument⟩ := Option.bind_eq_some_iff.mp hargument
          split at hrest
          · exact Option.some.inj hrest ▸ h.get? (h.get? hin hin') hargument
          · cases hrest
        · cases hrest
    · cases hbinding

omit h

/-! ### Searches -/

/-- What is found among nodes is found in the first of them or in the others. -/
theorem mem_found {found others : List Node} {here : Prop} [Decidable here]
    (hm : m ∈ (if here then found else []) ++ others) : m ∈ found ∨ m ∈ others := by
  rcases List.mem_append.mp hm with hm | hm
  · split_ifs at hm
    · exact Or.inl hm
    · cases hm
  · exact Or.inr hm

theorem binders (h : Closed P) (n : Node) (hn : P n) : ∀ m ∈ n.binders, P m := by
  induction n using Node.binders.induct _
    (fun roles ns => (∀ n ∈ ns, P n) → ∀ m ∈ Node.bindersAt roles ns, P m) with
  | case1 =>
    rw [Node.binders]
    exact List.forall_mem_singleton.mpr hn
  | case2 role id span children ih | case3 role id _ span children ih
  | case4 role id _ span children ih | case5 role id span children ih
  | case6 role id span children ih =>
    rw [Node.binders]
    exact ih (h _ hn)
  | case7 n hname hobject hproperty harray hdefault hrest =>
    rw [Node.binders] <;> first | exact List.forall_mem_nil P | assumption
  | case8 _ _ m hm => simp [Node.bindersAt] at hm
  | case9 roles n ns ih ihs hns m hm =>
    rw [Node.bindersAt] at hm
    obtain ⟨hn, hns⟩ := List.forall_mem_cons.mp hns
    rcases mem_found hm with hm | hm
    · exact ih hn m hm
    · exact ihs hns m hm

theorem patternTargets (h : Closed P) (n : Node) (hn : P n) : ∀ m ∈ n.patternTargets, P m := by
  induction n using Node.patternTargets.induct _
    (fun roles ns => (∀ n ∈ ns, P n) → ∀ m ∈ Node.patternTargetsAt roles ns, P m) with
  | case1 =>
    rw [Node.patternTargets]
    exact List.forall_mem_nil P
  | case2 role id span children ih | case3 role id span children _ ih
  | case4 role id span children _ ih | case5 role id span children ih
  | case6 role id span children ih =>
    rw [Node.patternTargets]
    exact ih (h _ hn)
  | case7 role id span children kind hname hobject hproperty harray hdefault hrest =>
    rw [Node.patternTargets] <;> first | exact List.forall_mem_singleton.mpr hn | assumption
  | case8 _ _ m hm => simp [Node.patternTargetsAt] at hm
  | case9 roles n ns ih ihs hns m hm =>
    rw [Node.patternTargetsAt] at hm
    obtain ⟨hn, hns⟩ := List.forall_mem_cons.mp hns
    rcases mem_found hm with hm | hm
    · exact ih hn m hm
    · exact ihs hns m hm

/-! ### Wrappers and chains -/

mutual

theorem unwrapped (h : Closed P) : (n : Node) → P n → P n.unwrapped
  | ⟨role, id, kind, span, children⟩, hn => by
    cases hkind : kind.isWrapper with
    | false => rwa [Node.unwrapped_of_not_isWrapper hkind]
    | true =>
      rw [Node.unwrapped_of_isWrapper hkind]
      exact unwrappedIn h hn children (h _ hn)

theorem unwrappedIn (h : Closed P) {wrapper : Node} (hwrapper : P wrapper) :
    (ns : List Node) → (∀ n ∈ ns, P n) → P (Node.unwrappedIn wrapper ns)
  | [], _ => by rwa [Node.unwrappedIn]
  | n :: ns, hns => by
    obtain ⟨hn, hns⟩ := List.forall_mem_cons.mp hns
    rw [Node.unwrappedIn]
    split_ifs
    · exact unwrapped h n hn
    · exact unwrappedIn h hwrapper ns hns

end

mutual

theorem chainRoot? (h : Closed P) : (n : Node) → P n → ∀ m, n.chainRoot? = some m → P m
  | ⟨role, id, kind, span, children⟩, hn, m, hm => by
    unfold Node.chainRoot? at hm
    split at hm
    · exact Option.some.inj hm ▸ hn
    · exact chainRootIn? h _ children (h _ hn) m hm
    · split_ifs at hm
      exact chainRootIn? h _ children (h _ hn) m hm

theorem chainRootIn? (h : Closed P) (role : Role) : (ns : List Node) → (∀ n ∈ ns, P n) →
    ∀ m, Node.chainRootIn? role ns = some m → P m
  | [], _, m, hm => by simp [Node.chainRootIn?] at hm
  | n :: ns, hns, m, hm => by
    obtain ⟨hn, hns⟩ := List.forall_mem_cons.mp hns
    rw [Node.chainRootIn?] at hm
    split_ifs at hm
    · exact chainRoot? h n hn m hm
    · exact chainRootIn? h role ns hns m hm

end

theorem memberRoot? (h : Closed P) (hn : P n) (hm : n.memberRoot? = some m) : P m := by
  unfold Node.memberRoot? at hm
  split at hm
  · exact chainRoot? h n hn m hm
  · cases hm

/-! ### Types -/

section

variable {t : AliasTable} {w : AliasTable.Walk}

/-- The names that nodes declare lead to parts of their declarations. -/
theorem hop_ofNodes (h : Closed P) {nodes : List Node} (hnodes : ∀ n ∈ nodes, P n) {name : String}
    (hm : m ∈ (AliasTable.ofNodes nodes).hop w name) : P m := by
  unfold AliasTable.hop at hm
  split at hm
  · rename_i type htype
    obtain rfl := List.mem_singleton.mp hm
    obtain ⟨before, after, heq, -⟩ := List.lookup_eq_some_iff.mp htype
    have hentry : (name, m) ∈ (AliasTable.ofNodes nodes).aliases := by simp [heq]
    obtain ⟨declaration, hdeclaration, halias⟩ := List.mem_filterMap.mp hentry
    unfold AliasTable.aliasOf? at halias
    split at halias
    · split at halias
      · rename_i hpart
        obtain ⟨rfl, rfl⟩ := Prod.mk.inj (Option.some.inj halias)
        exact h.get? (hnodes declaration hdeclaration) hpart
      · cases halias
    · cases halias
  · split_ifs at hm
    · obtain ⟨declaration, hdeclaration, hbase⟩ := List.mem_flatMap.mp hm
      obtain ⟨entry, hentry, rfl⟩ := List.mem_map.mp hdeclaration
      obtain ⟨n, hn, hinterface⟩ := List.mem_filterMap.mp (List.mem_filter.mp hentry).1
      unfold AliasTable.interfaceOf? at hinterface
      split at hinterface
      · obtain ⟨key, -, rfl⟩ := Option.map_eq_some_iff.mp hinterface
        exact h.all (hnodes n hn) hbase
      · cases hinterface
    · cases hm

/-- A walk through types stays inside if the names do. -/
theorem reach (h : Closed P) (hhop : ∀ name, ∀ m ∈ t.hop w name, P m) (guard : Guard) (n : Node)
    (hn : P n) : ∀ m ∈ t.reach w guard n, P m := by
  induction guard, n using AliasTable.reach.induct t w _
    (fun guard ns => (∀ n ∈ ns, P n) → ∀ m ∈ t.reachAll w guard ns, P m)
    (fun guard roles ns => (∀ n ∈ ns, P n) → ∀ m ∈ t.reachAt w guard roles ns, P m) with
  | case1 guard n roles hparts ih =>
    rw [AliasTable.reach, hparts]
    exact ih (h n hn)
  | case2 guard n hstop ih =>
    rw [AliasTable.reach, hstop]
    refine List.forall_mem_cons.mpr ⟨hn, ?_⟩
    split
    · exact List.forall_mem_nil P
    · rename_i name hname
      split_ifs with hactive hdeclared
      · exact List.forall_mem_nil P
      · exact ih name hactive hdeclared (hhop name)
      · exact List.forall_mem_nil P
  | case3 guard _ m hm => simp [AliasTable.reachAll] at hm
  | case4 guard n rest ih ihs hns m hm =>
    rw [AliasTable.reachAll] at hm
    obtain ⟨hn, hns⟩ := List.forall_mem_cons.mp hns
    rcases List.mem_append.mp hm with hm | hm
    · exact ih hn m hm
    · exact ihs hns m hm
  | case5 guard roles _ m hm => simp [AliasTable.reachAt] at hm
  | case6 guard roles n rest ih ihs hns m hm =>
    rw [AliasTable.reachAt] at hm
    obtain ⟨hn, hns⟩ := List.forall_mem_cons.mp hns
    rcases mem_found hm with hm | hm
    · exact ih hn m hm
    · exact ihs hns m hm

theorem literalMembers (h : Closed P) (hhop : ∀ name, ∀ m ∈ t.hop ⟨true, false⟩ name, P m)
    {guard : Guard} (hn : P n) (hm : m ∈ t.literalMembers guard n) : P m := by
  obtain ⟨reached, hreached, hm⟩ := List.mem_flatMap.mp hm
  split at hm
  · exact h.all (h.reach hhop guard n hn reached hreached) hm
  · cases hm

/-- The members of the contract that a node declares are inside, and so is its span. -/
theorem contract? (h : Closed P) {c : Contract} (hn : P n) (hc : n.contract? = some c) :
    c.span = n.span ∧ ∀ m ∈ c.members, P m := by
  unfold Node.contract? at hc
  split at hc
  · obtain ⟨name, -, rfl⟩ := Option.map_eq_some_iff.mp hc
    exact ⟨rfl, fun m hm => h.all hn hm⟩
  · split at hc
    · rename_i type hname htype
      split at hc
      · obtain rfl := Option.some.inj hc
        exact ⟨rfl, fun m hm => h.all (h.get? hn htype) hm⟩
      · cases hc
    · cases hc
  · cases hc

theorem propsContract? (h : Closed P) (hhop : ∀ name, ∀ m ∈ t.hop ⟨true, false⟩ name, P m)
    {c : Contract} (hn : P n) (hc : n.propsContract? t = some c) : ∀ m ∈ c.members, P m := by
  unfold Node.propsContract? at hc
  split at hc
  · obtain ⟨name, -, hc⟩ := Option.bind_eq_some_iff.mp hc
    dsimp only at hc
    split_ifs at hc
    obtain rfl := Option.some.inj hc
    exact fun m hm => h.all hn hm
  · split at hc
    · rename_i type hname htype
      dsimp only at hc
      split_ifs at hc
      obtain rfl := Option.some.inj hc
      exact fun m hm => h.literalMembers hhop (h.get? hn htype) hm
    · cases hc
  · cases hc

end

end Node.Closed

end TsxLint
