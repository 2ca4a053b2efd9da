import TsxLint.Proofs.Data.Ways
import TsxLint.Proofs.Rule.Places
import TsxLint.Proofs.Type.PropsContracts

/-!
# Routes to members

The members that a type is composed of are collected along all routes through it. A route is refused
where it would enter a name for a second time, but two routes do not know of each other: an object
type that can be reached in two ways contributes its members twice. So a contract has as many
entries for a member as there are routes to it.

## Main definitions

* `AliasTable.IsRoute`: the routes from a type to a member, some names not entered.
* `Model.Contributes`: the ways in which a declaration comes to a member of its contract.

## Main results

* `AliasTable.isRoute_iff`: the first step of a route.
* `AliasTable.literalMembers_listsWays`: the collected members, one for each route.
* `Model.members_listsWays`: the members of a contract, one for each way.
-/

namespace TsxLint

namespace AliasTable

variable {t : AliasTable} {avoid : List String} {n member : Node} {route : List Node}

/-! ### Routes -/

/-- A route from a type to a member: steps to what types are made of, as far as an object type that
has the member, on which no name is entered twice and none of the names to avoid. -/
structure IsRoute (t : AliasTable) (avoid : List String) (n : Node) (route : List Node)
    (member : Node) : Prop where
  head : route.head? = some n
  steps : route.IsChain t.MadeOf
  last : ∃ literal, route.getLast? = some literal ∧ literal.kind = .typeLiteral ∧
    member ∈ literal.all .member
  once : (route.filterMap Node.localTypeName?).Nodup
  idle : ∀ name ∈ route.filterMap Node.localTypeName?, name ∉ avoid

/-- A type at which a step starts is no object type. -/
theorem MadeOf.kind_ne {m : Node} (h : t.MadeOf n m) : n.kind ≠ .typeLiteral := by
  rintro hkind
  rcases h with ⟨hn | hn, -⟩ | ⟨hn, -⟩ | ⟨hn | hn, -⟩ | ⟨hname, -⟩
  case aliased =>
    rw [localTypeName?_eq_none_of_kind hkind] at hname
    cases hname
  all_goals
    rw [hkind] at hn
    cases hn

/-- A route ends at once, or it takes a step and goes on, the name of the first type in progress. -/
theorem isRoute_iff : t.IsRoute avoid n route member ↔
    (route = [n] ∧ n.kind = .typeLiteral ∧ member ∈ n.all .member) ∨
      ∃ m rest, route = n :: rest ∧ t.MadeOf n m ∧ (∀ name ∈ n.localTypeName?, name ∉ avoid) ∧
        t.IsRoute (n.localTypeName?.toList ++ avoid) m rest member := by
  constructor
  · rintro ⟨hhead, hsteps, ⟨literal, hlast, hliteral⟩, honce, hidle⟩
    obtain ⟨rest, rfl⟩ := List.head?_eq_some_iff.mp hhead
    cases rest with
    | nil =>
      obtain rfl := Option.some.inj hlast
      exact Or.inl ⟨rfl, hliteral⟩
    | cons m rest =>
      obtain ⟨hstep, hsteps⟩ := List.isChain_cons_cons.mp hsteps
      rw [List.getLast?_cons_cons] at hlast
      refine Or.inr ⟨m, m :: rest, rfl, hstep, ?_,
        ⟨rfl, hsteps, ⟨literal, hlast, hliteral⟩, ?_, ?_⟩⟩
      · intro name hname
        exact hidle name (by simp [List.filterMap_cons, Option.mem_def.mp hname])
      · exact honce.sublist ((List.sublist_cons_self n _).filterMap _)
      · intro name hname
        rw [List.mem_append, not_or, Option.mem_toList]
        constructor
        · intro hfirst
          rw [List.filterMap_cons_some hfirst, List.nodup_cons] at honce
          exact honce.1 hname
        · refine hidle name ?_
          exact ((List.sublist_cons_self n _).filterMap _).subset hname
  · rintro (⟨rfl, hkind, hmember⟩ | ⟨m, rest, rfl, hstep, hfree, hroute⟩)
    · have hname := localTypeName?_eq_none_of_kind hkind
      refine ⟨rfl, List.IsChain.singleton n, ⟨n, rfl, hkind, hmember⟩, ?_, ?_⟩
      · simp [hname]
      · simp [hname]
    · obtain ⟨hhead, hsteps, ⟨literal, hlast, hliteral⟩, honce, hidle⟩ := hroute
      obtain ⟨rest, rfl⟩ := List.head?_eq_some_iff.mp hhead
      have hnames : (n :: m :: rest).filterMap Node.localTypeName? =
          n.localTypeName?.toList ++ (m :: rest).filterMap Node.localTypeName? := by
        cases hname : n.localTypeName? with
        | none => rw [List.filterMap_cons_none hname]; rfl
        | some name => rw [List.filterMap_cons_some hname]; rfl
      refine ⟨rfl, List.isChain_cons_cons.mpr ⟨hstep, hsteps⟩,
        ⟨literal, by rwa [List.getLast?_cons_cons], hliteral⟩, ?_, ?_⟩
      · rw [hnames, List.nodup_append']
        refine ⟨?_, honce, fun name hname hlater => ?_⟩
        · cases n.localTypeName? <;> simp
        · exact hidle name hlater (List.mem_append_left _ hname)
      · intro name hname
        rw [hnames, List.mem_append] at hname
        rcases hname with hname | hname
        · exact hfree name (Option.mem_toList.mp hname)
        · exact fun hmem => hidle name hname (List.mem_append_right _ hmem)

/-! ### The step that a route starts with -/

theorem madeOf_iff_of_parts {roles : List Role} {m : Node}
    (hparts : (Walk.mk true false).parts? n.kind = some roles) :
    t.MadeOf n m ↔ m ∈ n.children ∧ m.role ∈ roles := by
  rw [← steps_composed_iff]
  constructor
  · rintro (⟨hparts', hm, hrole⟩ | ⟨hstop, -, -⟩)
    · obtain rfl := Option.some.inj (hparts.symm.trans hparts')
      exact ⟨hm, hrole⟩
    · rw [hparts] at hstop
      cases hstop
  · rintro ⟨hm, hrole⟩
    exact .part hparts hm hrole

/-- From a type at which the collection stops, a step can only follow its name. -/
theorem exists_alias_of_madeOf {m : Node} (hstop : (Walk.mk true false).parts? n.kind = none)
    (h : t.MadeOf n m) : ∃ name, n.localTypeName? = some name ∧ t.alias? name = some m := by
  rcases h with ⟨hn | hn, -⟩ | ⟨hn, -⟩ | ⟨hn | hn, -⟩ | ⟨hname, hm⟩
  case aliased => exact ⟨_, hname, hm⟩
  all_goals
    rw [hn] at hstop
    cases hstop

/-- The routes that start with a name go on from its alias, with the name in progress. -/
theorem isRoute_iff_of_name {name : String} (hname : n.localTypeName? = some name) :
    t.IsRoute avoid n route member ↔ name ∉ avoid ∧ ∃ m, t.alias? name = some m ∧
      ∃ rest, route = n :: rest ∧ t.IsRoute (name :: avoid) m rest member := by
  have hkind : n.kind ≠ .typeLiteral := by
    rw [(kind_of_localTypeName? hname).1]
    exact nofun
  rw [isRoute_iff]
  constructor
  · rintro (⟨-, hliteral, -⟩ | ⟨m, rest, hroute, hstep, hfree, hrest⟩)
    · exact absurd hliteral hkind
    · obtain ⟨name', hname', hm⟩ :=
        exists_alias_of_madeOf (parts?_eq_none_of_localTypeName? hname) hstep
      obtain rfl := Option.some.inj (hname.symm.trans hname')
      rw [hname] at hrest
      exact ⟨hfree name hname, m, hm, rest, hroute, hrest⟩
  · rintro ⟨hfree, m, hm, rest, hroute, hrest⟩
    refine Or.inr ⟨m, rest, hroute, .aliased hname hm, fun name' hname' => ?_, by rwa [hname]⟩
    obtain rfl := Option.some.inj (hname.symm.trans hname')
    exact hfree

/-- The routes that start with a type whose parts are looked at go on from one of these. -/
theorem isRoute_iff_of_parts {roles : List Role}
    (hparts : (Walk.mk true false).parts? n.kind = some roles) :
    t.IsRoute avoid n route member ↔ ∃ m, (m ∈ n.children ∧ m.role ∈ roles) ∧
      ∃ rest, route = n :: rest ∧ t.IsRoute avoid m rest member := by
  have hkind : n.kind ≠ .typeLiteral := by
    intro hkind
    rw [hkind] at hparts
    cases hparts
  have hname : n.localTypeName? = none := by
    by_contra hname
    obtain ⟨name, hname⟩ := Option.ne_none_iff_exists'.mp hname
    rw [parts?_eq_none_of_localTypeName? hname] at hparts
    cases hparts
  rw [isRoute_iff]
  simp only [hkind, hname, madeOf_iff_of_parts hparts, false_and, and_false, false_or,
    Option.mem_def, reduceCtorEq, false_imp_iff, implies_true, true_and, Option.toList_none,
    List.nil_append]
  constructor
  · rintro ⟨m, rest, hroute, hm, hrest⟩
    exact ⟨m, hm, rest, hroute, hrest⟩
  · rintro ⟨m, hm, rest, hroute, hrest⟩
    exact ⟨m, rest, hroute, hm, hrest⟩

/-- An object type has one route to each of its members. -/
theorem isRoute_iff_of_literal (hkind : n.kind = .typeLiteral) :
    t.IsRoute avoid n route member ↔ route = [n] ∧ member ∈ n.all .member := by
  rw [isRoute_iff]
  constructor
  · rintro (⟨hroute, -, hmember⟩ | ⟨m, -, -, hstep, -, -⟩)
    · exact ⟨hroute, hmember⟩
    · exact absurd hkind hstep.kind_ne
  · rintro ⟨hroute, hmember⟩
    exact Or.inl ⟨hroute, hkind, hmember⟩

/-- No route starts with a type that is neither an object type nor made of others. -/
theorem not_isRoute_of_other (hstop : (Walk.mk true false).parts? n.kind = none)
    (hname : n.localTypeName? = none) (hkind : n.kind ≠ .typeLiteral) :
    ¬ t.IsRoute avoid n route member := by
  rw [isRoute_iff]
  rintro (⟨-, hliteral, -⟩ | ⟨m, -, -, hstep, -, -⟩)
  · exact hkind hliteral
  · obtain ⟨name, hname', -⟩ := exists_alias_of_madeOf hstop hstep
    rw [hname] at hname'
    cases hname'

/-! ### Collected members -/

section

variable {guard : Guard}

/-- What is collected from the parts of a type. -/
theorem literalMembers_of_parts {roles : List Role}
    (hparts : (Walk.mk true false).parts? n.kind = some roles) :
    t.literalMembers guard n =
      (n.children.filter fun m => roles.contains m.role).flatMap (t.literalMembers guard) := by
  have hreachAt (ns : List Node) : t.reachAt ⟨true, false⟩ guard roles ns =
      (ns.filter fun m => roles.contains m.role).flatMap (t.reach ⟨true, false⟩ guard) := by
    induction ns with
    | nil => rw [reachAt, List.filter_nil, List.flatMap_nil]
    | cons m ns ih =>
      rw [reachAt, ih, List.filter_cons]
      split_ifs
      · rw [List.flatMap_cons]
      · rw [List.nil_append]
  have hreach : t.reach ⟨true, false⟩ guard n = t.reachAt ⟨true, false⟩ guard roles n.children := by
    rw [reach, hparts]
  rw [literalMembers, hreach, hreachAt, List.flatMap_assoc]
  rfl

/-- What is collected from a name: the members of its alias, if the name is not in progress. -/
theorem literalMembers_of_name {name : String} (hname : n.localTypeName? = some name) :
    t.literalMembers guard n =
      if guard.isActive name then []
      else (t.alias? name).toList.flatMap (t.literalMembers (guard.enter name).2) := by
  have hkind := (kind_of_localTypeName? hname).1
  have hhop : t.hop ⟨true, false⟩ name = (t.alias? name).toList := by
    rw [hop]
    cases t.alias? name with
    | none => rfl
    | some m => rfl
  have hreachAll (ns : List Node) : t.reachAll ⟨true, false⟩ (guard.enter name).2 ns =
      ns.flatMap (t.reach ⟨true, false⟩ (guard.enter name).2) := by
    induction ns with
    | nil => rw [reachAll, List.flatMap_nil]
    | cons m ns ih => rw [reachAll, ih, List.flatMap_cons]
  rw [literalMembers, reach, parts?_eq_none_of_localTypeName? hname]
  simp only [hname, List.flatMap_cons, hkind, List.nil_append]
  split_ifs with hactive hdeclared
  · rfl
  · rw [hreachAll, hhop, List.flatMap_assoc]
    rfl
  · have hnone : (t.alias? name).toList = [] := by
      refine List.eq_nil_iff_forall_not_mem.mpr fun m hm => hdeclared ?_
      exact mem_names_of_mem_hop (w := ⟨true, false⟩) (hhop ▸ hm)
    rw [hnone, List.flatMap_nil, List.flatMap_nil]

/-- Nothing is collected from a type that is neither an object type nor made of others. -/
theorem literalMembers_of_other (hstop : (Walk.mk true false).parts? n.kind = none)
    (hname : n.localTypeName? = none) (hkind : n.kind ≠ .typeLiteral) :
    t.literalMembers guard n = [] := by
  rw [literalMembers, reach, hstop]
  simp only [hname, List.flatMap_cons, List.flatMap_nil, List.append_nil]

end

section

variable {P : Node → Prop} (hP : Node.Closed P) (hnodup : ∀ n, P n → n.children.Nodup)
  (halias : ∀ name m, t.alias? name = some m → P m)

include hP hnodup halias

/-- The members that are collected from a type have an entry for each route to them. -/
theorem literalMembers_listsWays (guard : Guard) (n : Node) (hn : P n) :
    ListsWays (t.IsRoute guard.active n) (t.literalMembers guard n) := by
  cases hparts : (Walk.mk true false).parts? n.kind with
  | some roles =>
    have hparts' := ListsWays.flatMap ((hnodup n hn).filter fun m => roles.contains m.role)
      fun m hm => literalMembers_listsWays guard m (hP n hn m (List.mem_filter.mp hm).1)
    rw [literalMembers_of_parts hparts]
    refine (hparts'.map (fun way => n :: way.2) ?_).congr fun route member => ?_
    · rintro ⟨m, rest⟩ ⟨m', rest'⟩ _ _ ⟨-, hrest⟩ ⟨-, hrest'⟩ heq
      obtain rfl := (List.cons.inj heq).2
      exact Prod.ext (Option.some.inj (hrest.head.symm.trans hrest'.head)) rfl
    · rw [isRoute_iff_of_parts hparts]
      simp only [Prod.exists, List.mem_filter, List.contains_iff_mem]
      constructor
      · rintro ⟨m, rest, hroute, hm, hrest⟩
        exact ⟨m, hm, rest, hroute, hrest⟩
      · rintro ⟨m, hm, rest, hroute, hrest⟩
        exact ⟨m, rest, hroute, hm, hrest⟩
  | none =>
    cases hname : n.localTypeName? with
    | none =>
      by_cases hkind : n.kind = .typeLiteral
      · rw [literalMembers_of_literal hkind]
        exact (ListsWays.of_nodup [n] ((hnodup n hn).filter _)).congr fun route member =>
          (isRoute_iff_of_literal hkind).symm
      · rw [literalMembers_of_other hparts hname hkind]
        exact ListsWays.nil fun route member => not_isRoute_of_other hparts hname hkind
    | some name =>
      rw [literalMembers_of_name hname]
      split_ifs with hactive
      · refine ListsWays.nil fun route member hroute => ?_
        rw [isRoute_iff_of_name hname, ← Guard.isActive_eq_false_iff, hactive] at hroute
        cases hroute.1
      · rw [Bool.not_eq_true] at hactive
        cases hm : t.alias? name with
        | none =>
          refine ListsWays.nil fun route member hroute => ?_
          obtain ⟨-, m, hm', -⟩ := (isRoute_iff_of_name hname).mp hroute
          rw [hm] at hm'
          cases hm'
        | some m =>
          have halias' := literalMembers_listsWays (guard.enter name).2 m (halias name m hm)
          rw [Guard.active_enter hactive] at halias'
          rw [Option.toList_some, List.flatMap_singleton]
          refine (halias'.map (n :: ·) fun _ _ _ _ _ _ heq => (List.cons.inj heq).2).congr
            fun route member => ?_
          simp only [isRoute_iff_of_name hname, hm, Option.some.injEq, exists_eq_left',
            Guard.isActive_eq_false_iff.mp hactive, not_false_eq_true, true_and]
termination_by (guard.unvisited t.names, sizeOf n)
decreasing_by
  · exact Prod.Lex.left _ _ (Guard.unvisited_enter_lt
      (mem_names_of_mem_hop (w := ⟨true, false⟩) (by rw [hop, hm]; exact List.mem_singleton_self m))
      (Bool.eq_false_iff.mpr hactive))
  · exact Prod.Lex.right _ (sizeOf_lt_of_mem_children (List.mem_filter.mp hm).1)

end

end AliasTable

/-! ### Contracts -/

/-- Every node is in the order of visits before what is inside it, so the nodes of a list are in the
order in which everything in them is visited. -/
theorem Node.sublist_preorderAll (ns : List Node) : ns.Sublist (preorderAll ns) := by
  induction ns with
  | nil => exact List.nil_sublist _
  | cons n ns ih =>
    rw [preorderAll, preorder_eq, List.cons_append]
    exact (ih.trans (List.sublist_append_right _ _)).cons_cons n

namespace Model

/-- A declaration comes to a member of its contract: an interface to its own, and an alias on a
route from its right-hand side on which its own name is not entered. -/
inductive Contributes (m : Model) (n : Node) : List Node → Node → Prop
  | own {member : Node} (hn : n.kind = .interfaceDeclaration) (hmember : member ∈ n.all .member) :
      Contributes m n [] member
  | composed {name type member : Node} {route : List Node} (hn : n.kind = .typeAliasDeclaration)
      (hname : n.get? .name = some name) (htype : n.get? .type = some type)
      (hroute : (AliasTable.ofModel m).IsRoute [name.label] type route member) :
      Contributes m n route member

variable {c : Cst} {n : Node}

theorem nodup_children (hn : n ∈ (ofCst c).nodes) : n.children.Nodup := by
  have hnodes : (Program.ofCst c).root.preorder.Nodup := nodes_ofCst c ▸ nodup_nodes
  rw [nodes_ofCst] at hn
  refine hnodes.sublist (((Node.sublist_preorderAll n.children).trans ?_).trans
    (Node.preorder_sublist_of_mem _ hn))
  rw [Node.preorder_eq]
  exact List.sublist_cons_self n _

/-- The members of a contract have an entry for each way in which its declaration comes to them. -/
theorem members_listsWays (hn : n ∈ (ofCst c).nodes) {contract : Contract}
    (hcontract : n.propsContract? (AliasTable.ofModel (ofCst c)) = some contract) :
    ListsWays ((ofCst c).Contributes n) contract.members := by
  unfold Node.propsContract? at hcontract
  split at hcontract
  case h_1 hkind =>
    obtain ⟨name, -, hcontract⟩ := Option.bind_eq_some_iff.mp hcontract
    dsimp only at hcontract
    split_ifs at hcontract
    obtain rfl := Option.some.inj hcontract
    refine (ListsWays.of_nodup [] ((nodup_children hn).filter _)).congr fun route member => ?_
    constructor
    · rintro ⟨rfl, hmember⟩
      exact .own hkind hmember
    · rintro (⟨-, hmember⟩ | ⟨halias, -, -, -⟩)
      · exact ⟨rfl, hmember⟩
      · cases hkind.symm.trans halias
  case h_2 hkind =>
    split at hcontract
    case h_2 => cases hcontract
    rename_i name type hname htype
    dsimp only at hcontract
    split_ifs at hcontract
    obtain rfl := Option.some.inj hcontract
    have hroutes := AliasTable.literalMembers_listsWays (t := AliasTable.ofModel (ofCst c))
      nodes_closed (fun _ => nodup_children) (fun name m hm => ?_) (Guard.empty.enter name.label).2
      type (nodes_closed.get? hn htype)
    · rw [Guard.active_enter rfl] at hroutes
      refine hroutes.congr fun route member => ⟨.composed hkind hname htype, ?_⟩
      rintro (⟨hinterface, -⟩ | ⟨-, hname', htype', hroute⟩)
      · cases hkind.symm.trans hinterface
      · obtain rfl := Option.some.inj (hname.symm.trans hname')
        obtain rfl := Option.some.inj (htype.symm.trans htype')
        exact hroute
    · have hhop : m ∈ (AliasTable.ofModel (ofCst c)).hop .plain name :=
        AliasTable.mem_hop_plain.mpr hm
      exact nodes_closed.hop_ofNodes (fun n hn => hn) hhop
  case h_3 => cases hcontract

end Model

end TsxLint
