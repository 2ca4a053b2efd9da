import TsxLint.Proofs.Type.Reachability
import TsxLint.Type.Contract

/-!
# What a type is composed of

Two walks look behind type operators as well. The search for rendered elements also follows the
interfaces of a name to what they extend, unless the name is an alias, and the collection of members
follows aliases only. Both refuse the names that they are working on, whether the name was entered
as an alias or for its interfaces, and neither loses anything by it.

## Main definitions

* `AliasTable.MadeOf`: the steps through wrappers, operators, members and aliases.
* `AliasTable.BuiltOn`: these steps, and those to what interfaces extend.

## Main results

* `AliasTable.steps_composed_iff`, `AliasTable.steps_inherited_iff`: the walks take these steps.
* `AliasTable.mem_reach_iff`: a walk collects the types that it can lead to.
* `AliasTable.mem_literalMembers_of_alias`: no member is lost by starting from the alias in progress.
* `Shapes.containsElement_is_reachability`: an element is found exactly if it can be reached.
-/

namespace TsxLint

namespace AliasTable

variable {t : AliasTable} {n m : Node} {name : String}

/-! ### Steps -/

/-- One step from a type to what it is made of: to the inside of a wrapper or an operator, to a
member of a union or an intersection, or from a name without qualifiers to the right-hand side of
its alias. -/
inductive MadeOf (t : AliasTable) : Node → Node → Prop
  | wrapped {n m : Node} (hn : n.kind = .parenthesizedType ∨ n.kind = .optionalType)
      (hm : m ∈ n.all .type) : MadeOf t n m
  | operand {n m : Node} {operator : TypeOperator} (hn : n.kind = .typeOperator operator)
      (hm : m ∈ n.all .type) : MadeOf t n m
  | member {n m : Node} (hn : n.kind = .unionType ∨ n.kind = .intersectionType)
      (hm : m ∈ n.all .element) : MadeOf t n m
  | aliased {n m : Node} {name : String} (hname : n.localTypeName? = some name)
      (hm : t.alias? name = some m) : MadeOf t n m

/-- One step from a type to what it is made of, or from a name that is no alias to what one of its
interfaces extends. -/
inductive BuiltOn (t : AliasTable) : Node → Node → Prop
  | madeOf {n m : Node} (h : t.MadeOf n m) : BuiltOn t n m
  | extended {n m declaration : Node} {name : String} (hname : n.localTypeName? = some name)
      (halias : t.alias? name = none) (hdeclaration : declaration ∈ t.interfaces name)
      (hm : m ∈ declaration.all .base) : BuiltOn t n m

/-! ### The walks -/

/-- A walk behind operators goes on to what a type is made of, and from a name to where it leads. -/
theorem steps_iff_of_throughOperators {heritage : Bool} :
    t.Steps ⟨true, heritage⟩ n m ↔ t.MadeOf n m ∨
      ∃ name, n.localTypeName? = some name ∧ m ∈ t.hop ⟨true, heritage⟩ name := by
  constructor
  · rintro (⟨hparts, hm, hrole⟩ | ⟨-, hname, hm⟩)
    · refine Or.inl ?_
      unfold Walk.parts? at hparts
      split at hparts <;> cases hparts
      case h_1 hkind =>
        exact .wrapped (Or.inl hkind) (mem_all.mpr ⟨hm, List.mem_singleton.mp hrole⟩)
      case h_2 hkind =>
        exact .wrapped (Or.inr hkind) (mem_all.mpr ⟨hm, List.mem_singleton.mp hrole⟩)
      case h_3 hkind => exact .operand hkind (mem_all.mpr ⟨hm, List.mem_singleton.mp hrole⟩)
      case h_4 hkind =>
        exact .member (Or.inl hkind) (mem_all.mpr ⟨hm, List.mem_singleton.mp hrole⟩)
      case h_5 hkind =>
        exact .member (Or.inr hkind) (mem_all.mpr ⟨hm, List.mem_singleton.mp hrole⟩)
    · exact Or.inr ⟨_, hname, hm⟩
  · have hpart {role : Role} (hparts : (Walk.mk true heritage).parts? n.kind = some [role])
        (hm : m ∈ n.all role) : t.Steps ⟨true, heritage⟩ n m := by
      obtain ⟨hm, hrole⟩ := mem_all.mp hm
      exact .part hparts hm (List.mem_singleton.mpr hrole)
    rintro (h | ⟨name, hname, hm⟩)
    · rcases h with ⟨hn | hn, hm⟩ | ⟨hn, hm⟩ | ⟨hn | hn, hm⟩ | ⟨hname, hm⟩
      case aliased =>
        refine .hop (parts?_eq_none_of_localTypeName? hname) hname ?_
        rw [hop, hm]
        exact List.mem_singleton_self _
      all_goals exact hpart (by rw [hn]; rfl) hm
    · exact .hop (parts?_eq_none_of_localTypeName? hname) hname hm

/-- The walk that collects members takes the steps to what a type is made of. -/
theorem steps_composed_iff : t.Steps ⟨true, false⟩ n m ↔ t.MadeOf n m := by
  rw [steps_iff_of_throughOperators]
  refine or_iff_left_of_imp ?_
  rintro ⟨name, hname, hm⟩
  unfold hop at hm
  split at hm
  · rename_i type halias
    obtain rfl := List.mem_singleton.mp hm
    exact .aliased hname halias
  · simp at hm

/-- The walk that looks for elements also takes those to what interfaces extend. -/
theorem steps_inherited_iff : t.Steps ⟨true, true⟩ n m ↔ t.BuiltOn n m := by
  rw [steps_iff_of_throughOperators]
  constructor
  · rintro (h | ⟨name, hname, hm⟩)
    · exact .madeOf h
    · unfold hop at hm
      split at hm
      · rename_i type halias
        obtain rfl := List.mem_singleton.mp hm
        exact .madeOf (.aliased hname halias)
      · rename_i halias
        obtain ⟨declaration, hdeclaration, hm⟩ := List.mem_flatMap.mp hm
        exact .extended hname halias hdeclaration hm
  · rintro (h | ⟨hname, halias, hdeclaration, hm⟩)
    · exact Or.inl h
    · refine Or.inr ⟨_, hname, ?_⟩
      rw [hop, halias]
      exact List.mem_flatMap.mpr ⟨_, hdeclaration, hm⟩

/-! ### Collecting types -/

section

variable {w : Walk} {guard : Guard} {last : Node}

theorem mem_reachAt {roles : List Role} {ns : List Node} :
    last ∈ t.reachAt w guard roles ns ↔ ∃ n ∈ ns, n.role ∈ roles ∧ last ∈ t.reach w guard n := by
  induction ns with
  | nil => simp [reachAt]
  | cons n ns ih =>
    rw [reachAt, List.mem_append, ih]
    by_cases hrole : n.role ∈ roles <;> simp [hrole]

theorem mem_reachAll {ns : List Node} :
    last ∈ t.reachAll w guard ns ↔ ∃ n ∈ ns, last ∈ t.reach w guard n := by
  induction ns with
  | nil => simp [reachAll]
  | cons n ns ih => rw [reachAll, List.mem_append, ih, List.exists_mem_cons_iff]

theorem mem_reach_of_parts {roles : List Role} (hparts : w.parts? n.kind = some roles) :
    last ∈ t.reach w guard n ↔
      ∃ m ∈ n.children, m.role ∈ roles ∧ last ∈ t.reach w guard m := by
  rw [reach]
  split
  · rename_i roles' hparts'
    obtain rfl := Option.some.inj (hparts.symm.trans hparts')
    exact mem_reachAt
  · rename_i hstop
    rw [hparts] at hstop
    cases hstop

theorem mem_reach_of_stop (hstop : w.parts? n.kind = none) :
    last ∈ t.reach w guard n ↔ n = last ∨
      ∃ name, n.localTypeName? = some name ∧ guard.isActive name = false ∧
        ∃ m ∈ t.hop w name, last ∈ t.reach w (guard.enter name).2 m := by
  rw [reach]
  split
  · rename_i hparts
    rw [hstop] at hparts
    cases hparts
  · rw [List.mem_cons, eq_comm]
    refine or_congr_right ?_
    split
    · rename_i hname
      simp [hname]
    · rename_i name hname
      split_ifs with hactive hdeclared
      · simp [hname, hactive]
      · simp [hname, hactive, mem_reachAll]
      · constructor
        · intro hlast
          cases hlast
        · rintro ⟨name', hname', -, m, hm, -⟩
          obtain rfl := Option.some.inj (hname.symm.trans hname')
          exact absurd (mem_names_of_mem_hop hm) hdeclared

/-- The types that a walk collects are those that it can lead to. -/
theorem mem_reach_iff (guard : Guard) (n last : Node) :
    last ∈ t.reach w guard n ↔ t.Leads w guard.active n last := by
  have hwalk := Leads.iff_of_walks (fun guard n => last ∈ t.reach w guard n)
    (fun _ _ _ => mem_reach_of_parts) (fun _ _ => mem_reach_of_stop) guard n
  simpa using hwalk

end

/-- A member is collected exactly if it is that of an object type that the walk can lead to. -/
theorem mem_literalMembers_iff {guard : Guard} {member : Node} :
    member ∈ t.literalMembers guard n ↔ ∃ literal, t.Leads ⟨true, false⟩ guard.active n literal ∧
      literal.kind = .typeLiteral ∧ member ∈ literal.all .member := by
  rw [literalMembers, List.mem_flatMap]
  refine exists_congr fun literal => and_congr (mem_reach_iff guard n literal) ?_
  split
  · rename_i hkind
    simp [hkind]
  · rename_i hother
    simpa using fun hkind => absurd hkind hother

/-- The members that the right-hand side of an alias is made of are all collected when the name of
the alias itself is in progress: a path that comes back to the name can start over. -/
theorem mem_literalMembers_of_alias (halias : t.alias? name = some n) {member : Node} :
    member ∈ t.literalMembers (Guard.empty.enter name).2 n ↔
      ∃ literal, Relation.ReflTransGen t.MadeOf n literal ∧ literal.kind = .typeLiteral ∧
        member ∈ literal.all .member := by
  have hsteps : t.Steps ⟨true, false⟩ = t.MadeOf := by
    funext n m
    exact propext steps_composed_iff
  have hactive : (Guard.empty.enter name).2.active = [name] := rfl
  rw [mem_literalMembers_iff, hactive, ← hsteps]
  refine exists_congr fun literal => and_congr_left fun hmember => ⟨fun h => h.reflTransGen.1, ?_⟩
  intro hpath
  have hstop : (Walk.mk true false).parts? literal.kind = none := by
    rw [hmember.1]
    rfl
  rcases (leads_of_steps hpath hstop).avoid_or_restart name with h | ⟨m, hm, h⟩
  · exact h
  · rw [hop, halias] at hm
    rwa [List.mem_singleton.mp hm] at h

end AliasTable

/-! ### Elements -/

theorem isElementLeaf_iff {kind : ElementKind} {n : Node} :
    isElementLeaf kind n = true ↔ n.kind = .typeReference ∧ n.lastSegment = kind.typeName := by
  unfold isElementLeaf
  split
  · rename_i hkind
    simp [hkind]
  · rename_i hother
    simpa using fun hkind => absurd hkind hother

/-- **The search for elements is reachability.** Without a type service, and however aliases and
interfaces refer to each other, a type contains an element exactly if a reference to the type of the
element can be reached from it: through what types are made of, and from a name that is no alias
through what all its interfaces extend. -/
theorem Shapes.containsElement_is_reachability (t : AliasTable) (kind : ElementKind) (n : Node) :
    (Shapes.mk t none).containsElement kind n = true ↔
      ∃ m, Relation.ReflTransGen t.BuiltOn n m ∧
        m.kind = .typeReference ∧ m.lastSegment = kind.typeName := by
  have hsteps : t.Steps ⟨true, true⟩ = t.BuiltOn := by
    funext n m
    exact propext AliasTable.steps_inherited_iff
  have hsearch : (Shapes.mk t none).containsElement kind n =
      (AliasTable.meets t ⟨true, true⟩ (isElementLeaf kind) .empty n).1.1 := rfl
  rw [hsearch, AliasTable.meets_iff_leads, ← hsteps]
  constructor
  · rintro ⟨m, hlast, hleaf⟩
    exact ⟨m, hlast.reflTransGen.1, isElementLeaf_iff.mp hleaf⟩
  · rintro ⟨m, hpath, hkind, hlast⟩
    have hstop : (AliasTable.Walk.mk true true).parts? m.kind = none := by
      rw [hkind]
      rfl
    exact ⟨m, AliasTable.leads_of_steps hpath hstop, isElementLeaf_iff.mpr ⟨hkind, hlast⟩⟩

end TsxLint
