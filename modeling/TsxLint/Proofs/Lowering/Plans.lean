import TsxLint.Proofs.Lowering.Conformance

/-!
# Plans are made as their goals ask

For every goal and every concrete node, the steps of the plan have the role that was asked for, make
names of a pattern only if the goal may, and are sound. There is one lemma per plan, in the order of
the plans; each asks of the children only what lowering them promises.

## Main results

* `Plan.made_steps`: the steps of a plan are made as its goal asks.
* `Cst.lower_lowers`: lowering keeps its promise for every concrete node.
* `Program.ofCst_conforms`: every node of a lowered file conforms.
-/

namespace TsxLint

/-- A child stands at its place among the children. -/
theorem Cst.getElem?_of_mem_kids {c : Cst} {k : Kid} (hk : k ∈ c.kids) :
    c.children[k.index]? = some k.tree := by
  obtain ⟨⟨tree, index⟩, hmem, rfl⟩ := List.mem_map.mp hk
  exact List.mem_zipIdx_iff_getElem?.mp hmem

theorem Cst.getElem?_of_field? {c : Cst} {field : String} {k : Kid} (hk : c.field? field = some k) :
    c.children[k.index]? = some k.tree :=
  getElem?_of_mem_kids (List.mem_of_find?_eq_some hk)

namespace Step

variable {kids : List Lowering} {role r : Role} {binds : Bool}

@[simp] theorem allSound_nil : AllSound kids [] := trivial

@[simp] theorem allSound_cons {s : Step} {steps : List Step} :
    AllSound kids (s :: steps) ↔ s.Sound kids ∧ AllSound kids steps := by
  rw [AllSound]

@[simp] theorem allSound_append {steps steps' : List Step} :
    AllSound kids (steps ++ steps') ↔ AllSound kids steps ∧ AllSound kids steps' := by
  simp only [allSound_iff, List.forall_mem_append]

@[simp] theorem sound_as (k : Kid) (goal : Goal) : (k.as role goal).Sound kids := by
  simp [Kid.as, Sound]

@[simp] theorem sound_lost (steps : List Step) : (Step.lost steps).Sound kids := by
  simp [Sound]

@[simp] theorem sound_leaf (kind : Kind) (c : Cst) : (leaf role kind c).Sound kids := by
  rw [leaf, Sound]
  refine ⟨fun next => ⟨?_, ?_⟩, trivial⟩
  · simp [runAll, arrange]
  · simp [runAll, arrange]

@[simp] theorem sound_orElse (k : Option Kid) (goal : Goal) {other : Step}
    (h : other.Sound kids) : (orElse k role goal other).Sound kids := by
  cases k with
  | none => exact h
  | some k => exact sound_as k goal

@[simp] theorem sound_unknown (c : Cst) : (unknown role c).Sound kids := sound_leaf _ c

@[simp] theorem sound_unreadType (c : Cst) : (unreadType role c).Sound kids := sound_leaf _ c

@[simp] theorem sound_expression (k : Option Kid) (parent : Cst) :
    (expression role k parent).Sound kids :=
  sound_orElse k .expression (sound_unknown parent)

@[simp] theorem sound_typeOr (k : Option Kid) (parent : Cst) : (typeOr role k parent).Sound kids :=
  sound_orElse k .type (sound_unreadType parent)

@[simp] theorem mayBind_as (k : Kid) (goal : Goal) : (k.as role goal).mayBind = goal.mayBind := rfl

@[simp] theorem mayBind_leaf (kind : Kind) (c : Cst) :
    (leaf role kind c).mayBind = kind.bindsNames :=
  rfl

@[simp] theorem mayBind_unknown (c : Cst) : (unknown role c).mayBind = false := rfl

@[simp] theorem mayBind_unreadType (c : Cst) : (unreadType role c).mayBind = false := rfl

@[simp] theorem mayBind_expression (k : Option Kid) (parent : Cst) :
    (expression role k parent).mayBind = false := by
  cases k <;> rfl

@[simp] theorem role?_as (k : Kid) (goal : Goal) : (k.as role goal).role? = some role := rfl

@[simp] theorem role?_orElse_unknown (k : Option Kid) (goal : Goal) (parent : Cst) :
    (orElse k role goal (unknown role parent)).role? = some role := by
  cases k <;> rfl

@[simp] theorem role?_expression (k : Option Kid) (parent : Cst) :
    (expression role k parent).role? = some role :=
  role?_orElse_unknown k .expression parent

@[simp] theorem allSound_maybe (k : Option Kid) (goal : Goal) :
    AllSound kids (maybe k role goal) := by
  cases k with
  | none => exact allSound_nil
  | some k => exact ⟨sound_as k goal, allSound_nil⟩

@[simp] theorem allSound_many (ks : List Kid) (goal : Goal) :
    AllSound kids (many ks role goal) := by
  rw [allSound_iff]
  intro s hs
  obtain ⟨k, -, rfl⟩ := List.mem_map.mp hs
  exact sound_as k goal

theorem made_as {k : Kid} {goal : Goal} (hgoal : goal.mayBind = true → binds = true) :
    (k.as role goal).Made kids role binds :=
  ⟨by simp [Kid.as, role?], hgoal, sound_as k goal⟩

theorem made_leaf {kind : Kind} {c : Cst} (hkind : kind.bindsNames = true → binds = true) :
    (leaf role kind c).Made kids role binds :=
  ⟨by simp [leaf, role?], hkind, sound_leaf kind c⟩

theorem made_orElse {k : Option Kid} {goal : Goal} {other : Step}
    (hgoal : goal.mayBind = true → binds = true) (hother : other.Made kids role binds) :
    (orElse k role goal other).Made kids role binds := by
  cases k with
  | none => exact hother
  | some k => exact made_as (by simpa using hgoal)

theorem made_leaf_iff {kind : Kind} {c : Cst} :
    (leaf role kind c).Made kids role binds ↔ (kind.bindsNames = true → binds = true) :=
  ⟨fun h => h.names, made_leaf⟩

theorem made_node_iff {kind : Kind} {span : Span} {parts : List Step}
    (hfree : kind.isFree = true) :
    (Step.node role kind span parts).Made kids role binds ↔
      (kind.bindsNames = true → binds = true) ∧ AllSound kids parts := by
  refine ⟨fun h => ⟨h.names, (sound_node hfree).mp h.sound⟩, fun h => ?_⟩
  exact ⟨by simp [role?], h.1, (sound_node hfree).mpr h.2⟩

theorem made_as_iff {k : Kid} {goal : Goal} :
    (k.as role goal).Made kids role binds ↔ (goal.mayBind = true → binds = true) :=
  ⟨fun h => h.names, made_as⟩

theorem made_unknown (c : Cst) : (unknown role c).Made kids role binds := made_leaf nofun

theorem made_gap (c : Cst) : (gap c).Made kids role binds := ⟨nofun, nofun, trivial⟩

@[simp] theorem allMade_nil : AllMade kids role binds [] := by
  simp [AllMade]

@[simp] theorem allMade_cons {s : Step} {steps : List Step} :
    AllMade kids role binds (s :: steps) ↔ s.Made kids role binds ∧ AllMade kids role binds steps :=
  List.forall_mem_cons

@[simp] theorem allMade_maybe {k : Option Kid} {goal : Goal} :
    AllMade kids role binds (maybe k role goal) ↔
      k = none ∨ (goal.mayBind = true → binds = true) := by
  cases k <;> simp [AllMade, maybe, made_as_iff]

@[simp] theorem allMade_many {ks : List Kid} {goal : Goal} :
    AllMade kids role binds (many ks role goal) ↔
      ks = [] ∨ (goal.mayBind = true → binds = true) := by
  cases ks with
  | nil => simp [AllMade, many]
  | cons k ks =>
    simp only [AllMade, many, List.forall_mem_map, made_as_iff, List.forall_mem_cons]
    simp +contextual

theorem made_expression {k : Option Kid} {parent : Cst} :
    (expression role k parent).Made kids role binds :=
  made_orElse nofun (made_leaf nofun)

theorem made_node {kind : Kind} {span : Span} {parts : List Step}
    (hkind : kind.bindsNames = true → binds = true)
    (hsound : (Step.node role kind span parts).Sound kids) :
    (Step.node role kind span parts).Made kids role binds :=
  ⟨by simp [role?], hkind, hsound⟩

end Step

namespace Plan

open Step

variable {kids : List Lowering} {role : Role} {binds : Bool}

@[simp] theorem sound_key (k : Kid) : (key k).Sound kids := by
  fun_cases key k <;> simp [spelled, string]

@[simp] theorem sound_keyOr (k : Option Kid) (parent : Cst) : (keyOr k parent).Sound kids := by
  fun_cases keyOr k parent <;> simp

/-- What a key makes is no name of a pattern. -/
theorem mayBind_key (k : Kid) : (key k).mayBind = false := by
  fun_cases key k <;> rfl

@[simp] theorem mayBind_keyOr (k : Option Kid) (parent : Cst) :
    (keyOr k parent).mayBind = false := by
  cases k with
  | none => rfl
  | some k => exact mayBind_key k

@[simp] theorem allSound_signatureParts (c : Cst) (k : Option Kid) :
    AllSound kids (signatureParts c k) := by
  simp [signatureParts]

@[simp] theorem sound_function (form : FunctionForm) (c : Cst) :
    (function form role c).Sound kids := by
  unfold function
  refine (sound_node rfl).mpr ?_
  cases c.field? "name" <;> split_ifs <;> simp [binder]

theorem made_function (form : FunctionForm) (c : Cst) :
    (function form role c).Made kids role binds :=
  made_node nofun (sound_function form c)

theorem made_arrow (c : Cst) : (arrow role c).Made kids role binds := by
  unfold arrow
  refine made_node nofun ((sound_node rfl).mpr ?_)
  simp only [allSound_append, allSound_maybe, allSound_cons, allSound_nil, and_true]
  refine ⟨?_, ?_⟩
  · split
    · simp [bareParam, sound_node, Kind.isFree, Kind.nameRoles?, Kind.targetRole?]
    · simp
  · split
    · split_ifs <;> simp
    · simp

theorem made_classLike (isDeclaration : Bool) (c : Cst) :
    (classLike isDeclaration role c).Made kids role binds := by
  unfold classLike
  refine made_node nofun ((sound_node rfl).mpr ?_)
  cases c.field? "name" <;> simp [binder]

theorem made_classMember (c : Cst) : (classMember role c).Made kids role binds := by
  fun_cases classMember role c
  · exact ⟨nofun, nofun, trivial⟩
  · exact made_node nofun ((sound_node rfl).mpr (by simp))
  · exact ⟨nofun, nofun, trivial⟩
  · exact made_node nofun ((sound_node rfl).mpr (by simp))
  · exact ⟨nofun, nofun, trivial⟩
  · exact made_node nofun ((sound_node rfl).mpr (by simp))
  · exact made_node nofun ((sound_node rfl).mpr (by simp))
  · exact made_leaf nofun

@[simp] theorem sound_opening (c : Cst) : (opening role c).Sound kids := by
  unfold opening
  refine (sound_node rfl).mpr (allSound_cons.mpr ⟨?_, allSound_iff.mpr ?_⟩)
  · split
    · unfold elementName
      split <;> simp [namespacedName]
    · simp
  · intro s hs
    obtain ⟨k, -, hk⟩ := List.mem_filterMap.mp hs
    split at hk
    · cases hk
      simp
    · cases hk
      simp
    · cases hk

theorem made_opening (c : Cst) : (opening role c).Made kids role binds :=
  made_node nofun (sound_opening c)

theorem allSound_jsxChildren (c : Cst) : AllSound kids (jsxChildren c) := by
  rw [jsxChildren, allSound_iff]
  intro s hs
  obtain ⟨k, -, hk⟩ := List.mem_filterMap.mp hs
  split at hk
  · split_ifs at hk
    cases hk
    simp
  · split_ifs at hk
    cases hk
    simp
  · cases hk
    simp
  · cases hk
    simp
  · cases hk
    simp
  · cases hk
    simp
  · cases hk

theorem made_jsx (c : Cst) : (jsx role c).Made kids role binds := by
  fun_cases jsx role c
  · exact made_node nofun ((sound_node rfl).mpr (allSound_jsxChildren c))
  · exact made_node nofun ((sound_node rfl).mpr (by simp))
  · exact made_node nofun ((sound_node rfl).mpr (by simp [allSound_jsxChildren]))

theorem made_jsxAttribute (c : Cst) : (jsxAttribute role c).Made kids role binds := by
  unfold jsxAttribute
  refine made_node nofun ((sound_node rfl).mpr (allSound_cons.mpr ⟨?_, ?_⟩))
  · split
    · split_ifs <;> simp [namespacedName]
    · simp
  · cases c.named[1]? with
    | none => simp
    | some value =>
      simp only [Option.map_some, Option.toList_some, allSound_cons, allSound_nil, and_true]
      split
      · simp [string]
      · simp
      · simp
      · simp
      · simp
      · exact (sound_node rfl).mpr (by simp)

theorem made_jsxSpread (c : Cst) : (jsxSpread role c).Made kids role binds := by
  unfold jsxSpread
  refine made_node nofun ((sound_node rfl).mpr ?_)
  split
  · split_ifs <;> simp
  · simp

/-! ### Expressions -/

theorem made_memberAccess (c : Cst) : (memberAccess role c).Made kids role binds := by
  unfold memberAccess
  refine made_node nofun ((sound_node rfl).mpr ?_)
  split_ifs
  · simp
  · split
    · split_ifs <;> simp [spelled]
    · simp

theorem made_call (c : Cst) : (call role c).Made kids role binds := by
  unfold call
  refine made_node nofun ((sound_node rfl).mpr ?_)
  split
  · split_ifs <;> simp
  · simp

theorem made_binary (c : Cst) : (binary role c).Made kids role binds := by
  unfold binary
  dsimp only
  split
  · exact made_node nofun ((sound_node rfl).mpr (by simp))
  · exact made_node nofun ((sound_node rfl).mpr (by simp))

theorem allSound_keepLastRest {other : Kid → Step} (hother : ∀ k, (other k).Sound kids)
    (ks : List Kid) : AllSound kids (keepLastRest other ks) := by
  induction ks with
  | nil => exact allSound_nil
  | cons k ks ih =>
    rw [keepLastRest, allSound_cons]
    refine ⟨?_, ih⟩
    split_ifs
    · exact sound_lost _
    · exact sound_as k _
    · exact hother k

/-- Of the members of a pattern, a rest element has a role of its own. -/
theorem role?_of_mem_keepLastRest {other : Kid → Step} {r : Role}
    (hother : ∀ k, (other k).role? = some r) {ks : List Kid} {s : Step}
    (hs : s ∈ keepLastRest other ks) : ∀ r' ∈ s.role?, r' ∈ [r, .rest] := by
  induction ks with
  | nil => cases hs
  | cons k ks ih =>
    rw [keepLastRest] at hs
    rcases List.mem_cons.mp hs with rfl | hs
    · split_ifs
      · simp [role?]
      · simp [role?, Kid.as]
      · simp [hother k]
    · exact ih hs

/-- The step for an identifier target makes an identifier. -/
theorem isIdentifier_of_mem_run {children : List Cst} (hkids : LowersKids children kids) {k : Kid}
    (hk : children[k.index]? = some k.tree) (hform : targetForm k.tree = .identifier) (next : Nat) :
    ∀ n ∈ (run kids (k.as role .target) next).1, n.kind.isIdentifier = true := by
  intro n hn
  obtain ⟨child, lower, hchild, hlower, hn⟩ := exists_of_mem_run_child hkids hn
  obtain rfl := Option.some.inj (hk.symm.trans hchild)
  exact hlower.identifier hform hn

section

variable {c : Cst} (hkids : LowersKids c.children kids)

include hkids

theorem made_typeWrapper : (typeWrapper role c).Made kids role binds := by
  unfold typeWrapper
  -- Both kinds of wrapper ask the same of their parts.
  dsimp only
  generalize (if (c.kind == "type_assertion") = true then c.named[0]? else c.named[1]?) = type
  split_ifs
  all_goals
    refine made_node nofun (sound_node_of_forall_mayBind hkids rfl ?_ ?_)
    · cases type
      · simp
      · simp only
        split_ifs <;> simp [Goal.mayBind]
    · cases type
      · simp
      · simp only
        split_ifs <;> simp

theorem made_assignment : (assignment role c).Made kids role binds := by
  unfold assignment
  refine made_node nofun ?_
  cases hk : c.field? "left" with
  | none => exact sound_node_of_target hkids rfl rfl rfl rfl nofun (by simp) (by simp) (by simp)
  | some k =>
    refine sound_node_of_target hkids rfl rfl rfl rfl (fun hform => ?_) (by simp) (by simp)
      (by simp)
    exact isIdentifier_of_mem_run hkids (Cst.getElem?_of_field? hk) (Option.some.inj hform)

theorem made_around {kind : Kind} {inner : Role} (hkind : kind.bindsNames = true → binds = true)
    (htarget : kind.targetRole? = none) : (around kind inner role c).Made kids role binds :=
  made_node hkind (sound_node_of_forall_mayBind hkids htarget (by simp) (by simp))

theorem made_expr : (expr role c).Made kids role binds := by
  fun_cases expr role c
  case case31 | case32 | case34 | case38 => exact made_around hkids nofun rfl
  case case25 =>
    exact made_node nofun (sound_node_of_forall_mayBind hkids rfl (by simp) (by simp))
  all_goals
    simp [made_leaf_iff, made_node_iff, made_function, made_arrow, made_classLike, made_jsx,
      made_memberAccess, made_call, made_binary, made_typeWrapper hkids, made_assignment hkids,
      string, unknown, made_expression, Kind.isFree, Kind.nameRoles?, Kind.targetRole?,
      Kind.bindsNames, Kind.isPatternPart]

theorem made_objectMember : AllMade kids role binds (objectMember role c) := by
  fun_cases objectMember role c
  case case4 => exact allMade_cons.mpr ⟨made_around hkids nofun rfl, allMade_nil⟩
  all_goals
    simp [made_node_iff, spelled, Kind.isFree, Kind.nameRoles?, Kind.targetRole?,
      Kind.bindsNames, Kind.isPatternPart]

/-! ### Patterns and targets -/

theorem made_rest : (rest role c).Made kids role true := by
  refine made_node (fun _ => rfl) (sound_node_of_names hkids rfl ?_ (by simp))
  rintro _ hroles
  obtain rfl := Option.some.inj hroles
  simp

theorem made_arrayPattern : (arrayPattern role c).Made kids role true := by
  refine made_node (fun _ => rfl) (sound_node_of_names hkids rfl ?_ ?_)
  · rintro _ hroles s hs -
    obtain rfl := Option.some.inj hroles
    exact role?_of_mem_keepLastRest (fun _ => rfl) hs
  · exact allSound_keepLastRest (fun k => sound_as k _) _

theorem made_objectPattern : (objectPattern role c).Made kids role true := by
  refine made_node (fun _ => rfl) (sound_node_of_names hkids rfl ?_ ?_)
  · rintro _ hroles s hs -
    obtain rfl := Option.some.inj hroles
    exact role?_of_mem_keepLastRest (fun _ => rfl) hs
  · exact allSound_keepLastRest (fun k => sound_as k _) _

theorem made_assignmentPattern : (assignmentPattern role c).Made kids role true := by
  refine made_node (fun _ => rfl) (sound_node_of_names hkids rfl ?_ (by simp))
  rintro _ hroles
  obtain rfl := Option.some.inj hroles
  simp

theorem made_pattern : (pattern role c).Made kids role true := by
  fun_cases pattern role c
  · exact made_leaf fun _ => rfl
  · exact made_leaf fun _ => rfl
  · exact made_leaf fun _ => rfl
  · exact made_objectPattern hkids
  · exact made_objectPattern hkids
  · exact made_arrayPattern hkids
  · exact made_arrayPattern hkids
  · exact made_assignmentPattern hkids
  · exact made_assignmentPattern hkids
  · exact made_rest hkids
  · exact made_rest hkids
  · exact made_orElse (fun _ => rfl) (made_leaf nofun)
  · exact made_expr hkids

theorem made_patternMember : AllMade kids role true (patternMember role c) := by
  have hproperty {isShorthand : Bool} {span : Span} {key value : Step} (hkey : key.mayBind = false)
      (hrole : value.role? = some .value) (hsound : AllSound kids [key, value]) :
      AllMade kids role true [.node role (.bindingProperty isShorthand) span [key, value]] := by
    refine allMade_cons.mpr ⟨made_node (fun _ => rfl) ?_, allMade_nil⟩
    refine sound_node_of_names hkids rfl ?_ hsound
    rintro _ hroles
    obtain rfl := Option.some.inj hroles
    simp [hkey, hrole]
  fun_cases patternMember role c
  · exact hproperty (mayBind_keyOr _ c) (by simp) (by simp)
  · exact hproperty (mayBind_keyOr _ c) (by simp) (by simp)
  · exact hproperty rfl rfl (by simp [spelled, binder])
  · exact hproperty rfl rfl (by simp [spelled, binder])
  · rename_i key
    have hkey : key.mayBind = false ∧ key.Sound kids := by
      unfold key
      cases c.field? "left" <;> simp [spelled, Kind.bindsNames, Kind.isPatternPart]
    exact hproperty hkey.1 rfl ⟨hkey.2, (made_assignmentPattern hkids).sound, trivial⟩
  · simp

theorem made_target : (target role c).Made kids role true := by
  fun_cases target role c
  · exact made_leaf nofun
  · exact made_leaf nofun
  · exact made_memberAccess c
  · exact made_memberAccess c
  · exact made_pattern hkids
  · exact made_pattern hkids
  · exact made_pattern hkids
  · exact made_pattern hkids
  · exact made_orElse (fun _ => rfl) (made_leaf nofun)
  · exact made_orElse (fun _ => rfl) (made_leaf nofun)
  · exact made_expr hkids

theorem made_param : AllMade kids role binds (param role c (pattern .pattern c)) := by
  have hparam {isOptional isReadonly : Bool} {parts : List Step} (hparts : AllSound kids parts) :
      AllMade kids role binds [.node role (.param isOptional isReadonly) c.span parts] :=
    allMade_cons.mpr ⟨made_node nofun ((sound_node rfl).mpr hparts), allMade_nil⟩
  have hdefault {span : Span} (p value : Kid) : (Step.node .pattern .assignmentPattern span
      [p.as .left .pattern, value.as .right .expression]).Sound kids := by
    refine sound_node_of_names hkids rfl ?_ (by simp)
    rintro _ hroles
    obtain rfl := Option.some.inj hroles
    simp [Goal.mayBind]
  fun_cases param role c (pattern .pattern c)
  case case3 pattern | case6 pattern =>
    refine hparam ⟨?_, allSound_maybe _ _⟩
    unfold pattern
    cases c.field? "value" with
    | none => exact sound_as _ _
    | some value => exact hdefault _ value
  case case7 | case8 | case9 | case10 | case11 =>
    exact hparam ⟨(made_pattern hkids).sound, trivial⟩
  all_goals simp

end

/-! ### Types -/

theorem made_typeOr {k : Option Kid} {parent : Cst} :
    (typeOr role k parent).Made kids role binds :=
  made_orElse nofun (made_leaf nofun)

theorem made_literalType (c : Cst) : (literalType role c).Made kids role binds := by
  fun_cases literalType role c <;> exact made_leaf nofun

theorem made_type (c : Cst) : (type role c).Made kids role binds := by
  fun_cases type role c
  case case12 name =>
    refine made_node nofun ((sound_node rfl).mpr ⟨?_, allSound_maybe _ _⟩)
    unfold name
    cases (c.field? "name").or c.firstNamed? <;> exact sound_leaf _ _
  all_goals
    simp [made_leaf_iff, made_node_iff, made_typeOr, made_literalType, keywordType, unreadType,
      typeName, aroundType, Kind.isFree, Kind.nameRoles?, Kind.targetRole?, Kind.bindsNames,
      Kind.isPatternPart]

theorem made_tupleElement (c : Cst) : (tupleElement role c).Made kids role binds := by
  fun_cases tupleElement role c <;> simp [made_typeOr, made_type]

theorem made_signature (c : Cst) : AllMade kids role binds (signature role c) := by
  fun_cases signature role c
  all_goals
    simp [made_node_iff, Kind.isFree, Kind.nameRoles?, Kind.targetRole?, Kind.bindsNames,
      Kind.isPatternPart]

/-! ### Statements -/

theorem made_block (c : Cst) : (block role c).Made kids role binds :=
  made_node nofun ((sound_node rfl).mpr (allSound_many _ _))

theorem made_declaration (c : Cst) : (declaration role c).Made kids role binds :=
  made_node nofun ((sound_node rfl).mpr (allSound_many _ _))

@[simp] theorem sound_slot (k : Option Kid) (parent : Cst) : (slot role k parent).Sound kids :=
  sound_orElse k .statement (sound_unknown parent)

theorem made_slot {k : Option Kid} {parent : Cst} : (slot role k parent).Made kids role binds :=
  made_orElse nofun (made_leaf nofun)

@[simp] theorem sound_conditionOr (k : Option Kid) (parent : Cst) :
    (conditionOr role k parent).Sound kids :=
  sound_orElse k .condition (sound_unknown parent)

@[simp] theorem sound_blockOr (k : Option Kid) (parent : Cst) :
    (blockOr role k parent).Sound kids :=
  sound_orElse k .block (sound_leaf _ parent)

@[simp] theorem mayBind_slot (k : Option Kid) (parent : Cst) :
    (slot role k parent).mayBind = false := by
  cases k <;> rfl

@[simp] theorem role?_slot (k : Option Kid) (parent : Cst) :
    (slot role k parent).role? = some role :=
  role?_orElse_unknown k .statement parent

theorem made_blockOr {k : Option Kid} {parent : Cst} :
    (blockOr role k parent).Made kids role binds :=
  made_orElse nofun (made_leaf nofun)

@[simp] theorem sound_moduleSource (k : Option Kid) (parent : Cst) :
    (moduleSource k parent).Sound kids := by
  cases k <;> exact sound_leaf _ _

theorem made_exportDefault (c : Cst) : (exportDefault role c).Made kids role binds := by
  refine made_node nofun ((sound_node rfl).mpr ?_)
  split
  · split <;> simp
  · simp

theorem made_exportNamed (c : Cst) : (exportNamed role c).Made kids role binds := by
  refine made_node nofun ((sound_node rfl).mpr ?_)
  cases c.field? "source" <;> simp [string]

theorem made_specifier (imported : ImportedName) (span : Span) (binding : Cst) :
    (specifier role imported span binding).Made kids role binds :=
  made_node nofun ((sound_node rfl).mpr ⟨sound_leaf _ binding, trivial⟩)

theorem made_importClause (c : Cst) : AllMade kids role binds (importClause role c) := by
  intro s hs
  obtain ⟨k, -, hk⟩ := List.mem_filterMap.mp hs
  split at hk
  · cases hk
    exact made_specifier _ _ _
  · cases hk
    exact made_as nofun
  · cases hk
    exact made_as nofun
  · cases hk

section

variable {c : Cst} (hkids : LowersKids c.children kids)

include hkids

theorem made_condition : (condition role c).Made kids role binds := by
  unfold condition
  split_ifs
  · exact made_expression
  · exact made_expr hkids

theorem made_forIn : (forIn role c).Made kids role binds := by
  unfold forIn
  refine made_node nofun ?_
  cases hleft : c.field? "left" with
  | none => exact sound_node_of_target hkids rfl rfl rfl rfl nofun (by simp) (by simp) (by simp)
  | some left =>
    cases (c.field? "kind").map fun k => variableKind k.tree.text with
    | none =>
      refine sound_node_of_target hkids rfl rfl rfl rfl (fun hform => ?_) (by simp) (by simp)
        (by simp)
      exact isIdentifier_of_mem_run hkids (Cst.getElem?_of_field? hleft) (Option.some.inj hform)
    | some keyword => exact (sound_node rfl).mpr (by simp)

theorem made_statement : AllMade kids role binds (statement role c) := by
  fun_cases statement role c
  case case1 | case16 => exact allMade_cons.mpr ⟨made_around hkids nofun rfl, allMade_nil⟩
  case case18 label =>
    refine allMade_cons.mpr ⟨made_node nofun ((sound_node rfl).mpr ?_), allMade_nil⟩
    refine ⟨?_, sound_slot _ c, trivial⟩
    unfold label
    cases (c.field? "label").or c.firstNamed? <;> exact sound_leaf _ _
  case case22 | case25 => simp [made_gap, made_unknown]
  case case27 => simp [made_as_iff, Goal.mayBind]
  all_goals
    simp [made_leaf_iff, made_node_iff, made_declaration, made_function, made_classLike,
      made_forIn hkids, made_block, made_exportDefault, made_exportNamed, unknown, binder,
      Kind.isFree, Kind.nameRoles?, Kind.targetRole?, Kind.bindsNames, Kind.isPatternPart]

/-- The steps of a plan have the role that was asked for, make names of a pattern only if the goal
may, and are sound. -/
theorem made_steps (goal : Goal) : AllMade kids role goal.mayBind (steps goal role c) := by
  fun_cases steps goal role c
  case case46 => cases c.firstNamed? <;> simp [made_specifier]
  case case48 => cases c.field? "name" <;> simp [made_specifier]
  case case50 =>
    cases c.field? "name" with
    | none => simp
    | some name =>
      refine allMade_cons.mpr ⟨made_node nofun ((sound_node rfl).mpr ?_), allMade_nil⟩
      cases c.field? "alias" <;> simp [exportName]
  all_goals
    simp [made_node_iff, made_statement hkids, made_expr hkids,
      made_pattern hkids, made_target hkids, made_type, made_condition hkids, made_slot,
      made_declaration, made_block, made_function, made_classLike, made_param hkids,
      made_expression, made_tupleElement, made_typeOr, made_signature, made_objectMember hkids,
      made_patternMember hkids, made_rest hkids, made_blockOr, made_classMember, made_importClause,
      made_jsx, made_opening, made_jsxAttribute, made_jsxSpread, Goal.mayBind,
      Kind.isFree, Kind.nameRoles?, Kind.targetRole?, Kind.bindsNames, Kind.isPatternPart]

end

/-! ### Single goals -/

theorem isSingle_orElse_unknown {k : Option Kid} {goal : Goal} (hgoal : goal.isSingle = true)
    (parent : Cst) : (orElse k role goal (unknown role parent)).isSingle = true := by
  cases k with
  | none => rfl
  | some k => exact hgoal

theorem isSingle_expr (c : Cst) : (expr role c).isSingle = true := by
  fun_cases expr role c
  case case39 => exact isSingle_orElse_unknown rfl c
  case case40 | case41 | case42 => fun_cases jsx role c <;> rfl
  all_goals rfl

theorem isSingle_pattern (c : Cst) : (pattern role c).isSingle = true := by
  fun_cases pattern role c
  case case12 => exact isSingle_orElse_unknown rfl c
  case case13 => exact isSingle_expr c
  all_goals rfl

theorem isSingle_target (c : Cst) : (target role c).isSingle = true := by
  fun_cases target role c
  case case5 | case6 | case7 | case8 => exact isSingle_pattern c
  case case9 | case10 => exact isSingle_orElse_unknown rfl c
  case case11 => exact isSingle_expr c
  all_goals rfl

/-- The plan for a single goal is one step that makes at most one node. -/
theorem exists_of_isSingle {goal : Goal} (hgoal : goal.isSingle = true) (role : Role) (c : Cst) :
    ∃ s, steps goal role c = [s] ∧ s.isSingle = true := by
  cases goal with
  | expression => exact ⟨_, rfl, isSingle_expr c⟩
  | pattern => exact ⟨_, rfl, isSingle_pattern c⟩
  | target => exact ⟨_, rfl, isSingle_target c⟩
  | _ => cases hgoal

/-! ### Identifier targets -/

/-- The form of a wrapped target is that of its first named child. -/
theorem firstNamed?_of_innerTargetForm {c : Cst}
    (h : innerTargetForm c.children = .identifier) :
    ∃ k, c.firstNamed? = some k ∧ targetForm k.tree = .identifier := by
  have hfirst : ∀ (children : List Cst) (start : Nat),
      innerTargetForm children = .identifier →
      ∃ k, (((children.zipIdx start).map fun p => (⟨p.2, p.1⟩ : Kid)).find? fun k =>
        k.tree.isNamed && k.tree.kind != "comment") = some k ∧ targetForm k.tree = .identifier := by
    intro children
    induction children with
    | nil =>
      intro start h
      simp [innerTargetForm] at h
    | cons child children ih =>
      intro start h
      rw [innerTargetForm] at h
      rw [List.zipIdx_cons, List.map_cons, List.find?_cons]
      split_ifs at h with hnamed
      · exact ⟨⟨start, child⟩, by simp only [hnamed], h⟩
      · simp only [hnamed]
        exact ih (start + 1) h
  obtain ⟨k, hk, hform⟩ := hfirst c.children 0 h
  refine ⟨k, ?_, hform⟩
  rw [Cst.firstNamed?, Cst.named, List.head?_filter]
  exact hk

theorem targetForm_eq (c : Cst) : targetForm c =
    match c.kind with
    | "identifier" | "undefined" => .identifier
    | "member_expression" | "subscript_expression" => .member
    | "object_pattern" | "array_pattern" | "object" | "array" => .pattern
    | "parenthesized_expression" | "non_null_expression" => innerTargetForm c.children
    | _ => .other := by
  obtain ⟨kind, isNamed, field, span, text, children⟩ := c
  exact targetForm.eq_def _

theorem target_identifier {c : Cst} {kids : List Lowering} (hkids : LowersKids c.children kids)
    (hform : targetForm c = .identifier) {role : Role} {next : Nat} {n : Node}
    (hn : n ∈ (run kids (target role c) next).1) : n.kind.isIdentifier = true := by
  have hwrapped (h : innerTargetForm c.children = .identifier)
      (hn : n ∈ (run kids (orElse c.firstNamed? role .target (unknown role c)) next).1) :
      n.kind.isIdentifier = true := by
    obtain ⟨k, hk, hkform⟩ := firstNamed?_of_innerTargetForm h
    rw [hk] at hn
    have hmem : k ∈ c.kids := (List.mem_filter.mp (List.mem_of_head? hk)).1
    exact isIdentifier_of_mem_run hkids (Cst.getElem?_of_mem_kids hmem) hkform next n hn
  rw [targetForm_eq] at hform
  unfold target at hn
  split at hform
  case h_1 hkind | h_2 hkind =>
    simp only [hkind, leaf, run, List.mem_singleton] at hn
    rw [hn]
    rfl
  case h_9 hkind | h_10 hkind =>
    simp only [hkind] at hn
    exact hwrapped hform hn
  all_goals cases hform

/-- Carrying out the plans of a concrete node keeps the promise, if lowering its children does. -/
theorem lowers_of_kids {c : Cst} {kids : List Lowering} (hkids : LowersKids c.children kids) :
    Lowers c fun goal role next => runAll kids (steps goal role c) next := by
  refine ⟨?_, ?_, ?_, ?_, ?_⟩
  · intro goal role next n hn
    obtain ⟨s, hs, next', hn'⟩ := mem_runAll hn
    exact (made_steps hkids goal s hs).role n.role (role?_of_mem_run hkids hn')
  · intro goal role next n hn hbinds
    obtain ⟨s, hs, next', hn'⟩ := mem_runAll hn
    exact (made_steps hkids goal s hs).names (mayBind_of_mem_run hkids hn' hbinds)
  · intro goal role next hgoal
    obtain ⟨s, hs, hsingle⟩ := exists_of_isSingle hgoal role c
    simpa [hs, runAll] using length_run_le hkids hsingle next
  · intro hform role next n hn
    obtain ⟨s, hs, next', hn'⟩ := mem_runAll hn
    rw [List.mem_singleton.mp hs] at hn'
    exact target_identifier hkids hform hn'
  · intro goal role next n hn m hm
    obtain ⟨s, hs, next', hn'⟩ := mem_runAll hn
    exact Sound.conforms hkids s (made_steps hkids goal s hs).sound next' n hn' m hm

end Plan

/-! ### Lowered files -/

mutual

/-- Lowering keeps its promise for every concrete node. -/
theorem Cst.lower_lowers : (c : Cst) → Lowers c c.lower
  | ⟨kind, isNamed, field, span, text, children⟩ => by
    rw [Cst.lower]
    exact Plan.lowers_of_kids (Cst.lowerEach_lowers children)

theorem Cst.lowerEach_lowers : (cs : List Cst) → LowersKids cs (Cst.lowerEach cs)
  | [] => by
    intro index lower h
    simp [Cst.lowerEach] at h
  | c :: cs => by
    intro index lower h
    rw [Cst.lowerEach] at h
    cases index with
    | zero =>
      cases h
      exact ⟨c, rfl, Cst.lower_lowers c⟩
    | succ index => exact Cst.lowerEach_lowers cs index lower h

end

/-- Every node of a lowered file conforms. -/
theorem Program.ofCst_conforms (c : Cst) : ∀ n ∈ (Program.ofCst c).root.preorder, n.Conforms := by
  intro n hn
  rw [Program.ofCst, Node.preorder] at hn
  rcases List.mem_cons.mp hn with rfl | hn
  · exact ⟨nofun, nofun⟩
  · rw [Node.preorderAll_eq_flatMap] at hn
    obtain ⟨m, hm, hnm⟩ := List.mem_flatMap.mp hn
    exact c.lower_lowers.conforms hm n hnm

end TsxLint
