import TsxLint.Proofs.Lowering.Preorder

/-!
# The forms of the steps of a plan

Plans are many and the steps that they are made of are few. A step for a concrete node lowers one of
its children, loses some steps, or makes a node: most nodes stand at the place of the concrete node
itself; a few stand at the place of one of its children, with nothing or only that child inside; and
the pattern of a parameter with a default value stretches from the one to the other. Moreover
parameters are parts of functions and signatures only. What holds of each form holds of every plan,
so that a fact about all lowered trees needs one case a form and not one a plan.

## Main definitions

* `Kind.takesParams`, `Goal.givesParams`: where parameters go and where they come from.
* `Cst.default?`: the pattern and the default value of a concrete parameter.
* `Step.Planned`, `Step.Fits`: the forms of a step, and where such a step may stand.
* `LoweringInvariant`: a property of what lowering gives, one case a kind of step.

## Main results

* `Plan.allFit_steps`: every step of every plan has one of the forms.
* `LoweringInvariant.lower`: induction along lowering.
* `Program.ofCst_holdsParams`: in a lowered file a node holds parameters only if it takes some.
-/

namespace TsxLint

/-- Whether a node is a parameter. -/
def Kind.isParam : Kind → Bool
  | param .. => true
  | _ => false

/-- Whether a node takes parameters: a function, a function type or a signature. -/
def Kind.takesParams : Kind → Bool
  | function .. | arrowFunction _ | functionType _ | methodSignature _ | callSignature _ => true
  | _ => false

/-- Whether lowering for a goal gives parameters. -/
def Goal.givesParams : Goal → Bool
  | param => true
  | each goal => goal.givesParams
  | _ => false

namespace Cst

variable {c : Cst} {k : Kid}

theorem mem_kids_of_field? {field : String} (hk : c.field? field = some k) : k ∈ c.kids :=
  List.mem_of_find?_eq_some hk

theorem mem_kids_of_mem_named (hk : k ∈ c.named) : k ∈ c.kids := (List.mem_filter.mp hk).1

theorem mem_kids_of_firstNamed? (hk : c.firstNamed? = some k) : k ∈ c.kids :=
  mem_kids_of_mem_named (List.mem_of_head? hk)

theorem mem_kids_of_or_firstNamed? {field : String}
    (hk : (c.field? field).or c.firstNamed? = some k) : k ∈ c.kids := by
  rcases Option.or_eq_some_iff.mp hk with hk | ⟨-, hk⟩
  · exact mem_kids_of_field? hk
  · exact mem_kids_of_firstNamed? hk

/-- The pattern and the default value of a concrete parameter that has both. -/
def default? (c : Cst) : Option (Kid × Kid) :=
  if c.kind = "required_parameter" ∨ c.kind = "optional_parameter" then
    ((c.field? "pattern").or c.firstNamed?).bind fun pattern =>
      (c.field? "value").map fun value => (pattern, value)
  else none

theorem default?_eq_some_iff {pattern value : Kid} : c.default? = some (pattern, value) ↔
    (c.kind = "required_parameter" ∨ c.kind = "optional_parameter") ∧
      (c.field? "pattern").or c.firstNamed? = some pattern ∧ c.field? "value" = some value := by
  rw [default?]
  split_ifs with hkind
  · generalize (c.field? "pattern").or c.firstNamed? = pattern?
    cases pattern? <;> cases c.field? "value" <;> simp [hkind]
  · simp [hkind]

end Cst

namespace Step

/-- Whether a step makes parameters. -/
def givesParams : Step → Bool
  | .node _ kind _ _ => kind.isParam
  | .child _ _ goal => goal.givesParams
  | .lost _ => false

/-- The forms of the steps for a concrete node. -/
inductive Planned (c : Cst) : Step → Prop
  | child (role : Role) (index : Nat) (goal : Goal) : Planned c (.child role index goal)
  | lost (steps : List Step) : Planned c (.lost steps)
  /-- A node at the place of the concrete node. -/
  | here {role : Role} {kind : Kind} {parts : List Step} (hparts : ∀ s ∈ parts, Planned c s)
      (hparams : ∀ s ∈ parts, s.givesParams ≤ kind.takesParams) :
      Planned c (.node role kind c.span parts)
  /-- A node without parts at the place of a child. -/
  | leaf {role : Role} {kind : Kind} {k : Kid} (hk : k ∈ c.kids) : Planned c (leaf role kind k.tree)
  /-- A node around a child. -/
  | around {role inner : Role} {kind : Kind} {goal : Goal} {k : Kid} (hk : k ∈ c.kids)
      (hgoal : goal.givesParams = false) : Planned c (.node role kind k.tree.span [k.as inner goal])
  /-- A node around the name that a child spells. -/
  | naming {role inner : Role} {kind : Kind} {k : Kid} (hk : k ∈ c.kids) :
      Planned c (.node role kind k.tree.span [Plan.binder inner k.tree])
  /-- The pattern of a parameter with its default value. -/
  | withDefault {role : Role} {kind : Kind} {pattern value : Kid}
      (hdefault : c.default? = some (pattern, value)) :
      Planned c (.node role kind ⟨pattern.tree.span.start, value.tree.span.stop⟩
        [pattern.as .left .pattern, value.as .right .expression])

/-- A step of one of the forms that makes parameters only where they go. -/
def Fits (c : Cst) (params : Bool) (s : Step) : Prop :=
  s.Planned c ∧ s.givesParams ≤ params

/-- Steps that fit. -/
def AllFit (c : Cst) (params : Bool) (steps : List Step) : Prop := ∀ s ∈ steps, s.Fits c params

section

variable {c : Cst} {role : Role} {params : Bool} {goal : Goal} {kind : Kind}

@[simp] theorem allFit_nil : AllFit c params [] := by simp [AllFit]

@[simp] theorem allFit_cons {s : Step} {steps : List Step} :
    AllFit c params (s :: steps) ↔ s.Fits c params ∧ AllFit c params steps :=
  List.forall_mem_cons

@[simp] theorem allFit_append {steps steps' : List Step} :
    AllFit c params (steps ++ steps') ↔ AllFit c params steps ∧ AllFit c params steps' :=
  List.forall_mem_append

/-- The parts of a node of one of the forms fit into it. -/
theorem Planned.allFit_parts {span : Span} {parts : List Step}
    (h : (Step.node role kind span parts).Planned c) : AllFit c kind.takesParams parts := by
  cases h with
  | here hparts hparams => exact fun s hs => ⟨hparts s hs, hparams s hs⟩
  | leaf hk => exact allFit_nil
  | around hk hgoal =>
    exact allFit_cons.mpr ⟨⟨.child .., by simp [Kid.as, givesParams, hgoal]⟩, allFit_nil⟩
  | naming hk => exact allFit_cons.mpr ⟨⟨.leaf hk, Bool.false_le _⟩, allFit_nil⟩
  | withDefault hdefault =>
    exact allFit_cons.mpr ⟨⟨.child .., Bool.false_le _⟩,
      allFit_cons.mpr ⟨⟨.child .., Bool.false_le _⟩, allFit_nil⟩⟩

@[simp] theorem fits_node {parts : List Step} : (Step.node role kind c.span parts).Fits c params ↔
    AllFit c kind.takesParams parts ∧ kind.isParam ≤ params :=
  and_congr_left' ⟨Planned.allFit_parts, fun h =>
    .here (fun s hs => (h s hs).1) fun s hs => (h s hs).2⟩

@[simp] theorem fits_as {k : Kid} : (k.as role goal).Fits c params ↔ goal.givesParams ≤ params :=
  and_iff_right (.child role k.index goal)

@[simp] theorem fits_leaf : (leaf role kind c).Fits c params ↔ kind.isParam ≤ params :=
  and_iff_right (.here (by simp) (by simp))

@[simp] theorem fits_unknown : (unknown role c).Fits c params :=
  fits_leaf.mpr (Bool.false_le _)

@[simp] theorem fits_unreadType : (unreadType role c).Fits c params :=
  fits_leaf.mpr (Bool.false_le _)

@[simp] theorem fits_gap : (gap c).Fits c params := ⟨.lost _, Bool.false_le _⟩

theorem fits_leaf_of_mem {k : Kid} (hk : k ∈ c.kids) (hkind : kind.isParam = false) :
    (leaf role kind k.tree).Fits c params :=
  ⟨.leaf hk, by simp [leaf, givesParams, hkind]⟩

@[simp] theorem fits_orElse {k : Option Kid} {other : Step} :
    (orElse k role goal other).Fits c params ↔
      (k.isSome = true → goal.givesParams ≤ params) ∧ (k = none → other.Fits c params) := by
  cases k <;> simp [orElse]

@[simp] theorem fits_expression {k : Option Kid} : (expression role k c).Fits c params := by
  simp [expression, Goal.givesParams]

@[simp] theorem fits_typeOr {k : Option Kid} : (typeOr role k c).Fits c params := by
  simp [typeOr, Goal.givesParams]

@[simp] theorem allFit_maybe {k : Option Kid} :
    AllFit c params (maybe k role goal) ↔ (k.isSome = true → goal.givesParams ≤ params) := by
  cases k <;> simp [maybe]

@[simp] theorem allFit_many {ks : List Kid} :
    AllFit c params (many ks role goal) ↔ ∀ k ∈ ks, goal.givesParams ≤ params := by
  simp [AllFit, many]

/-- The step for a child that need not be there. -/
theorem allFit_optional {k : Option Kid} {step : Kid → Step}
    (hstep : ∀ k' ∈ k, (step k').Fits c params) : AllFit c params (k.map step).toList := by
  cases k with
  | none => exact allFit_nil
  | some k => exact allFit_cons.mpr ⟨hstep k rfl, allFit_nil⟩

/-- Steps for some of the children. -/
theorem allFit_filterMap {ks : List Kid} {step : Kid → Option Step}
    (hstep : ∀ k ∈ ks, ∀ s ∈ step k, s.Fits c params) : AllFit c params (ks.filterMap step) := by
  intro s hs
  obtain ⟨k, hk, hks⟩ := List.mem_filterMap.mp hs
  exact hstep k hk s hks

end

end Step

namespace Plan

open Step

variable {c : Cst} {role : Role} {params : Bool}

/-! ### Names, functions and classes -/

theorem fits_key {k : Kid} (hk : k ∈ c.kids) : (key k).Fits c params := by
  fun_cases key k
  case case4 => simp [Goal.givesParams]
  all_goals exact fits_leaf_of_mem hk rfl

@[simp] theorem fits_keyOr_field (field : String) : (keyOr (c.field? field) c).Fits c params := by
  cases hk : c.field? field with
  | none => exact fits_unknown
  | some k => exact fits_key (Cst.mem_kids_of_field? hk)

@[simp] theorem allFit_names (field : String) (inner : Role) :
    AllFit c params ((c.field? field).map fun k => binder inner k.tree).toList :=
  allFit_optional fun _ hk => fits_leaf_of_mem (Cst.mem_kids_of_field? hk) rfl

@[simp] theorem allFit_signatureParts (k : Option Kid) : AllFit c true (signatureParts c k) := by
  simp [signatureParts]

@[simp] theorem fits_function (form : FunctionForm) : (function form role c).Fits c params := by
  by_cases hform : form = .method <;>
    simp [function, hform, Kind.takesParams, Kind.isParam, Goal.givesParams]

@[simp] theorem fits_arrow : (arrow role c).Fits c params := by
  unfold arrow
  simp only [fits_node, allFit_append, allFit_cons, allFit_nil, and_true]
  refine ⟨⟨⟨?_, by simp [Goal.givesParams]⟩, ?_⟩, Bool.false_le _⟩
  · split
    · rename_i single hsingle
      exact allFit_cons.mpr
        ⟨⟨.around (Cst.mem_kids_of_field? hsingle) rfl, Bool.le_refl _⟩, allFit_nil⟩
    · simp [Kind.takesParams]
  · split
    · split_ifs <;> simp [Goal.givesParams]
    · exact fits_unknown

@[simp] theorem fits_classLike (isDeclaration : Bool) :
    (classLike isDeclaration role c).Fits c params := by
  simp [classLike, Kind.isParam, Goal.givesParams]

theorem fits_classMember : (classMember role c).Fits c params := by
  have hfield {name : Kid} (hname : (c.field? "name").or (c.field? "property") = some name) :
      name ∈ c.kids := by
    rcases Option.or_eq_some_iff.mp hname with hk | ⟨-, hk⟩
    · exact Cst.mem_kids_of_field? hk
    · exact Cst.mem_kids_of_field? hk
  fun_cases classMember role c
  case case2 name hname _ _ =>
    simp [fits_key (Cst.mem_kids_of_field? hname), Kind.isParam]
  case case4 name hname | case6 name hname =>
    simp [fits_key (hfield hname), Kind.isParam, Goal.givesParams]
  all_goals simp [Kind.isParam, Goal.givesParams]

/-! ### Markup -/

theorem fits_elementName {k : Kid} (hk : k ∈ c.kids) : (elementName role k.tree).Fits c params := by
  unfold elementName
  split <;> exact fits_leaf_of_mem hk rfl

@[simp] theorem fits_opening : (opening role c).Fits c params := by
  refine fits_node.mpr ⟨allFit_cons.mpr ⟨?_, allFit_filterMap fun k _ s hs => ?_⟩, Bool.false_le _⟩
  · split
    · rename_i name hname
      exact fits_elementName (Cst.mem_kids_of_field? hname)
    · exact fits_leaf.mpr (Bool.false_le _)
  · split at hs
    · cases hs
      exact fits_as.mpr (Bool.false_le _)
    · cases hs
      exact fits_as.mpr (Bool.false_le _)
    · cases hs

@[simp] theorem allFit_jsxChildren : AllFit c params (jsxChildren c) := by
  refine allFit_filterMap fun k hk s hs => ?_
  have htext {value : String} : (leaf .child (.jsxText value) k.tree).Fits c params :=
    fits_leaf_of_mem (Cst.mem_kids_of_mem_named hk) rfl
  split at hs
  case h_1 | h_2 =>
    split_ifs at hs
    · cases hs
    · exact Option.some.inj hs ▸ htext
  case h_7 => cases hs
  all_goals
    cases hs
    exact fits_as.mpr (Bool.false_le _)

@[simp] theorem fits_jsx : (jsx role c).Fits c params := by
  fun_cases jsx role c <;> simp [Kind.isParam, Goal.givesParams]

theorem fits_jsxAttribute : (jsxAttribute role c).Fits c params := by
  refine fits_node.mpr ⟨allFit_cons.mpr ⟨?_, allFit_optional fun value hvalue => ?_⟩,
    Bool.false_le _⟩
  · split
    · rename_i name hname
      have hk := Cst.mem_kids_of_mem_named (List.mem_of_getElem? hname)
      split_ifs <;> exact fits_leaf_of_mem hk rfl
    · exact fits_leaf.mpr (Bool.false_le _)
  · have hk := Cst.mem_kids_of_mem_named (List.mem_of_getElem? hvalue)
    split
    case h_1 => exact fits_leaf_of_mem hk rfl
    case h_6 => exact ⟨.around hk rfl, Bool.false_le _⟩
    all_goals exact fits_as.mpr (Bool.false_le _)

theorem fits_jsxSpread : (jsxSpread role c).Fits c params := by
  refine fits_node.mpr ⟨allFit_cons.mpr ⟨?_, allFit_nil⟩, Bool.false_le _⟩
  split
  · split_ifs <;> exact fits_as.mpr (Bool.false_le _)
  · exact fits_unknown

/-! ### Expressions -/

@[simp] theorem fits_memberAccess : (memberAccess role c).Fits c params := by
  refine fits_node.mpr ⟨allFit_cons.mpr ⟨fits_expression, allFit_cons.mpr ⟨?_, allFit_nil⟩⟩,
    Bool.false_le _⟩
  split_ifs
  · exact fits_expression
  · split
    · rename_i property hproperty
      have hk := Cst.mem_kids_of_field? hproperty
      split_ifs <;> exact fits_leaf_of_mem hk rfl
    · exact fits_leaf.mpr (Bool.false_le _)

@[simp] theorem fits_call : (call role c).Fits c params := by
  refine fits_node.mpr ⟨allFit_cons.mpr ⟨fits_expression, ?_⟩, Bool.false_le _⟩
  split
  · split_ifs <;> simp [Goal.givesParams]
  · exact allFit_nil

@[simp] theorem fits_binary : (binary role c).Fits c params := by
  unfold binary
  dsimp only
  split <;> simp [Kind.isParam]

@[simp] theorem fits_typeWrapper : (typeWrapper role c).Fits c params := by
  refine fits_node.mpr ⟨allFit_cons.mpr ⟨fits_expression, allFit_cons.mpr ⟨?_, allFit_nil⟩⟩, ?_⟩
  · generalize (if (c.kind == "type_assertion") = true then c.named[0]? else c.named[1]?) = type
    cases type with
    | none => exact fits_unreadType
    | some k =>
      dsimp only
      split_ifs <;> exact fits_as.mpr (Bool.false_le _)
  · split_ifs <;> exact Bool.false_le _

theorem fits_expr : (expr role c).Fits c params := by
  fun_cases expr role c
  all_goals simp [assignment, around, string, Kind.isParam, Goal.givesParams]

theorem allFit_objectMember : AllFit c params (objectMember role c) := by
  fun_cases objectMember role c
  all_goals simp [around, spelled, Kind.isParam]

/-! ### Patterns and targets -/

theorem fits_rest : (rest role c).Fits c params := by
  simp [rest, Kind.isParam, Goal.givesParams]

theorem allFit_keepLastRest {other : Kid → Step} (hother : ∀ k, (other k).Fits c params)
    (ks : List Kid) : AllFit c params (keepLastRest other ks) := by
  induction ks with
  | nil => exact allFit_nil
  | cons k ks ih =>
    refine allFit_cons.mpr ⟨?_, ih⟩
    split_ifs
    · exact ⟨.lost _, Bool.false_le _⟩
    · exact fits_as.mpr (Bool.false_le _)
    · exact hother k

theorem fits_arrayPattern : (arrayPattern role c).Fits c params :=
  fits_node.mpr ⟨allFit_keepLastRest (fun _ => fits_as.mpr (Bool.false_le _)) _, Bool.false_le _⟩

theorem fits_objectPattern : (objectPattern role c).Fits c params :=
  fits_node.mpr ⟨allFit_keepLastRest (fun _ => fits_as.mpr (Bool.false_le _)) _, Bool.false_le _⟩

theorem fits_assignmentPattern : (assignmentPattern role c).Fits c params := by
  simp [assignmentPattern, Kind.isParam, Goal.givesParams]

theorem fits_pattern : (pattern role c).Fits c params := by
  fun_cases pattern role c
  all_goals
    simp [fits_objectPattern, fits_arrayPattern, fits_assignmentPattern, fits_rest, fits_expr,
      binder, Kind.isParam, Goal.givesParams]

theorem allFit_patternMember : AllFit c params (patternMember role c) := by
  fun_cases patternMember role c
  case case5 key =>
    have hkey : key.Fits c false := by
      unfold key
      cases hk : c.field? "left" with
      | none => exact fits_unknown
      | some left => exact fits_leaf_of_mem (Cst.mem_kids_of_field? hk) rfl
    simp [hkey, fits_assignmentPattern, Kind.takesParams, Kind.isParam]
  all_goals simp [spelled, binder, Kind.isParam, Goal.givesParams]

theorem fits_target : (target role c).Fits c params := by
  fun_cases target role c
  all_goals simp [fits_pattern, fits_expr, Kind.isParam, Goal.givesParams]

theorem allFit_param : AllFit c true (param role c (pattern .pattern c)) := by
  fun_cases param role c (pattern .pattern c)
  case case3 hkind p hp _ pattern | case6 hkind p hp _ pattern =>
    have hpattern : pattern.Fits c false := by
      unfold pattern
      cases hvalue : c.field? "value" with
      | none => exact fits_as.mpr (Bool.false_le _)
      | some value =>
        have hdefault := Cst.default?_eq_some_iff.mpr ⟨by simp [hkind], hp, hvalue⟩
        exact ⟨.withDefault hdefault, Bool.false_le _⟩
    simp [hpattern, Kind.takesParams, Goal.givesParams]
  all_goals simp [fits_pattern]

/-! ### Types -/

theorem fits_literalType : (literalType role c).Fits c params := by
  fun_cases literalType role c
  all_goals simp [keywordType, Kind.isParam]

theorem fits_type : (type role c).Fits c params := by
  fun_cases type role c
  case case12 name =>
    have hname : name.Fits c false := by
      unfold name
      cases hk : (c.field? "name").or c.firstNamed? with
      | none => exact fits_leaf.mpr (Bool.false_le _)
      | some k => exact fits_leaf_of_mem (Cst.mem_kids_of_or_firstNamed? hk) rfl
    simp [hname, Kind.takesParams, Kind.isParam, Goal.givesParams]
  all_goals
    simp [fits_literalType, keywordType, typeName, aroundType, Kind.takesParams, Kind.isParam,
      Goal.givesParams]

theorem fits_tupleElement : (tupleElement role c).Fits c params := by
  fun_cases tupleElement role c <;> simp [fits_type]

theorem allFit_signature : AllFit c params (signature role c) := by
  fun_cases signature role c
  all_goals simp [Kind.takesParams, Kind.isParam, Goal.givesParams]

/-! ### Statements -/

theorem fits_block : (block role c).Fits c params := by
  simp [block, Kind.isParam, Goal.givesParams]

theorem fits_declaration : (declaration role c).Fits c params := by
  simp [declaration, Kind.isParam, Goal.givesParams]

@[simp] theorem fits_slot {k : Option Kid} : (slot role k c).Fits c params := by
  simp [slot, Goal.givesParams]

theorem fits_condition : (condition role c).Fits c params := by
  unfold condition
  split_ifs <;> simp [fits_expr]

@[simp] theorem fits_conditionOr {k : Option Kid} : (conditionOr role k c).Fits c params := by
  simp [conditionOr, Goal.givesParams]

@[simp] theorem fits_blockOr {k : Option Kid} : (blockOr role k c).Fits c params := by
  simp [blockOr, Kind.isParam, Goal.givesParams]

theorem fits_forIn : (forIn role c).Fits c params := by
  unfold forIn
  cases c.field? "left" with
  | none => simp [Kind.isParam]
  | some left =>
    cases (c.field? "kind").map fun k => variableKind k.tree.text <;>
      simp [Kind.isParam, Goal.givesParams]

@[simp] theorem fits_moduleSource_field (field : String) :
    (moduleSource (c.field? field) c).Fits c params := by
  cases hk : c.field? field with
  | none => exact fits_leaf.mpr (Bool.false_le _)
  | some k => exact fits_leaf_of_mem (Cst.mem_kids_of_field? hk) rfl

theorem fits_exportDefault : (exportDefault role c).Fits c params := by
  refine fits_node.mpr ⟨allFit_cons.mpr ⟨?_, allFit_nil⟩, Bool.false_le _⟩
  split
  · split <;> exact fits_as.mpr (Bool.false_le _)
  · exact fits_unknown

theorem fits_exportNamed : (exportNamed role c).Fits c params := by
  have hsource {params : Bool} :
      AllFit c params ((c.field? "source").map fun k => string .source k.tree).toList :=
    allFit_optional fun _ hk => fits_leaf_of_mem (Cst.mem_kids_of_field? hk) rfl
  simp [exportNamed, hsource, Kind.isParam, Goal.givesParams]

theorem allFit_statement : AllFit c params (statement role c) := by
  have hbinder {name : Kid} {params : Bool} (hname : c.field? "name" = some name) :
      (binder .name name.tree).Fits c params :=
    fits_leaf_of_mem (Cst.mem_kids_of_field? hname) rfl
  fun_cases statement role c
  case case18 label =>
    have hlabel {params : Bool} : label.Fits c params := by
      unfold label
      cases hk : (c.field? "label").or c.firstNamed? with
      | none => exact fits_leaf.mpr (Bool.false_le _)
      | some k => exact fits_leaf_of_mem (Cst.mem_kids_of_or_firstNamed? hk) rfl
    simp [hlabel, Kind.isParam]
  case case23 name hname _ => simp [hbinder hname, Kind.isParam, Goal.givesParams]
  case case24 name value _ hname => simp [hbinder hname, Kind.isParam, Goal.givesParams]
  all_goals
    simp [fits_declaration, fits_forIn, fits_block, fits_exportDefault, fits_exportNamed, around,
      Kind.isParam, Goal.givesParams]

theorem allFit_importClause : AllFit c params (importClause role c) := by
  refine allFit_filterMap fun k hk s hs => ?_
  split at hs
  · cases hs
    exact ⟨.naming (Cst.mem_kids_of_mem_named hk), Bool.false_le _⟩
  · cases hs
    exact fits_as.mpr (Bool.false_le _)
  · cases hs
    exact fits_as.mpr (Bool.false_le _)
  · cases hs

theorem fits_specifier {imported : ImportedName} {k : Kid} (hk : k ∈ c.kids) :
    (specifier role imported c.span k.tree).Fits c params :=
  fits_node.mpr ⟨allFit_cons.mpr ⟨fits_leaf_of_mem hk rfl, allFit_nil⟩, Bool.false_le _⟩

/-- Every step of every plan has one of the forms, and only a plan for parameters makes some. -/
theorem allFit_steps (goal : Goal) : AllFit c goal.givesParams (steps goal role c) := by
  fun_cases steps goal role c
  case case46 =>
    exact allFit_optional fun _ hk => fits_specifier (Cst.mem_kids_of_firstNamed? hk)
  case case48 =>
    refine allFit_optional fun name hname => fits_specifier ?_
    cases hk : c.field? "alias" with
    | none => exact Cst.mem_kids_of_field? hname
    | some k => exact Cst.mem_kids_of_field? hk
  case case50 =>
    refine allFit_optional fun name hname =>
      fits_node.mpr ⟨allFit_cons.mpr ⟨?_, ?_⟩, Bool.false_le _⟩
    · exact fits_leaf_of_mem (Cst.mem_kids_of_field? hname) rfl
    · exact allFit_optional fun _ hk => fits_leaf_of_mem (Cst.mem_kids_of_field? hk) rfl
  all_goals
    simp [allFit_statement, fits_expr, fits_pattern, fits_target, fits_type, fits_condition,
      fits_declaration, fits_block, allFit_param, fits_tupleElement, allFit_signature,
      allFit_objectMember, allFit_patternMember, fits_rest, fits_classMember, allFit_importClause,
      fits_jsxAttribute, fits_jsxSpread, Kind.isParam, Goal.givesParams]

end Plan

/-! ### Induction along lowering -/

theorem Node.forall_mem_preorder {P : Node → Prop} {n : Node} :
    (∀ m ∈ n.preorder, P m) ↔ P n ∧ ∀ child ∈ n.children, ∀ m ∈ child.preorder, P m := by
  rw [preorder_eq, List.forall_mem_cons, preorderAll_eq_flatMap, List.forall_mem_flatMap]

/-- A property of what lowering gives, with what it rests on: a node has it when each of its parts
comes from a step and has it, what lowering a child gives has it, and so has all that a plan makes.
-/
structure LoweringInvariant (P : Cst → Goal → Node → Prop) (Q : Cst → Step → Node → Prop) :
    Prop where
  node : ∀ {c role id kind span parts children}, (∀ child ∈ children, ∃ s ∈ parts, Q c s child) →
    Q c (.node role kind span parts) ⟨role, id, kind, span, children⟩
  child : ∀ {c : Cst} {role index goal child n}, c.children[index]? = some child →
    P child goal n → Q c (.child role index goal) n
  plan : ∀ {c goal role n}, ∀ s ∈ Plan.steps goal role c, Q c s n → P c goal n

namespace LoweringInvariant

variable {P : Cst → Goal → Node → Prop} {Q : Cst → Step → Node → Prop}

/-- What lowering the children gives has the property. -/
def OfKids (P : Cst → Goal → Node → Prop) (children : List Cst) (kids : List Lowering) : Prop :=
  ∀ (index : Nat) (lower : Lowering), kids[index]? = some lower →
    ∃ child, children[index]? = some child ∧
      ∀ {goal role next}, ∀ n ∈ (lower goal role next).1, P child goal n

mutual

theorem run (h : LoweringInvariant P Q) {c : Cst} {kids : List Lowering}
    (hkids : OfKids P c.children kids) :
    (step : Step) → ∀ next, ∀ n ∈ (step.run kids next).1, Q c step n
  | .node role kind span parts, next, n, hn => by
    rw [Step.run, List.mem_singleton] at hn
    subst hn
    exact h.node fun child hchild => h.runAll hkids parts _ child (Step.mem_arrange.mp hchild)
  | .child role index goal, next, n, hn => by
    rw [Step.run] at hn
    cases hk : kids[index]? with
    | none => simp [hk] at hn
    | some lower =>
      obtain ⟨child, hchild, hlower⟩ := hkids index lower hk
      rw [hk] at hn
      exact h.child hchild (hlower n hn)
  | .lost steps, next, n, hn => by simp [Step.run] at hn

theorem runAll (h : LoweringInvariant P Q) {c : Cst} {kids : List Lowering}
    (hkids : OfKids P c.children kids) :
    (steps : List Step) → ∀ next, ∀ n ∈ (Step.runAll kids steps next).1, ∃ s ∈ steps, Q c s n
  | [], next, n, hn => by simp [Step.runAll] at hn
  | step :: steps, next, n, hn => by
    rw [Step.runAll] at hn
    rcases List.mem_append.mp hn with hn | hn
    · exact ⟨step, List.mem_cons_self, h.run hkids step next n hn⟩
    · obtain ⟨s, hs, hn⟩ := h.runAll hkids steps _ n hn
      exact ⟨s, List.mem_cons_of_mem step hs, hn⟩

end

mutual

theorem lower (h : LoweringInvariant P Q) : (c : Cst) → ∀ {goal role next},
    ∀ n ∈ (c.lower goal role next).1, P c goal n
  | ⟨kind, isNamed, field, span, text, children⟩, goal, role, next, n, hn => by
    rw [Cst.lower] at hn
    have hkids : OfKids P (Cst.mk kind isNamed field span text children).children _ :=
      h.lowerEach children
    obtain ⟨s, hs, hn⟩ := h.runAll hkids _ next n hn
    exact h.plan s hs hn

theorem lowerEach (h : LoweringInvariant P Q) : (cs : List Cst) → OfKids P cs (Cst.lowerEach cs)
  | [] => by
    intro index lower hk
    simp [Cst.lowerEach] at hk
  | c :: cs => by
    intro index lower hk
    rw [Cst.lowerEach] at hk
    cases index with
    | zero =>
      cases hk
      exact ⟨c, rfl, h.lower c⟩
    | succ index => exact h.lowerEach cs index lower hk

end

end LoweringInvariant

/-! ### Where parameters stand -/

/-- A node that holds parameters only if it takes some. -/
def Node.HoldsParams (n : Node) : Prop :=
  ∀ child ∈ n.children, child.kind.isParam ≤ n.kind.takesParams

/-- Only a goal that asks for parameters gives some, and they stand only in nodes that take some. -/
theorem holdsParams_invariant : LoweringInvariant
    (fun _ goal n => n.kind.isParam ≤ goal.givesParams ∧ ∀ m ∈ n.preorder, m.HoldsParams)
    (fun c s n => s.Planned c →
      n.kind.isParam ≤ s.givesParams ∧ ∀ m ∈ n.preorder, m.HoldsParams) where
  node := by
    intro c role id kind span parts children hparts hs
    refine ⟨Bool.le_refl _, Node.forall_mem_preorder.mpr ⟨fun child hchild => ?_, ?_⟩⟩
    · obtain ⟨s, hs', hn⟩ := hparts child hchild
      have hfits := hs.allFit_parts s hs'
      exact Bool.le_trans (hn hfits.1).1 hfits.2
    · intro child hchild
      obtain ⟨s, hs', hn⟩ := hparts child hchild
      exact (hn (hs.allFit_parts s hs').1).2
  child := fun _ hn _ => hn
  plan := by
    intro c goal role n s hs hn
    have hfits := Plan.allFit_steps goal s hs
    exact ⟨Bool.le_trans (hn hfits.1).1 hfits.2, (hn hfits.1).2⟩

/-- In a lowered file a node holds parameters only if it takes some. -/
theorem Program.ofCst_holdsParams (c : Cst) :
    ∀ n ∈ (Program.ofCst c).root.preorder, n.HoldsParams := by
  refine Node.forall_mem_preorder.mpr ⟨fun child hchild => ?_, fun child hchild => ?_⟩
  · exact (holdsParams_invariant.lower c child hchild).1
  · exact (holdsParams_invariant.lower c child hchild).2

end TsxLint
