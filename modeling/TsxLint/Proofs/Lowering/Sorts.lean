import TsxLint.Component.Function
import TsxLint.Proofs.Binding.Walk
import TsxLint.Proofs.Lowering.Forms

/-!
# Sorts of parts

A node may hold any part under any role, as far as the typed tree goes. In a lowered file it does
not: statements that may hold returns stand where a search for returns looks for them, or in a node
that ends such a search; the parameters of a function are parameters, and the members of an object
pattern are properties and rest elements. Plans keep these rules since each goal gives nodes of a
certain sort.

## Main definitions

* `PartSort`, `Kind.sortAt`: sorts of nodes, and which sort a node holds under a role.
* `Step.Regular`, `Node.Regular`: steps and nodes whose parts are of the sorts asked for.

## Main results

* `Plan.allRegular_steps`: every step of every plan is regular.
* `Program.ofCst_regular`: in a lowered file so is every node but the root.
-/

namespace TsxLint

/-! ### Sorts -/

/-- Whether a node is a return, or a statement or clause in which returns are looked for. -/
def Kind.mayReturn : Kind → Bool
  | returnStatement => true
  | kind => !kind.returnRoles.isEmpty

/-- Whether a node holds statements that a search for returns around it does not look into. -/
def Kind.endsReturns : Kind → Bool
  | function .. | arrowFunction _ | staticBlock | exportNamedDeclaration .. => true
  | _ => false

/-- Sorts of nodes: any node, one that holds no returns, a parameter, and the members of a pattern
that are a property or a rest element. -/
inductive PartSort
  | any
  | plain
  | param
  | property
  | rest
  deriving DecidableEq, Repr

namespace PartSort

/-- Whether a node of a kind is of a sort. -/
def has : PartSort → Kind → Bool
  | any, _ => true
  | plain, kind => !kind.mayReturn
  | param, .param .. => true
  | property, .bindingProperty _ => true
  | rest, .restElement => true
  | _, _ => false

/-- Whether all nodes of the first sort are of the second. -/
def le : PartSort → PartSort → Bool
  | _, any => true
  | any, _ => false
  | _, plain => true
  | a, b => a == b

@[simp] theorem has_any (kind : Kind) : any.has kind = true := rfl

@[simp] theorem has_plain (kind : Kind) : plain.has kind = !kind.mayReturn := rfl

@[simp] theorem le_any (a : PartSort) : a.le any = true := by cases a <;> rfl

@[simp] theorem le_self (a : PartSort) : a.le a = true := by cases a <;> rfl

@[simp] theorem any_le_iff {a : PartSort} : any.le a = true ↔ a = any := by
  cases a <;> simp [le]

@[simp] theorem param_le_plain : param.le plain = true := rfl

theorem has_of_le {a b : PartSort} (h : a.le b = true) {kind : Kind} (hkind : a.has kind = true) :
    b.has kind = true := by
  cases b with
  | any => rfl
  | plain =>
    cases a with
    | any => cases h
    | plain => exact hkind
    | param | property | rest => cases kind <;> first | rfl | cases hkind
  | param | property | rest => cases a <;> first | exact hkind | cases h

theorem isParam_of_has {kind : Kind} (h : param.has kind = true) : kind.isParam = true := by
  cases kind <;> first | rfl | cases h

theorem isPatternPart_of_has {a : PartSort} (ha : a = property ∨ a = rest) {kind : Kind}
    (h : a.has kind = true) : kind.isPatternPart = true := by
  rcases ha with rfl | rfl <;> cases kind <;> first | rfl | cases h

end PartSort

/-- The sort of the parts that a node of a lowered file may hold under a role. -/
def Kind.sortAt : Kind → Role → PartSort
  | function .., .param | arrowFunction _, .param => .param
  | objectPattern, .property => .property
  | objectPattern, .rest | arrayPattern _, .rest => .rest
  | kind, role => if kind.endsReturns || kind.returnRoles.contains role then .any else .plain

/-- The sort of the nodes that lowering for a goal gives. -/
def Goal.sort : Goal → PartSort
  | statement | elseBranch | block | functionBody | switchBody | switchCase | catchClause
  | finallyClause => .any
  | param => .param
  | patternMember => .property
  | rest => .rest
  | each goal => goal.sort
  | _ => .plain

/-- A node whose parts are of the sorts that it may hold under their roles. -/
def Node.Regular (n : Node) : Prop := ∀ c ∈ n.children, (n.kind.sortAt c.role).has c.kind = true

namespace Step

/-! ### Regular steps -/

mutual

/-- A step whose nodes are of the sort given for their role, and their parts of the sorts that they
may hold. -/
def Regular (sortAt : Role → PartSort) : Step → Prop
  | .node role kind _ parts => (sortAt role).has kind = true ∧ AllRegular kind.sortAt parts
  | .child role _ goal => goal.sort.le (sortAt role) = true
  | .lost _ => True

/-- Steps whose nodes are of the sorts given for their roles. -/
def AllRegular (sortAt : Role → PartSort) : List Step → Prop
  | [] => True
  | step :: steps => step.Regular sortAt ∧ AllRegular sortAt steps

end

section

variable {sortAt : Role → PartSort} {role : Role} {kind : Kind} {goal : Goal} {k : Option Kid}
  {c : Cst}

theorem allRegular_iff {steps : List Step} :
    AllRegular sortAt steps ↔ ∀ s ∈ steps, s.Regular sortAt := by
  induction steps with
  | nil => simp [AllRegular]
  | cons s steps ih => simp [AllRegular, ih]

@[simp] theorem allRegular_nil : AllRegular sortAt [] := by simp [AllRegular]

@[simp] theorem allRegular_cons {s : Step} {steps : List Step} :
    AllRegular sortAt (s :: steps) ↔ s.Regular sortAt ∧ AllRegular sortAt steps := by
  rw [AllRegular]

@[simp] theorem allRegular_append {steps steps' : List Step} :
    AllRegular sortAt (steps ++ steps') ↔ AllRegular sortAt steps ∧ AllRegular sortAt steps' := by
  simp [allRegular_iff, or_imp, forall_and]

@[simp] theorem regular_lost (steps : List Step) : (Step.lost steps).Regular sortAt := by
  simp [Regular]

@[simp] theorem regular_gap : (gap c).Regular sortAt := regular_lost _

@[simp] theorem regular_node (h : (sortAt role).has kind = true) {span : Span} {parts : List Step} :
    (Step.node role kind span parts).Regular sortAt ↔ AllRegular kind.sortAt parts := by
  rw [Regular]
  exact and_iff_right h

@[simp] theorem regular_leaf (h : (sortAt role).has kind = true) :
    (leaf role kind c).Regular sortAt := by
  rw [leaf, regular_node h]
  exact allRegular_nil

@[simp] theorem regular_as (h : goal.sort.le (sortAt role) = true) (k : Kid) :
    (k.as role goal).Regular sortAt := by
  rw [Kid.as, Regular]
  exact h

section

variable (h : PartSort.plain.le (sortAt role) = true)

include h

@[simp] theorem regular_unknown : (unknown role c).Regular sortAt :=
  regular_leaf (PartSort.has_of_le h rfl)

@[simp] theorem regular_unreadType : (unreadType role c).Regular sortAt :=
  regular_leaf (PartSort.has_of_le h rfl)

end

@[simp] theorem regular_orElse {other : Step} (h : goal.sort.le (sortAt role) = true)
    (hother : other.Regular sortAt) : (orElse k role goal other).Regular sortAt := by
  cases k with
  | none => exact hother
  | some k => exact regular_as h k

@[simp] theorem regular_expression (h : PartSort.plain.le (sortAt role) = true) :
    (expression role k c).Regular sortAt := regular_orElse h (regular_unknown h)

@[simp] theorem regular_typeOr (h : PartSort.plain.le (sortAt role) = true) :
    (typeOr role k c).Regular sortAt := regular_orElse h (regular_unreadType h)

/-- The step for a child that need not be there. -/
theorem allRegular_optional {step : Kid → Step} (hstep : ∀ k, (step k).Regular sortAt) :
    AllRegular sortAt (k.map step).toList := by
  cases k with
  | none => exact allRegular_nil
  | some k => exact allRegular_cons.mpr ⟨hstep k, allRegular_nil⟩

@[simp] theorem allRegular_maybe (h : goal.sort.le (sortAt role) = true) :
    AllRegular sortAt (maybe k role goal) :=
  allRegular_optional (regular_as h)

@[simp] theorem allRegular_many (h : goal.sort.le (sortAt role) = true) {ks : List Kid} :
    AllRegular sortAt (many ks role goal) := by
  refine allRegular_iff.mpr fun s hs => ?_
  obtain ⟨k, -, rfl⟩ := List.mem_map.mp hs
  exact regular_as h k

/-- Steps for some of the children. -/
theorem allRegular_filterMap {ks : List Kid} {step : Kid → Option Step}
    (hstep : ∀ k, ∀ s ∈ step k, s.Regular sortAt) : AllRegular sortAt (ks.filterMap step) := by
  refine allRegular_iff.mpr fun s hs => ?_
  obtain ⟨k, -, hks⟩ := List.mem_filterMap.mp hs
  exact hstep k s hks

end

end Step

/-! Which sort a part has to be of is a matter of evaluation wherever a plan names its role. -/

attribute [simp] Kind.sortAt Kind.endsReturns Kind.returnRoles Kind.mayReturn Goal.sort

namespace Plan

open Step

section

variable {c : Cst} {sortAt : Role → PartSort} {role : Role} {k : Option Kid}
  (h : PartSort.plain.le (sortAt role) = true)

include h

/-! ### Names, functions and classes -/

@[simp] theorem regular_binder (name : Cst) : (binder role name).Regular sortAt :=
  regular_leaf (PartSort.has_of_le h rfl)

@[simp] theorem regular_spelled (name : Cst) : (spelled role name).Regular sortAt :=
  regular_leaf (PartSort.has_of_le h rfl)

@[simp] theorem regular_string (text : Cst) : (string role text).Regular sortAt :=
  regular_leaf (PartSort.has_of_le h rfl)

@[simp] theorem regular_typeName (name : Cst) : (typeName role name).Regular sortAt :=
  regular_leaf (PartSort.has_of_le h rfl)

/-- A node that may stand where nothing holds returns is regular if its parts are. -/
@[simp] theorem regular_plain {kind : Kind} (hkind : kind.mayReturn = false) {span : Span}
    {parts : List Step} :
    (Step.node role kind span parts).Regular sortAt ↔ AllRegular kind.sortAt parts :=
  regular_node (PartSort.has_of_le h (by simpa using hkind))

@[simp] theorem regular_plainLeaf {kind : Kind} (hkind : kind.mayReturn = false) (parent : Cst) :
    (leaf role kind parent).Regular sortAt :=
  (regular_plain h hkind).mpr allRegular_nil

omit h in
/-- The key of a member of a node that asks nothing of its parts. -/
theorem regular_key (hplain : ∀ role, PartSort.plain.le (sortAt role) = true) (k : Kid) :
    (key k).Regular sortAt := by
  fun_cases key k
  case case3 => exact regular_leaf (PartSort.has_of_le (hplain _) rfl)
  all_goals simp [hplain]

omit h in
theorem regular_keyOr (hplain : ∀ role, PartSort.plain.le (sortAt role) = true) :
    (keyOr k c).Regular sortAt := by
  fun_cases keyOr k c
  · exact regular_key hplain _
  · exact regular_unknown (hplain _)

@[simp] theorem regular_function (form : FunctionForm) :
    (function form role c).Regular sortAt := by
  refine (regular_plain h rfl).mpr ?_
  by_cases hform : form = .method
  · simp [hform, signatureParts]
  · simp [hform, signatureParts, allRegular_optional]

@[simp] theorem regular_arrow : (arrow role c).Regular sortAt := by
  refine (regular_plain h rfl).mpr ?_
  simp only [allRegular_append, allRegular_cons, allRegular_nil, and_true]
  refine ⟨⟨?_, by simp⟩, ?_⟩
  · split
    · exact allRegular_cons.mpr ⟨(regular_node rfl).mpr (by simp), allRegular_nil⟩
    · simp
  · split
    · split_ifs <;> simp
    · simp

@[simp] theorem regular_classLike (isDeclaration : Bool) :
    (classLike isDeclaration role c).Regular sortAt := by
  refine (regular_plain h rfl).mpr ?_
  simp [allRegular_optional]

@[simp] theorem regular_classMember : (classMember role c).Regular sortAt := by
  fun_cases classMember role c
  case case2 => exact (regular_plain h rfl).mpr (by simp [regular_key])
  case case4 | case6 => exact (regular_plain h rfl).mpr (by simp [regular_key])
  case case7 => exact (regular_plain h rfl).mpr (by simp)
  all_goals simp [h]

/-! ### Markup -/

@[simp] theorem regular_namespacedName (name : Cst) : (namespacedName role name).Regular sortAt :=
  regular_leaf (PartSort.has_of_le h rfl)

@[simp] theorem regular_elementName (name : Cst) : (elementName role name).Regular sortAt := by
  unfold elementName
  split
  · exact regular_namespacedName h name
  all_goals exact regular_leaf (PartSort.has_of_le h rfl)

@[simp] theorem regular_opening : (opening role c).Regular sortAt := by
  refine (regular_plain h rfl).mpr (allRegular_cons.mpr ⟨?_, allRegular_filterMap fun k s hs => ?_⟩)
  · split <;> simp
  · split at hs <;> cases hs <;> simp

omit h in
/-- The children of an element or a fragment. -/
theorem allRegular_jsxChildren {holder : Kind}
    (hchild : PartSort.plain.le (holder.sortAt .child) = true) :
    AllRegular holder.sortAt (jsxChildren c) := by
  refine allRegular_filterMap fun k s hs => ?_
  split at hs
  case h_1 | h_2 =>
    split_ifs at hs <;> cases hs
    exact regular_leaf (PartSort.has_of_le hchild rfl)
  case h_7 => cases hs
  all_goals
    cases hs
    exact regular_as (by exact hchild) k

@[simp] theorem regular_jsx : (jsx role c).Regular sortAt := by
  fun_cases jsx role c
  · exact (regular_plain h rfl).mpr (allRegular_jsxChildren rfl)
  · exact (regular_plain h rfl).mpr (by simp)
  · exact (regular_plain h rfl).mpr
      (allRegular_cons.mpr ⟨regular_orElse rfl (by simp), allRegular_jsxChildren rfl⟩)

@[simp] theorem regular_jsxAttribute : (jsxAttribute role c).Regular sortAt := by
  refine (regular_plain h rfl).mpr (allRegular_cons.mpr ⟨?_, allRegular_optional fun value => ?_⟩)
  · split
    · split_ifs <;> simp
    · simp
  · split <;> simp

@[simp] theorem regular_jsxSpread : (jsxSpread role c).Regular sortAt := by
  refine (regular_plain h rfl).mpr (allRegular_cons.mpr ⟨?_, allRegular_nil⟩)
  split
  · split_ifs <;> simp
  · simp

/-! ### Expressions -/

@[simp] theorem regular_memberAccess : (memberAccess role c).Regular sortAt := by
  refine (regular_plain h rfl).mpr
    (allRegular_cons.mpr ⟨by simp, allRegular_cons.mpr ⟨?_, allRegular_nil⟩⟩)
  split_ifs
  · simp
  · split
    · split_ifs <;> simp
    · simp

@[simp] theorem regular_call : (call role c).Regular sortAt := by
  refine (regular_plain h rfl).mpr (allRegular_cons.mpr ⟨by simp, ?_⟩)
  split
  · split_ifs <;> simp
  · exact allRegular_nil

@[simp] theorem regular_binary : (binary role c).Regular sortAt := by
  unfold binary
  dsimp only
  split <;> exact (regular_plain h rfl).mpr (by simp)

@[simp] theorem regular_typeWrapper : (typeWrapper role c).Regular sortAt := by
  generalize hkind : (if c.kind = "satisfies_expression" then Kind.satisfiesExpression
    else .asExpression) = kind
  have hplain (role : Role) : PartSort.plain.le (kind.sortAt role) = true := by
    subst hkind
    split_ifs <;> simp
  have hreturn : kind.mayReturn = false := by
    subst hkind
    split_ifs <;> simp
  rw [typeWrapper, hkind]
  refine (regular_plain h hreturn).mpr (allRegular_cons.mpr ⟨regular_expression (hplain _),
    allRegular_cons.mpr ⟨?_, allRegular_nil⟩⟩)
  split
  · split_ifs <;> exact regular_as (by exact hplain _) _
  · exact regular_unreadType (hplain _)

@[simp] theorem regular_around {kind : Kind} (hkind : kind.mayReturn = false) {inner : Role}
    (hinner : PartSort.plain.le (kind.sortAt inner) = true) :
    (around kind inner role c).Regular sortAt :=
  (regular_plain h hkind).mpr (allRegular_cons.mpr ⟨regular_expression hinner, allRegular_nil⟩)

theorem regular_expr : (expr role c).Regular sortAt := by
  fun_cases expr role c
  all_goals simp [h, assignment]

theorem allRegular_objectMember : AllRegular sortAt (objectMember role c) := by
  fun_cases objectMember role c
  all_goals simp [h, regular_keyOr]

/-! ### Patterns and targets -/

omit h in
@[simp] theorem regular_rest (hrole : (sortAt role).has .restElement = true) :
    (rest role c).Regular sortAt := by
  simp [rest, hrole]

omit h in
theorem allRegular_keepLastRest (hrest : PartSort.rest.le (sortAt .rest) = true)
    {other : Kid → Step} (hother : ∀ k, (other k).Regular sortAt) (ks : List Kid) :
    AllRegular sortAt (keepLastRest other ks) := by
  induction ks with
  | nil => exact allRegular_nil
  | cons k ks ih =>
    refine allRegular_cons.mpr ⟨?_, ih⟩
    split_ifs
    · exact regular_lost _
    · exact regular_as (by exact hrest) k
    · exact hother k

@[simp] theorem regular_arrayPattern : (arrayPattern role c).Regular sortAt :=
  (regular_plain h rfl).mpr (allRegular_keepLastRest rfl (regular_as rfl) _)

@[simp] theorem regular_objectPattern : (objectPattern role c).Regular sortAt :=
  (regular_plain h rfl).mpr (allRegular_keepLastRest rfl (regular_as rfl) _)

@[simp] theorem regular_assignmentPattern : (assignmentPattern role c).Regular sortAt := by
  simp [h, assignmentPattern]

theorem regular_pattern : (pattern role c).Regular sortAt := by
  fun_cases pattern role c
  case case10 | case11 => exact regular_rest (PartSort.has_of_le h rfl)
  all_goals simp [h, regular_expr]

omit h in
theorem allRegular_patternMember (hproperty : PartSort.property.le (sortAt role) = true) :
    AllRegular sortAt (patternMember role c) := by
  have hnode {isShorthand : Bool} {span : Span} {parts : List Step} :
      (Step.node role (.bindingProperty isShorthand) span parts).Regular sortAt ↔
        AllRegular (Kind.bindingProperty isShorthand).sortAt parts :=
    regular_node (PartSort.has_of_le hproperty rfl)
  fun_cases patternMember role c
  case case5 key =>
    have hkey : key.Regular (Kind.bindingProperty true).sortAt := by
      unfold key
      cases c.field? "left" <;> simp
    simp [hnode, hkey]
  all_goals simp [hnode, regular_keyOr]

theorem regular_target : (target role c).Regular sortAt := by
  fun_cases target role c
  all_goals simp [h, regular_pattern, regular_expr]

omit h in
theorem allRegular_param (hparam : PartSort.param.le (sortAt role) = true) :
    AllRegular sortAt (param role c (pattern .pattern c)) := by
  have hnode {isOptional isReadonly : Bool} {span : Span} {parts : List Step} :
      (Step.node role (.param isOptional isReadonly) span parts).Regular sortAt ↔
        AllRegular (Kind.param isOptional isReadonly).sortAt parts :=
    regular_node (PartSort.has_of_le hparam rfl)
  fun_cases param role c (pattern .pattern c)
  case case3 pattern | case6 pattern =>
    have hpattern {isOptional isReadonly : Bool} :
        pattern.Regular (Kind.param isOptional isReadonly).sortAt := by
      unfold pattern
      cases c.field? "value" <;> simp
    simp [hnode, hpattern]
  all_goals simp [hnode, regular_pattern]

/-! ### Types -/

@[simp] theorem regular_aroundType {kind : Kind} (hkind : kind.mayReturn = false) {inner : Role}
    (hinner : PartSort.plain.le (kind.sortAt inner) = true) :
    (aroundType kind inner role c).Regular sortAt :=
  (regular_plain h hkind).mpr (allRegular_cons.mpr ⟨regular_typeOr hinner, allRegular_nil⟩)

theorem regular_literalType : (literalType role c).Regular sortAt := by
  fun_cases literalType role c
  all_goals simp [h, keywordType]

theorem regular_type : (type role c).Regular sortAt := by
  fun_cases type role c
  case case12 name =>
    have hname : name.Regular Kind.typeReference.sortAt := by
      unfold name
      cases (c.field? "name").or c.firstNamed? <;> simp
    simp [h, hname]
  all_goals simp [h, regular_literalType, keywordType, signatureParts]

theorem regular_tupleElement : (tupleElement role c).Regular sortAt := by
  fun_cases tupleElement role c <;> simp [h, regular_type]

theorem allRegular_signature : AllRegular sortAt (signature role c) := by
  fun_cases signature role c
  all_goals simp [h, regular_keyOr, signatureParts]

/-! ### Statements -/

theorem regular_declaration : (declaration role c).Regular sortAt := by
  simp [h, declaration]

theorem regular_condition : (condition role c).Regular sortAt := by
  unfold condition
  split_ifs <;> simp [h, regular_expr]

@[simp] theorem regular_conditionOr : (conditionOr role k c).Regular sortAt := by
  simp [h, conditionOr]

omit h in
@[simp] theorem regular_moduleSource (hsource : PartSort.plain.le (sortAt .source) = true) :
    (moduleSource k c).Regular sortAt := by
  cases k with
  | none => exact regular_plainLeaf hsource rfl c
  | some k => exact regular_string hsource k.tree

theorem regular_exportDefault : (exportDefault role c).Regular sortAt := by
  refine (regular_plain h rfl).mpr (allRegular_cons.mpr ⟨?_, allRegular_nil⟩)
  split
  · split <;> simp
  · simp

@[simp] theorem regular_specifier (imported : ImportedName) (span : Span) (binding : Cst) :
    (specifier role imported span binding).Regular sortAt := by
  simp [h, specifier]

theorem allRegular_importClause : AllRegular sortAt (importClause role c) := by
  refine allRegular_filterMap fun k s hs => ?_
  split at hs <;> cases hs <;> simp [h]

end

/-! Statements and clauses may stand wherever any node may. -/

section

variable {c : Cst} {sortAt : Role → PartSort} {role : Role} {k : Option Kid}
  (h : sortAt role = .any)

include h

theorem plain_le_of_any : PartSort.plain.le (sortAt role) = true := by
  rw [h]
  rfl

@[simp] theorem regular_block : (block role c).Regular sortAt := by
  simp [h, block]

@[simp] theorem regular_slot : (slot role k c).Regular sortAt :=
  regular_orElse (by simp [h]) (regular_unknown (plain_le_of_any h))

@[simp] theorem regular_blockOr : (blockOr role k c).Regular sortAt :=
  regular_orElse (by simp [h]) (regular_leaf (by simp [h]))

theorem regular_forIn : (forIn role c).Regular sortAt := by
  unfold forIn
  cases c.field? "left" with
  | none => simp [h]
  | some left => cases (c.field? "kind").map fun k => variableKind k.tree.text <;> simp [h]

theorem regular_exportNamed : (exportNamed role c).Regular sortAt := by
  simp [h, exportNamed, allRegular_optional]

theorem allRegular_statement : AllRegular sortAt (statement role c) := by
  fun_cases statement role c
  case case18 label =>
    have hlabel : label.Regular Kind.labeledStatement.sortAt := by
      unfold label
      cases (c.field? "label").or c.firstNamed? <;> simp
    simp [h, hlabel]
  all_goals
    simp [h, regular_declaration, regular_forIn, regular_exportDefault,
      regular_exportNamed]

end

/-- Every step of every plan is regular, and makes nodes of the sort of the goal only. -/
theorem allRegular_steps {c : Cst} (sortAt : Role → PartSort) (goal : Goal) (role : Role)
    (h : goal.sort.le (sortAt role) = true) : AllRegular sortAt (steps goal role c) := by
  fun_cases steps goal role c
  all_goals simp only [Goal.sort, PartSort.any_le_iff] at h
  case case36 =>
    exact allRegular_cons.mpr ⟨regular_rest (PartSort.has_of_le h rfl), allRegular_nil⟩
  case case50 =>
    exact allRegular_optional fun _ =>
      (regular_plain h rfl).mpr (by simp [allRegular_optional, exportName])
  all_goals
    simp [h, allRegular_statement, regular_expr, regular_pattern, regular_target, regular_type,
      regular_condition, regular_declaration, allRegular_param, regular_tupleElement,
      allRegular_signature, allRegular_objectMember, allRegular_patternMember,
      allRegular_importClause, allRegular_optional]

end Plan

/-! ### Lowered files -/

/-- Lowering for a goal gives nodes of its sort, of the role that was asked for, and everything in
them is regular. -/
def Lowering.GivesRegular (lower : Lowering) : Prop :=
  ∀ goal role next, ∀ n ∈ (lower goal role next).1,
    n.role = role ∧ goal.sort.has n.kind = true ∧ ∀ m ∈ n.preorder, m.Regular

mutual

/-- Regular steps make nodes of the sorts given for their roles. -/
theorem Step.Regular.run {kids : List Lowering} (hkids : ∀ lower ∈ kids, lower.GivesRegular) :
    (s : Step) → {sortAt : Role → PartSort} → s.Regular sortAt → ∀ next,
      ∀ n ∈ (s.run kids next).1,
        (sortAt n.role).has n.kind = true ∧ ∀ m ∈ n.preorder, m.Regular
  | .node role kind span parts, sortAt, hs, next, n, hn => by
    rw [Step.run, List.mem_singleton] at hn
    subst hn
    rw [Step.Regular] at hs
    have hparts := Step.AllRegular.run hkids parts hs.2 (next + 1)
    refine ⟨hs.1, Node.forall_mem_preorder.mpr ⟨fun child hchild => ?_, fun child hchild => ?_⟩⟩
    · exact (hparts child (Step.mem_arrange.mp hchild)).1
    · exact (hparts child (Step.mem_arrange.mp hchild)).2
  | .child role index goal, sortAt, hs, next, n, hn => by
    rw [Step.run] at hn
    cases hk : kids[index]? with
    | none => simp [hk] at hn
    | some lower =>
      rw [hk] at hn
      obtain ⟨hrole, hsort, hinside⟩ := hkids lower (List.mem_of_getElem? hk) goal role next n hn
      rw [Step.Regular] at hs
      exact ⟨hrole ▸ PartSort.has_of_le hs hsort, hinside⟩
  | .lost steps, _, _, next, n, hn => by simp [Step.run] at hn

theorem Step.AllRegular.run {kids : List Lowering} (hkids : ∀ lower ∈ kids, lower.GivesRegular) :
    (steps : List Step) → {sortAt : Role → PartSort} → Step.AllRegular sortAt steps → ∀ next,
      ∀ n ∈ (Step.runAll kids steps next).1,
        (sortAt n.role).has n.kind = true ∧ ∀ m ∈ n.preorder, m.Regular
  | [], _, _, next, n, hn => by simp [Step.runAll] at hn
  | step :: steps, _, hsteps, next, n, hn => by
    rw [Step.allRegular_cons] at hsteps
    rw [Step.runAll] at hn
    rcases List.mem_append.mp hn with hn | hn
    · exact Step.Regular.run hkids step hsteps.1 next n hn
    · exact Step.AllRegular.run hkids steps hsteps.2 _ n hn

end

mutual

theorem Cst.lower_givesRegular : (c : Cst) → Lowering.GivesRegular c.lower
  | ⟨kind, isNamed, field, span, text, children⟩ => by
    intro goal role next n hn
    refine ⟨(Cst.lower_lowers _).role hn, ?_⟩
    rw [Cst.lower] at hn
    exact Step.AllRegular.run (Cst.lowerEach_giveRegular children) _
      (Plan.allRegular_steps (fun _ => goal.sort) goal role (PartSort.le_self _)) next n hn

theorem Cst.lowerEach_giveRegular :
    (cs : List Cst) → ∀ lower ∈ Cst.lowerEach cs, Lowering.GivesRegular lower
  | [] => by simp [Cst.lowerEach]
  | c :: cs => by
    intro lower hmem
    rw [Cst.lowerEach] at hmem
    rcases List.mem_cons.mp hmem with rfl | hmem
    · exact Cst.lower_givesRegular c
    · exact Cst.lowerEach_giveRegular cs lower hmem

end

/-- In a lowered file the parts of every node but the root are of the sorts that it may hold under
their roles. -/
theorem Program.ofCst_regular (c : Cst) :
    ∀ n ∈ Node.preorderAll (Program.ofCst c).root.children, n.Regular := by
  intro n hn
  obtain ⟨child, hchild, hn⟩ := Node.mem_preorderAll.mp hn
  exact (Cst.lower_givesRegular c _ _ _ child hchild).2.2 n hn

theorem Program.regular_of_place {c : Cst} {n p : Node} {outer : List Node}
    (h : (n, p :: outer) ∈ (Program.ofCst c).root.paths []) : n.Regular := by
  rw [Node.paths_eq] at h
  rcases List.mem_cons.mp h with heq | h
  · cases heq
  · refine Program.ofCst_regular c n ?_
    rw [← Node.map_fst_pathsAll]
    exact List.mem_map_of_mem h

namespace Node.Regular

variable {n c : Node} (h : n.Regular) (hc : c ∈ n.children)

include h hc

/-- A statement that may hold returns stands where a search for returns looks for it, unless the
node that holds it ends the search. -/
theorem mem_returnRoles (hreturn : c.kind.mayReturn = true) (hends : n.kind.endsReturns = false) :
    c.role ∈ n.kind.returnRoles := by
  have hsort := h c hc
  have hnotPlain : ¬ (n.kind.sortAt c.role).le .plain = true := by
    intro hle
    have hplain := PartSort.has_of_le hle hsort
    rw [PartSort.has_plain, hreturn] at hplain
    cases hplain
  unfold Kind.sortAt at hnotPlain
  split at hnotPlain
  case h_6 =>
    split_ifs at hnotPlain with hany
    · rwa [hends, Bool.false_or, List.contains_iff_mem] at hany
    · exact absurd rfl hnotPlain
  all_goals exact absurd rfl hnotPlain

/-- What a function holds as a parameter is one. -/
theorem isParam (hfunction : n.isFunctionLike = true) (hrole : c.role = .param) :
    c.kind.isParam = true := by
  have hsort := h c hc
  have hparam : n.kind.sortAt .param = .param := by
    unfold Node.isFunctionLike at hfunction
    split at hfunction
    · simp [*]
    · simp [*]
    · cases hfunction
  rw [hrole, hparam] at hsort
  exact PartSort.isParam_of_has hsort

/-- What an object pattern holds as a property or a rest element is part of a pattern. -/
theorem isPatternPart (hkind : n.kind = .objectPattern)
    (hrole : c.role = .property ∨ c.role = .rest) : c.kind.isPatternPart = true := by
  have hsort := h c hc
  rw [hkind] at hsort
  rcases hrole with hrole | hrole
  · rw [hrole] at hsort
    exact PartSort.isPatternPart_of_has (Or.inl rfl) hsort
  · rw [hrole] at hsort
    exact PartSort.isPatternPart_of_has (Or.inr rfl) hsort

end Node.Regular

end TsxLint
