import TsxLint.Proofs.Lowering.Plans
import TsxLint.Proofs.Lowering.Spans

/-!
# The forms of the nodes of a plan

The typed tree does not say where a node comes from. Most nodes are made in any form, but some in a
few forms only: an identifier expression spells a concrete name, a container in markup is around one
expression at most, and declarations of types and types around a type have the parts that they
cannot do without. Every node of a lowered file is made in one of these forms, from some node of the
concrete tree. What a form says about the concrete node and about its steps thus holds of the
lowered node.

## Main definitions

* `Cst.isName`: a concrete node that is a name.
* `Step.NodeForm`, `Step.Formed`: the forms of a node, and steps all of whose nodes have one.
* `Node.MadeIn`: a node made in some form.

## Main results

* `Plan.allFormed_steps`: every node of every plan has one of the forms.
* `Program.ofCst_made`: so has every node of a lowered file but the root.
* `Program.ofCst_names`: identifier expressions spell concrete names.
* `Program.ofCst_containers`: containers in markup hold one expression at most.
-/

namespace TsxLint

/-- Whether a type is around exactly one other type. -/
@[simp]
def Kind.isAroundType : Kind → Bool
  | parenthesizedType | optionalType | typeOperator _ => true
  | _ => false

/-- Whether nodes of a kind are made in any form. -/
@[simp]
def Kind.isFreelyMade : Kind → Bool
  | identifierReference _ | jsxExpressionContainer | interfaceDeclaration
  | typeAliasDeclaration => false
  | kind => !kind.isAroundType

/-- Whether a concrete node is a name that stands for a value. -/
def Cst.isName (c : Cst) : Bool :=
  c.kind == "identifier" || c.kind == "undefined" || c.kind == "shorthand_property_identifier"

namespace Step

/-- The forms of the nodes that the steps for a concrete node make. -/
inductive NodeForm (c : Cst) : Kind → Span → List Step → Prop
  | free {kind : Kind} {span : Span} {parts : List Step} (hkind : kind.isFreelyMade = true) :
      NodeForm c kind span parts
  | name (hname : c.isName = true) : NodeForm c (.identifierReference c.text) c.span []
  | container {span : Span} {k : Option Kid} :
      NodeForm c .jsxExpressionContainer span (maybe k .expression .expression)
  | declared {span : Span} {name : Cst} {parts : List Step} :
      NodeForm c .interfaceDeclaration span (Plan.binder .name name :: parts)
  | aliased {span : Span} {name : Cst} {k : Kid} (hk : k ∈ c.kids) :
      NodeForm c .typeAliasDeclaration span [Plan.binder .name name, k.as .type .type]
  | around {kind : Kind} {span : Span} {k : Option Kid} {parent : Cst}
      (hkind : kind.isAroundType = true) (hk : ∀ k' ∈ k, k' ∈ c.kids) :
      NodeForm c kind span [typeOr .type k parent]

mutual

/-- A step all of whose nodes have one of the forms. -/
def Formed (c : Cst) : Step → Prop
  | .node _ kind span parts => NodeForm c kind span parts ∧ AllFormed c parts
  | .child .. => True
  | .lost _ => True

/-- Steps all of whose nodes have one of the forms. -/
def AllFormed (c : Cst) : List Step → Prop
  | [] => True
  | step :: steps => step.Formed c ∧ AllFormed c steps

end

section

variable {c parent : Cst} {role : Role} {kind : Kind} {goal : Goal} {k : Option Kid}

theorem allFormed_iff {steps : List Step} : AllFormed c steps ↔ ∀ s ∈ steps, s.Formed c := by
  induction steps with
  | nil => simp [AllFormed]
  | cons s steps ih => simp [AllFormed, ih]

@[simp] theorem allFormed_nil : AllFormed c [] := by simp [AllFormed]

@[simp] theorem allFormed_cons {s : Step} {steps : List Step} :
    AllFormed c (s :: steps) ↔ s.Formed c ∧ AllFormed c steps := by
  rw [AllFormed]

@[simp] theorem allFormed_append {steps steps' : List Step} :
    AllFormed c (steps ++ steps') ↔ AllFormed c steps ∧ AllFormed c steps' := by
  simp [allFormed_iff, or_imp, forall_and]

@[simp] theorem formed_node {span : Span} {parts : List Step} :
    (Step.node role kind span parts).Formed c ↔
      (kind.isFreelyMade = false → NodeForm c kind span parts) ∧ AllFormed c parts := by
  rw [Formed]
  refine and_congr_left' ⟨fun h _ => h, fun h => ?_⟩
  cases hkind : kind.isFreelyMade with
  | false => exact h hkind
  | true => exact .free hkind

/-- A name at its own place. -/
theorem formed_name (hname : c.isName = true) :
    (leaf role (.identifierReference c.text) c).Formed c :=
  formed_node.mpr ⟨fun _ => .name hname, allFormed_nil⟩

@[simp] theorem formed_lost (steps : List Step) : (Step.lost steps).Formed c := by
  simp [Formed]

@[simp] theorem formed_as (k : Kid) : (k.as role goal).Formed c := by
  simp [Kid.as, Formed]

theorem formed_leaf (hkind : kind.isFreelyMade = true) : (leaf role kind parent).Formed c :=
  formed_node.mpr ⟨fun hforms => absurd hforms (by rw [hkind]; decide), allFormed_nil⟩

@[simp] theorem formed_unknown : (unknown role parent).Formed c := formed_leaf rfl

@[simp] theorem formed_unreadType : (unreadType role parent).Formed c := formed_leaf rfl

@[simp] theorem formed_gap : (gap parent).Formed c := formed_lost _

@[simp] theorem formed_orElse {other : Step} (hother : other.Formed c) :
    (orElse k role goal other).Formed c := by
  cases k with
  | none => exact hother
  | some k => exact formed_as k

@[simp] theorem formed_expression : (expression role k parent).Formed c :=
  formed_orElse formed_unknown

@[simp] theorem formed_typeOr : (typeOr role k parent).Formed c :=
  formed_orElse formed_unreadType

/-- The step for a child that need not be there. -/
@[simp] theorem allFormed_optional {step : Kid → Step} (hstep : ∀ k, (step k).Formed c) :
    AllFormed c (k.map step).toList := by
  cases k with
  | none => exact allFormed_nil
  | some k => exact allFormed_cons.mpr ⟨hstep k, allFormed_nil⟩

@[simp] theorem allFormed_maybe : AllFormed c (maybe k role goal) :=
  allFormed_optional formed_as

theorem formed_container {span : Span} :
    (Step.node role .jsxExpressionContainer span (maybe k .expression .expression)).Formed c :=
  formed_node.mpr ⟨fun _ => .container, allFormed_maybe⟩

@[simp] theorem allFormed_many {ks : List Kid} : AllFormed c (many ks role goal) := by
  simp [allFormed_iff, many]

/-- Steps for some of the children. -/
theorem allFormed_filterMap {ks : List Kid} {step : Kid → Option Step}
    (hstep : ∀ k, ∀ s ∈ step k, s.Formed c) : AllFormed c (ks.filterMap step) := by
  refine allFormed_iff.mpr fun s hs => ?_
  obtain ⟨k, -, hks⟩ := List.mem_filterMap.mp hs
  exact hstep k s hks

end

end Step

namespace Plan

open Step

variable {c : Cst} {role : Role} {k : Option Kid}

/-! ### Names, functions and classes -/

@[simp] theorem formed_binder (name : Cst) : (binder role name).Formed c := formed_leaf rfl

@[simp] theorem formed_spelled (name : Cst) : (spelled role name).Formed c := formed_leaf rfl

@[simp] theorem formed_string (text : Cst) : (string role text).Formed c := formed_leaf rfl

@[simp] theorem formed_typeName (name : Cst) : (typeName role name).Formed c :=
  formed_leaf rfl

@[simp] theorem formed_key (k : Kid) : (key k).Formed c := by
  fun_cases key k
  case case3 => exact formed_leaf rfl
  all_goals simp

@[simp] theorem formed_keyOr (parent : Cst) : (keyOr k parent).Formed c := by
  fun_cases keyOr k parent <;> simp

@[simp] theorem allFormed_signatureParts (parent : Cst) :
    AllFormed c (signatureParts parent k) := by
  simp [signatureParts]

@[simp] theorem formed_function (form : FunctionForm) : (function form role c).Formed c := by
  by_cases hform : form = .method <;> simp [function, hform]

@[simp] theorem formed_arrow : (arrow role c).Formed c := by
  unfold arrow
  simp only [formed_node, allFormed_append, allFormed_cons, allFormed_maybe,
    allFormed_nil, and_true]
  refine ⟨nofun, ?_, ?_⟩
  · split <;> simp [bareParam]
  · split
    · split_ifs <;> simp
    · simp

@[simp] theorem formed_classLike (isDeclaration : Bool) :
    (classLike isDeclaration role c).Formed c := by
  simp [classLike]

@[simp] theorem formed_classMember : (classMember role c).Formed c := by
  fun_cases classMember role c <;> simp

/-! ### Markup -/

@[simp] theorem formed_namespacedName (name : Cst) : (namespacedName role name).Formed c :=
  formed_leaf rfl

@[simp] theorem formed_elementName (name : Cst) : (elementName role name).Formed c := by
  unfold elementName
  split
  · exact formed_namespacedName name
  all_goals exact formed_leaf rfl

@[simp] theorem formed_opening : (opening role c).Formed c := by
  refine formed_node.mpr
    ⟨nofun, allFormed_cons.mpr ⟨?_, allFormed_filterMap fun k s hs => ?_⟩⟩
  · split
    · simp
    · exact formed_leaf rfl
  · split at hs <;> cases hs <;> simp

@[simp] theorem allFormed_jsxChildren : AllFormed c (jsxChildren c) := by
  refine allFormed_filterMap fun k s hs => ?_
  split at hs
  case h_1 | h_2 =>
    split_ifs at hs <;> cases hs
    exact formed_leaf rfl
  case h_7 => cases hs
  all_goals
    cases hs
    exact formed_as k

@[simp] theorem formed_jsx : (jsx role c).Formed c := by
  fun_cases jsx role c <;> simp

@[simp] theorem formed_jsxAttribute : (jsxAttribute role c).Formed c := by
  refine formed_node.mpr ⟨nofun, allFormed_cons.mpr ⟨?_, allFormed_optional fun value => ?_⟩⟩
  · split
    · split_ifs
      · exact formed_namespacedName _
      · exact formed_leaf rfl
    · exact formed_leaf rfl
  · split
    case h_6 => exact formed_container (k := some value)
    all_goals simp

@[simp] theorem formed_jsxSpread : (jsxSpread role c).Formed c := by
  refine formed_node.mpr ⟨nofun, allFormed_cons.mpr ⟨?_, allFormed_nil⟩⟩
  split
  · split_ifs <;> exact formed_as _
  · exact formed_unknown

/-! ### Expressions -/

@[simp] theorem formed_memberAccess : (memberAccess role c).Formed c := by
  refine formed_node.mpr ⟨nofun, allFormed_cons.mpr ⟨formed_expression,
    allFormed_cons.mpr ⟨?_, allFormed_nil⟩⟩⟩
  split_ifs
  · exact formed_expression
  · split
    · split_ifs <;> exact formed_leaf rfl
    · exact formed_leaf rfl

@[simp] theorem formed_call : (call role c).Formed c := by
  refine formed_node.mpr ⟨nofun, allFormed_cons.mpr ⟨formed_expression, ?_⟩⟩
  split
  · split_ifs <;> simp
  · exact allFormed_nil

@[simp] theorem formed_binary : (binary role c).Formed c := by
  unfold binary
  dsimp only
  split <;> simp

@[simp] theorem formed_typeWrapper : (typeWrapper role c).Formed c := by
  refine formed_node.mpr ⟨?_, allFormed_cons.mpr ⟨formed_expression,
    allFormed_cons.mpr ⟨?_, allFormed_nil⟩⟩⟩
  · split_ifs <;> exact nofun
  · generalize (if (c.kind == "type_assertion") = true then c.named[0]? else c.named[1]?) = type
    cases type with
    | none => exact formed_unreadType
    | some k =>
      dsimp only
      split_ifs <;> exact formed_as k

theorem formed_expr : (expr role c).Formed c := by
  fun_cases expr role c
  case case1 | case2 | case3 => exact formed_name (by simp [Cst.isName, *])
  all_goals simp [assignment, around, formed_leaf]

theorem allFormed_objectMember : AllFormed c (objectMember role c) := by
  fun_cases objectMember role c
  case case2 hkind =>
    have hname : (leaf .value (.identifierReference c.text) c).Formed c :=
      formed_name (by simp [Cst.isName, hkind])
    simp [hname]
  all_goals simp [around]

/-! ### Patterns and targets -/

theorem formed_rest : (rest role c).Formed c := by
  simp [rest]

theorem allFormed_keepLastRest {other : Kid → Step} (hother : ∀ k, (other k).Formed c)
    (ks : List Kid) : AllFormed c (keepLastRest other ks) := by
  induction ks with
  | nil => exact allFormed_nil
  | cons k ks ih =>
    refine allFormed_cons.mpr ⟨?_, ih⟩
    split_ifs
    · exact formed_lost _
    · exact formed_as k
    · exact hother k

theorem formed_arrayPattern : (arrayPattern role c).Formed c :=
  formed_node.mpr ⟨nofun, allFormed_keepLastRest (fun k => formed_as k) _⟩

theorem formed_objectPattern : (objectPattern role c).Formed c :=
  formed_node.mpr ⟨nofun, allFormed_keepLastRest (fun k => formed_as k) _⟩

theorem formed_assignmentPattern : (assignmentPattern role c).Formed c := by
  simp [assignmentPattern]

theorem formed_pattern : (pattern role c).Formed c := by
  fun_cases pattern role c
  all_goals
    simp [formed_objectPattern, formed_arrayPattern, formed_assignmentPattern, formed_rest,
      formed_expr]

theorem allFormed_patternMember : AllFormed c (patternMember role c) := by
  fun_cases patternMember role c
  case case5 key =>
    have hkey : key.Formed c := by
      unfold key
      cases c.field? "left" with
      | none => exact formed_unknown
      | some left => exact formed_spelled left.tree
    simp [hkey, formed_assignmentPattern]
  all_goals simp

theorem formed_target : (target role c).Formed c := by
  fun_cases target role c
  case case1 | case2 => exact formed_name (by simp [Cst.isName, *])
  all_goals simp [formed_pattern, formed_expr]

theorem allFormed_param : AllFormed c (param role c (pattern .pattern c)) := by
  fun_cases param role c (pattern .pattern c)
  case case3 pattern | case6 pattern =>
    have hpattern : pattern.Formed c := by
      unfold pattern
      cases c.field? "value" <;> simp
    simp [hpattern]
  all_goals simp [formed_pattern]

/-! ### Types -/

theorem formed_aroundType {kind : Kind} (hkind : kind.isAroundType = true) :
    (aroundType kind .type role c).Formed c :=
  formed_node.mpr ⟨fun _ => .around hkind fun _ hk => Cst.mem_kids_of_firstNamed? hk,
    allFormed_cons.mpr ⟨formed_typeOr, allFormed_nil⟩⟩

theorem formed_literalType : (literalType role c).Formed c := by
  fun_cases literalType role c
  all_goals simp [keywordType, leaf]

theorem formed_type : (type role c).Formed c := by
  fun_cases type role c
  case case12 name =>
    have hname : name.Formed c := by
      unfold name
      cases (c.field? "name").or c.firstNamed? <;> exact formed_typeName _
    simp [hname]
  case case13 => simp [aroundType]
  case case20 | case21 | case22 | case23 | case24 => exact formed_aroundType rfl
  all_goals simp [formed_literalType, keywordType, leaf]

theorem formed_tupleElement : (tupleElement role c).Formed c := by
  fun_cases tupleElement role c <;> simp [formed_type]

theorem allFormed_signature : AllFormed c (signature role c) := by
  fun_cases signature role c
  all_goals simp

/-! ### Statements -/

theorem formed_block : (block role c).Formed c := by
  simp [block]

theorem formed_declaration : (declaration role c).Formed c := by
  simp [declaration]

@[simp] theorem formed_slot : (slot role k c).Formed c := by
  simp [slot]

theorem formed_condition : (condition role c).Formed c := by
  unfold condition
  split_ifs <;> simp [formed_expr]

@[simp] theorem formed_conditionOr : (conditionOr role k c).Formed c := by
  simp [conditionOr]

@[simp] theorem formed_blockOr : (blockOr role k c).Formed c := by
  simp [blockOr, leaf]

theorem formed_forIn : (forIn role c).Formed c := by
  unfold forIn
  cases c.field? "left" with
  | none => simp
  | some left =>
    cases (c.field? "kind").map fun k => variableKind k.tree.text <;> simp

@[simp] theorem formed_moduleSource : (moduleSource k c).Formed c := by
  cases k with
  | none => exact formed_leaf rfl
  | some k => exact formed_string k.tree

theorem formed_exportDefault : (exportDefault role c).Formed c := by
  refine formed_node.mpr ⟨nofun, allFormed_cons.mpr ⟨?_, allFormed_nil⟩⟩
  split
  · split <;> exact formed_as _
  · exact formed_unknown

theorem formed_exportNamed : (exportNamed role c).Formed c := by
  simp [exportNamed]

theorem allFormed_statement : AllFormed c (statement role c) := by
  fun_cases statement role c
  case case18 label =>
    have hlabel : label.Formed c := by
      unfold label
      cases (c.field? "label").or c.firstNamed? <;> exact formed_leaf rfl
    simp [hlabel]
  case case23 => simp [NodeForm.declared]
  case case24 name value hvalue hname =>
    simp [NodeForm.aliased (Cst.mem_kids_of_field? hvalue)]
  all_goals
    simp [formed_declaration, formed_forIn, formed_block, formed_exportDefault,
      formed_exportNamed, around]

theorem allFormed_importClause : AllFormed c (importClause role c) := by
  refine allFormed_filterMap fun k s hs => ?_
  split at hs <;> cases hs <;> simp [specifier]

/-- Every node of every plan has one of the forms. -/
theorem allFormed_steps (goal : Goal) : AllFormed c (steps goal role c) := by
  fun_cases steps goal role c
  case case55 => exact allFormed_cons.mpr ⟨formed_container, allFormed_nil⟩
  all_goals
    simp [allFormed_statement, formed_expr, formed_pattern, formed_target, formed_type,
      formed_condition, formed_declaration, formed_block, allFormed_param,
      formed_tupleElement, allFormed_signature, allFormed_objectMember,
      allFormed_patternMember, formed_rest, allFormed_importClause, specifier, exportName,
      leaf]

end Plan

/-! ### The forms of lowered nodes -/

/-- A node that is made in some form from a node of a concrete tree. -/
inductive Node.MadeIn (root : Cst) : Node → Prop
  | mk {c : Cst} (hc : c ∈ root.preorder) {role : Role} {id : Nat} {kind : Kind} {span : Span}
      {parts : List Step} (hform : Step.NodeForm c kind span parts) (next : Nat) :
      MadeIn root
        ⟨role, id, kind, span, Step.arrange (Step.runAll (Cst.lowerEach c.children) parts next).1⟩

section

variable {root : Cst}

mutual

/-- Steps for a concrete node make nodes in its forms, if lowering its children does. -/
theorem Step.Formed.madeIn {c : Cst} (hc : c ∈ root.preorder)
    (hkids : ∀ lower ∈ Cst.lowerEach c.children, ∀ goal role next,
      ∀ n ∈ (lower goal role next).1, ∀ m ∈ n.preorder, m.MadeIn root) :
    (s : Step) → s.Formed c →
      ∀ next, ∀ n ∈ (s.run (Cst.lowerEach c.children) next).1, ∀ m ∈ n.preorder, m.MadeIn root
  | .node role kind span parts, hs, next, n, hn => by
    rw [Step.run, List.mem_singleton] at hn
    subst hn
    rw [Step.Formed] at hs
    refine Node.forall_mem_preorder.mpr ⟨.mk hc hs.1 _, fun child hchild => ?_⟩
    exact Step.AllFormed.madeIn hc hkids parts hs.2 _ child (Step.mem_arrange.mp hchild)
  | .child role index goal, _, next, n, hn => by
    rw [Step.run] at hn
    cases hk : (Cst.lowerEach c.children)[index]? with
    | none => simp [hk] at hn
    | some lower =>
      rw [hk] at hn
      exact hkids lower (List.mem_of_getElem? hk) goal role next n hn
  | .lost steps, _, next, n, hn => by simp [Step.run] at hn

theorem Step.AllFormed.madeIn {c : Cst} (hc : c ∈ root.preorder)
    (hkids : ∀ lower ∈ Cst.lowerEach c.children, ∀ goal role next,
      ∀ n ∈ (lower goal role next).1, ∀ m ∈ n.preorder, m.MadeIn root) :
    (steps : List Step) → Step.AllFormed c steps →
      ∀ next, ∀ n ∈ (Step.runAll (Cst.lowerEach c.children) steps next).1,
        ∀ m ∈ n.preorder, m.MadeIn root
  | [], _, next, n, hn => by simp [Step.runAll] at hn
  | step :: steps, hsteps, next, n, hn => by
    rw [Step.allFormed_cons] at hsteps
    rw [Step.runAll] at hn
    rcases List.mem_append.mp hn with hn | hn
    · exact Step.Formed.madeIn hc hkids step hsteps.1 next n hn
    · exact Step.AllFormed.madeIn hc hkids steps hsteps.2 _ n hn

end

mutual

theorem Cst.lower_madeIn : (c : Cst) → c.preorder ⊆ root.preorder → ∀ goal role next,
    ∀ n ∈ (c.lower goal role next).1, ∀ m ∈ n.preorder, m.MadeIn root
  | ⟨kind, isNamed, field, span, text, children⟩, hsub, goal, role, next, n, hn => by
    rw [Cst.lower] at hn
    refine Step.AllFormed.madeIn (hsub (Cst.mem_preorder_self _)) ?_ _
      (Plan.allFormed_steps goal) next n hn
    exact Cst.lowerEach_madeIn children fun child hchild d hd =>
      hsub (Cst.mem_preorder_of_mem_children hchild hd)

theorem Cst.lowerEach_madeIn : (cs : List Cst) → (∀ c ∈ cs, c.preorder ⊆ root.preorder) →
    ∀ lower ∈ Cst.lowerEach cs, ∀ goal role next, ∀ n ∈ (lower goal role next).1,
      ∀ m ∈ n.preorder, m.MadeIn root
  | [], _ => by simp [Cst.lowerEach]
  | c :: cs, hsub => by
    intro lower hmem
    obtain ⟨hc, hcs⟩ := List.forall_mem_cons.mp hsub
    rw [Cst.lowerEach] at hmem
    rcases List.mem_cons.mp hmem with rfl | hmem
    · exact Cst.lower_madeIn c hc
    · exact Cst.lowerEach_madeIn cs hcs lower hmem

end

end

/-- Every node of a lowered file but the root is made in some form. -/
theorem Program.ofCst_made (c : Cst) : ∀ n ∈ (Program.ofCst c).root.preorder,
    n = (Program.ofCst c).root ∨ n.MadeIn c := by
  refine Node.forall_mem_preorder.mpr ⟨.inl rfl, fun child hchild m hm => .inr ?_⟩
  exact Cst.lower_madeIn c (List.Subset.refl _) _ _ _ child hchild m hm

/-- An identifier expression of a lowered file spells a name of the concrete tree at its place. -/
theorem Program.ofCst_names {c : Cst} {n : Node} (hn : n ∈ (Program.ofCst c).root.preorder)
    {name : String} (hkind : n.kind = .identifierReference name) :
    ∃ d ∈ c.preorder, d.isName = true ∧ d.text = name ∧ d.span = n.span := by
  rcases Program.ofCst_made c n hn with rfl | ⟨hd, hform, next⟩
  · cases hkind
  · dsimp only at hkind
    subst hkind
    cases hform with
    | free hfree => cases hfree
    | name hname => exact ⟨_, hd, hname, rfl, rfl⟩
    | around haround => cases haround

/-- Lowering a child for an expression gives one node at most, under its role. -/
theorem Step.runAll_maybe_expression {c : Cst} {k : Option Kid} {next : Nat} {n : Node}
    (hn : n ∈ (runAll (Cst.lowerEach c.children) (maybe k .expression .expression) next).1) :
    n.role = .expression ∧
      (runAll (Cst.lowerEach c.children) (maybe k .expression .expression) next).1 = [n] := by
  have hkids := Cst.lowerEach_lowers c.children
  cases k with
  | none => simp [maybe, runAll] at hn
  | some k =>
    have hrun : (runAll (Cst.lowerEach c.children) (maybe (some k) .expression .expression)
        next).1 = (run (Cst.lowerEach c.children) (k.as .expression .expression) next).1 := by
      simp [maybe, runAll]
    rw [hrun] at hn ⊢
    have hrole := role?_of_mem_run hkids hn
    have hlength : (run (Cst.lowerEach c.children) (k.as .expression .expression)
        next).1.length ≤ 1 := length_run_le hkids rfl next
    obtain ⟨m, hm⟩ :=
      List.length_eq_one_iff.mp (Nat.le_antisymm hlength (List.length_pos_of_mem hn))
    obtain rfl : n = m := List.mem_singleton.mp (hm ▸ hn)
    exact ⟨(Option.some.inj hrole).symm, hm⟩

/-- A container in markup holds one expression at most. -/
theorem Program.ofCst_containers {c : Cst} {n : Node} (hn : n ∈ (Program.ofCst c).root.preorder)
    (hkind : n.kind = .jsxExpressionContainer) {child : Node} (hchild : child ∈ n.children) :
    n.get? .expression = some child := by
  rcases Program.ofCst_made c n hn with rfl | ⟨hd, hform, next⟩
  · cases hkind
  · dsimp only at hkind
    subst hkind
    cases hform with
    | free hfree => cases hfree
    | container =>
      obtain ⟨hrole, hparts⟩ := Step.runAll_maybe_expression (Step.mem_arrange.mp hchild)
      have harranged : Step.arrange [child] = [child] := Step.arrange_eq_self (by simp [hrole])
      rw [Node.get?, hparts, harranged, List.find?_cons_of_pos (by simp [hrole])]
    | around haround => cases haround

end TsxLint
