import TsxLint.Component.Function

/-!
# Outlines

Moving a statement gives its nodes other numbers and other spans. The outline of a node is what is
left without them. What is read off the roles and kinds of nodes can be read off the outline.

## Main definitions

* `Node.outline`: a node without numbers and spans.

## Main results

* `Node.get?_outline`, `Node.all_outline`, `Node.unwrapped_outline`: parts of outlines.
* `Node.preorderAll_outline`: the nodes inside of outlines.
-/

namespace TsxLint

namespace Node

mutual

/-- A node with the numbers and spans of it and everything inside left out. -/
def outline : Node → Node
  | ⟨role, _, kind, _, children⟩ => ⟨role, 0, kind, ⟨0, 0⟩, outlineAll children⟩

/-- The outlines of some nodes. -/
def outlineAll : List Node → List Node
  | [] => []
  | n :: ns => n.outline :: outlineAll ns

end

theorem outlineAll_eq_map (ns : List Node) : outlineAll ns = ns.map outline := by
  induction ns with
  | nil => rw [outlineAll, List.map_nil]
  | cons n ns ih => rw [outlineAll, List.map_cons, ih]

variable (n : Node)

@[simp] theorem outline_role : n.outline.role = n.role := by
  obtain ⟨role, id, kind, span, children⟩ := n
  rw [outline]

@[simp] theorem outline_kind : n.outline.kind = n.kind := by
  obtain ⟨role, id, kind, span, children⟩ := n
  rw [outline]

@[simp] theorem outline_children : n.outline.children = n.children.map outline := by
  obtain ⟨role, id, kind, span, children⟩ := n
  rw [outline, outlineAll_eq_map]

/-! ### Parts -/

theorem get?_outline (role : Role) : n.outline.get? role = (n.get? role).map outline := by
  rw [get?, get?, outline_children, List.find?_map]
  simp only [Function.comp_def, outline_role]

theorem all_outline (role : Role) : n.outline.all role = (n.all role).map outline := by
  rw [all, all, outline_children, List.filter_map]
  simp only [Function.comp_def, outline_role]

mutual

theorem preorder_outline : (n : Node) → n.outline.preorder = n.preorder.map outline
  | ⟨role, id, kind, span, children⟩ => by
    rw [outline, preorder, preorder, List.map_cons, outline, outlineAll_eq_map,
      preorderAll_outline children]

theorem preorderAll_outline : (ns : List Node) →
    preorderAll (ns.map outline) = (preorderAll ns).map outline
  | [] => by rw [List.map_nil, preorderAll, List.map_nil]
  | n :: ns => by
    rw [List.map_cons, preorderAll, preorderAll, List.map_append, preorder_outline n,
      preorderAll_outline ns]

end

/-! ### Names and keys -/

theorem nameText?_outline : n.outline.nameText? = n.nameText? := by
  rw [nameText?, nameText?, outline_kind]

theorem label_outline : n.outline.label = n.label := by
  rw [label, label, nameText?_outline]

theorem nameAt?_outline (role : Role) : n.outline.nameAt? role = n.nameAt? role := by
  rw [nameAt?, nameAt?, get?_outline, Option.bind_map]
  exact congrArg _ (funext nameText?_outline)

theorem exportedName_outline : n.outline.exportedName = n.exportedName := by
  rw [exportedName, exportedName, nameAt?_outline, nameAt?_outline]

theorem keyName?_outline : n.outline.keyName? = n.keyName? := by
  have hkey : n.outline.keyNode? = n.keyNode?.map outline := by
    rw [keyNode?, keyNode?, outline_children, List.find?_map]
    simp only [Function.comp_def, outline_role]
  rw [keyName?, keyName?, hkey, Option.bind_map]
  simp only [Function.comp_def, outline_role, outline_kind]

theorem boundName?_outline : n.outline.boundName? = n.boundName?.map outline := by
  rw [boundName?, boundName?, get?_outline, Option.bind_map, Option.map_bind]
  refine congrArg _ (funext fun binding => ?_)
  simp only [Function.comp_apply, outline_kind]
  split <;> rfl

/-! ### Wrappers -/

mutual

theorem unwrapped_outline : (n : Node) → n.outline.unwrapped = n.unwrapped.outline
  | ⟨role, id, kind, span, children⟩ => by
    have hparts := unwrappedIn_outline ⟨role, id, kind, span, children⟩ children
    rw [outline] at hparts ⊢
    cases kind
    case parenthesizedExpression | asExpression | satisfiesExpression | nonNullExpression =>
      rw [unwrapped, unwrapped, outlineAll_eq_map]
      rwa [outlineAll_eq_map] at hparts
    all_goals
      simp [unwrapped, outline]

theorem unwrappedIn_outline (wrapper : Node) : (ns : List Node) →
    unwrappedIn wrapper.outline (ns.map outline) = (unwrappedIn wrapper ns).outline
  | [] => by rw [List.map_nil, unwrappedIn, unwrappedIn]
  | n :: ns => by
    rw [List.map_cons, unwrappedIn, unwrappedIn, outline_role]
    split
    · exact unwrapped_outline n
    · exact unwrappedIn_outline wrapper ns

end

end Node

end TsxLint
