import TsxLint.Text.Affix
import TsxLint.Text.Span
import TsxLint.Tree.Kind

/-!
# The typed tree

A `Node` has a number, a kind, a span and children, each child under a role. Children stand in the
order in which a walk visits them. The accessors below read the parts of a node by role.

## Main definitions

* `Node`, `Node.get?`, `Node.all`: nodes and their parts.
* `Node.preorder`: a node and everything inside it, in visiting order.
* `Node.keyName?`, `Node.binders`, `Node.slots`: what keys, patterns and array patterns say.
* `Program`: the root of a file with the number of node numbers handed out for it.
-/

namespace TsxLint

/-- A node of the typed tree. -/
structure Node where
  role : Role
  id : Nat
  kind : Kind
  span : Span
  children : List Node
  deriving Inhabited

namespace Node

/-- The first part under a role. -/
def get? (n : Node) (role : Role) : Option Node := n.children.find? (·.role == role)

/-- All parts under a role. -/
def all (n : Node) (role : Role) : List Node := n.children.filter (·.role == role)

mutual

/-- A node and everything inside it, in visiting order. -/
def preorder : Node → List Node
  | ⟨role, id, kind, span, children⟩ => ⟨role, id, kind, span, children⟩ :: preorderAll children

/-- Everything in a list of nodes, in visiting order. -/
def preorderAll : List Node → List Node
  | [] => []
  | n :: ns => preorder n ++ preorderAll ns

end

/-- Whether a node is a function or an arrow function. -/
def isFunctionLike (n : Node) : Bool :=
  match n.kind with
  | .function .. | .arrowFunction _ => true
  | _ => false

/-- Whether a node is an element or a fragment. -/
def isJsx (n : Node) : Bool :=
  match n.kind with
  | .jsxElement _ | .jsxFragment => true
  | _ => false

/-- The name of a node that is a name. -/
def nameText? (n : Node) : Option String :=
  match n.kind with
  | .bindingIdentifier name | .identifierReference name | .identifierName name
  | .moduleExportName name | .jsxIdentifier name => some name
  | _ => none

/-- The name of a node that is a name, empty for any other node. -/
def label (n : Node) : String := n.nameText?.getD ""

/-- The node itself, if it is an identifier expression. -/
def asIdentifier? (n : Node) : Option Node :=
  match n.kind with
  | .identifierReference _ => some n
  | _ => none

/-- The name under a role. -/
def nameAt? (n : Node) (role : Role) : Option String := (n.get? role).bind nameText?

/-! ### Keys -/

/-- The key of a member, in whichever form. -/
def keyNode? (n : Node) : Option Node :=
  n.children.find? fun c => c.role == .key || c.role == .privateKey || c.role == .computedKey

/-- The text of a key that is not computed. -/
def keyName? (n : Node) : Option String :=
  n.keyNode?.bind fun key =>
    if key.role == .computedKey then none
    else
      match key.kind with
      | .identifierName name => some name
      | .stringLiteral value => some value
      | .numericLiteral raw => some raw
      | _ => none

/-- The property of a member access, in whichever form. -/
def propertyNode? (n : Node) : Option Node :=
  n.children.find? fun c =>
    c.role == .property || c.role == .privateProperty || c.role == .computedProperty

/-- The name of the property that a member access reads, if it is fixed. -/
def propertyName? (n : Node) : Option String :=
  n.propertyNode?.bind fun property =>
    match property.kind with
    | .identifierName name => if property.role == .computedProperty then none else some name
    | .stringLiteral value => some value
    | _ => none

/-! ### Patterns -/

mutual

/-- The identifiers that a pattern binds, in source order, a rest element last. -/
def binders : Node → List Node
  | ⟨role, id, .bindingIdentifier name, span, children⟩ =>
    [⟨role, id, .bindingIdentifier name, span, children⟩]
  | ⟨_, _, .objectPattern, _, children⟩ => bindersAt [.property, .rest] children
  | ⟨_, _, .bindingProperty _, _, children⟩ => bindersAt [.value] children
  | ⟨_, _, .arrayPattern _, _, children⟩ => bindersAt [.element, .rest] children
  | ⟨_, _, .assignmentPattern, _, children⟩ => bindersAt [.left] children
  | ⟨_, _, .restElement, _, children⟩ => bindersAt [.argument] children
  | _ => []

/-- The identifiers that the children under some roles bind. -/
def bindersAt (roles : List Role) : List Node → List Node
  | [] => []
  | n :: ns => (if roles.contains n.role then binders n else []) ++ bindersAt roles ns

end

/-- The elements put into the slots that take one; the other slots stay holes. -/
def fillSlots : List Bool → List Node → List (Option Node)
  | [], _ => []
  | false :: slots, elements => none :: fillSlots slots elements
  | true :: slots, [] => none :: fillSlots slots []
  | true :: slots, n :: elements => some n :: fillSlots slots elements

/-- The elements of an array pattern by position, holes included. -/
def slots (n : Node) : List (Option Node) :=
  match n.kind with
  | .arrayPattern slots => fillSlots slots (n.all .element)
  | _ => []

/-! ### Wrappers -/

mutual

/-- An expression without the parentheses and type wrappers around it, which do not change its
value. -/
def unwrapped : Node → Node
  | ⟨role, id, .parenthesizedExpression, span, children⟩ =>
    unwrappedIn ⟨role, id, .parenthesizedExpression, span, children⟩ children
  | ⟨role, id, .asExpression, span, children⟩ =>
    unwrappedIn ⟨role, id, .asExpression, span, children⟩ children
  | ⟨role, id, .satisfiesExpression, span, children⟩ =>
    unwrappedIn ⟨role, id, .satisfiesExpression, span, children⟩ children
  | ⟨role, id, .nonNullExpression, span, children⟩ =>
    unwrappedIn ⟨role, id, .nonNullExpression, span, children⟩ children
  | n => n

/-- The first wrapped expression among the children of `wrapper`. -/
def unwrappedIn (wrapper : Node) : List Node → Node
  | [] => wrapper
  | n :: ns => if n.role == .expression then unwrapped n else unwrappedIn wrapper ns

end

mutual

/-- A type without the parentheses and optional marks around it. -/
def bareType : Node → Node
  | ⟨role, id, .parenthesizedType, span, children⟩ =>
    bareTypeIn ⟨role, id, .parenthesizedType, span, children⟩ children
  | ⟨role, id, .optionalType, span, children⟩ =>
    bareTypeIn ⟨role, id, .optionalType, span, children⟩ children
  | n => n

/-- The first wrapped type among the children of `wrapper`. -/
def bareTypeIn (wrapper : Node) : List Node → Node
  | [] => wrapper
  | n :: ns => if n.role == .type then bareType n else bareTypeIn wrapper ns

end

/-! ### Names of types, elements and attributes -/

/-- The segments of the name that a type reference refers by. -/
def typeSegments (n : Node) : List String :=
  match (n.get? .name).map kind with
  | some (.typeName segments) => segments
  | _ => []

/-- The last segment of the name that a type reference refers by. -/
def lastSegment (n : Node) : String := n.typeSegments.getLastD ""

/-- The name of a type reference that is not qualified. -/
def localTypeName? (n : Node) : Option String :=
  match n.kind with
  | .typeReference => if n.typeSegments.length ≤ 1 then some n.lastSegment else none
  | _ => none

/-- The text of the name of an element or an attribute. -/
def jsxNameText (n : Node) : String :=
  match n.kind with
  | .jsxIdentifier name => name
  | .jsxNamespacedName space name => space ++ ":" ++ name
  | .jsxMemberName segments => Text.joinWith "." segments
  | _ => ""

/-- The name under which an export specifier makes its local name known. -/
def exportedName (n : Node) : String := ((n.nameAt? .exported).or (n.nameAt? .localName)).getD ""

/-- Whether an assignment decides by its target whether it assigns. -/
def isLogicalAssignment (n : Node) : Bool :=
  match n.kind with
  | .assignmentExpression operator _ => ["&&=", "||=", "??="].contains operator
  | _ => false

/-- The text of the name under which a node holds one. -/
def tagName (n : Node) : String := ((n.get? .name).map jsxNameText).getD ""

end Node

/-- The tree of a file, with the number of node numbers handed out for it. -/
structure Program where
  root : Node
  nodeCount : Nat
  deriving Inhabited

end TsxLint
