import TsxLint.Binding.Model

/-!
# Named functions

Function declarations and functions bound by a declarator, with what their bodies return and call.
Returns and calls of nested functions belong to those.

## Main definitions

* `Body`, `NamedFunction`, `Model.namedFunctions`: functions under a name.
* `Body.returned`, `Body.topReturns`: what a body returns.
* `Node.ownNodes`, `Body.calls`: what a body does outside of nested functions.
* `Model.declaredName?`, `Model.functionLabel`: how a function is referred to.
-/

namespace TsxLint

/-- The body of a function: statements, or the expression of an arrow function. -/
inductive Body
  | block (node : Node)
  | expression (node : Node)

/-- The body of a function or an arrow function. -/
def Node.functionBody? (n : Node) : Option Body :=
  if n.isFunctionLike then
    ((n.get? .body).map Body.block).or ((n.get? .expression).map Body.expression)
  else none

/-- A function under a name. -/
structure NamedFunction where
  nameNode : Node
  function : Node

namespace NamedFunction

/-- The name of the function. -/
def name (f : NamedFunction) : String := f.nameNode.label

/-- The parameters of the function. -/
def params (f : NamedFunction) : List Node := f.function.all .param

/-- The body of the function. -/
def body? (f : NamedFunction) : Option Body := f.function.functionBody?

end NamedFunction

/-- The identifier of a declarator that binds one name. -/
def Node.boundName? (declarator : Node) : Option Node :=
  (declarator.get? .binding).bind fun binding =>
    match binding.kind with
    | .bindingIdentifier _ => some binding
    | _ => none

/-- The named function that a node declares. -/
def Node.namedFunction? (n : Node) : Option NamedFunction :=
  match n.kind with
  | .function .declaration _ _ => (n.get? .name).map fun name => ⟨name, n⟩
  | .variableDeclarator =>
    match n.boundName?, n.get? .initial with
    | some name, some initial => if initial.isFunctionLike then some ⟨name, initial⟩ else none
    | _, _ => none
  | _ => none

/-- The named functions of a file, in source order. -/
def Model.namedFunctions (m : Model) : List NamedFunction := m.nodes.filterMap Node.namedFunction?

/-! ### What a body returns -/

/-- The roles of the parts of a statement that may hold returns of the same body. -/
def Kind.returnRoles : Kind → List Role
  | .ifStatement => [.consequent, .alternate]
  | .forStatement | .forInStatement .. | .whileStatement | .doWhileStatement | .labeledStatement
  | .catchClause => [.body]
  | .blockStatement | .switchCase | .functionBody => [.statement]
  | .switchStatement => [.switchCase]
  | .tryStatement => [.block, .handler, .finalizer]
  | _ => []

mutual

/-- The arguments of the returns in a statement, outside of nested functions. -/
def Node.returns : Node → List Node
  | ⟨_, _, kind, _, children⟩ =>
    match kind with
    | .returnStatement => children.filter (·.role == .argument)
    | kind => returnsAt kind.returnRoles children

/-- The arguments of the returns in the parts under some roles. -/
def Node.returnsAt (roles : List Role) : List Node → List Node
  | [] => []
  | n :: ns => (if roles.contains n.role then n.returns else []) ++ returnsAt roles ns

end

/-- The arguments of the returns of a block body. -/
def returnedExpressions (block : Node) : List Node := block.returns

/-- The arguments of the returns written directly in a block body. -/
def topLevelReturns (block : Node) : List Node :=
  (block.all .statement).flatMap fun statement =>
    match statement.kind with
    | .returnStatement => statement.all .argument
    | _ => []

/-- The expressions that a body returns. -/
def Body.returned : Body → List Node
  | block node => returnedExpressions node
  | expression node => [node]

/-! ### What a body calls -/

mutual

/-- A node and everything inside it, nested functions left out. -/
def Node.ownNodes : Node → List Node
  | ⟨role, id, kind, span, children⟩ =>
    let n : Node := ⟨role, id, kind, span, children⟩
    if n.isFunctionLike then [] else n :: ownNodesAll children

/-- Everything in a list of nodes, functions left out. -/
def Node.ownNodesAll : List Node → List Node
  | [] => []
  | n :: ns => n.ownNodes ++ ownNodesAll ns

end

/-- Whether a body calls something of which `p` holds, outside of nested functions. -/
def Body.calls (p : Node → Bool) : Body → Bool
  | block node | expression node =>
    node.ownNodes.any fun n =>
      match n.kind with
      | .callExpression _ => (n.get? .callee).any p
      | _ => false

/-- The name that a call goes to: an identifier, or the property of a member access. -/
def Node.calleeName? (callee : Node) : Option String :=
  let bare := callee.unwrapped
  match bare.kind with
  | .identifierReference name => some name
  | .memberExpression _ => bare.propertyName?
  | _ => none

/-! ### Labels -/

namespace Model

/-- The name that a function is known by: its own, or that of the declarator that binds it. -/
def declaredName? (m : Model) (function : Node) : Option String :=
  let own :=
    match function.kind with
    | .function .. => function.nameAt? .name
    | _ => none
  own.or <| (m.parent? function.id).bind fun parent =>
    match parent.kind with
    | .variableDeclarator => parent.boundName?.bind Node.nameText?
    | _ => none

/-- How a function is called in a message. -/
def functionLabel (m : Model) (function : Node) : String :=
  match m.declaredName? function with
  | some name => "function '" ++ name ++ "'"
  | none =>
    let method := (m.parent? function.id).bind fun parent =>
      match parent.kind with
      | .methodDefinition .. => parent.keyName?
      | _ => none
    match method with
    | some name => "method '" ++ name ++ "'"
    | none => "function"

end Model

end TsxLint
