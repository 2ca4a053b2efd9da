import TsxLint.Type.Alias
import TsxLint.Type.Resolved

/-!
# Shapes of types

Verdicts about an annotation: whether it is an array, a boolean, a function, a plain object, a
rendered element, a component, readonly or a promise. When a type service knows the type of the
annotation, it decides; otherwise the annotation is read as written, through the aliases of the
file.

## Main definitions

* `Shapes`: the declarations of a file and the type service, if there is one.
* `Shapes.isArray`, `Shapes.isBoolean`, `Shapes.isFunction`, `Shapes.isObject`,
  `Shapes.containsElement`, `Shapes.isComponentConstructor`: verdicts that hold of a union when they
  hold of a member.
* `Shapes.isReadonly`: the verdict that has to hold of every member.
* `returnTypes`, `isPromise`: what function types return.
-/

namespace TsxLint

/-- Which kind of rendered element a type stands for. -/
inductive ElementKind
  | node
  | element
  deriving DecidableEq, Repr

/-- The name of the type of an element kind. -/
def ElementKind.typeName : ElementKind → String
  | node => "ReactNode"
  | element => "ReactElement"

/-- The types of components. -/
def componentConstructors : List String := ["ComponentType", "FC", "FunctionComponent"]

/-- The types whose values cannot be changed through them. -/
def readonlyContainers : List String := ["Readonly", "ReadonlyArray", "ReadonlyMap", "ReadonlySet"]

/-- The types of arrays. -/
def arrayContainers : List String := ["Array", "ReadonlyArray"]

/-- The types of plain objects. -/
def objectContainers : List String := ["Record", "RefObject", "MutableRefObject"]

mutual

/-- The type that operators apply to, and below an operator also without parentheses and optional
marks. -/
def Node.operand (below : Bool) : Node → Node
  | ⟨role, id, .typeOperator operator, span, children⟩ =>
    operandIn ⟨role, id, .typeOperator operator, span, children⟩ children
  | ⟨role, id, .parenthesizedType, span, children⟩ =>
    if below then operandIn ⟨role, id, .parenthesizedType, span, children⟩ children
    else ⟨role, id, .parenthesizedType, span, children⟩
  | ⟨role, id, .optionalType, span, children⟩ =>
    if below then operandIn ⟨role, id, .optionalType, span, children⟩ children
    else ⟨role, id, .optionalType, span, children⟩
  | n => n

/-- The operand of the first type among the children of `wrapper`. -/
def Node.operandIn (wrapper : Node) : List Node → Node
  | [] => wrapper
  | n :: ns => if n.role == .type then operand true n else operandIn wrapper ns

end

/-- Whether an object type or interface can be called or constructed. -/
def hasCallSignature (members : List Node) : Bool :=
  members.any fun member =>
    match member.kind with
    | .callSignature _ => true
    | _ => false

/-- Arrays and tuples, also behind operators. -/
def isArrayLeaf (n : Node) : Bool :=
  let operand := n.operand false
  match operand.kind with
  | .arrayType | .tupleType => true
  | .typeReference => arrayContainers.contains operand.lastSegment
  | _ => false

/-- The keyword `boolean` and the literals `true` and `false`. -/
def isBooleanLeaf (n : Node) : Bool :=
  match n.kind with
  | .keywordType .boolean => true
  | .literalType (.boolean _) => true
  | _ => false

/-- Function types, constructor types and object types that can be called. -/
def isFunctionLeaf (n : Node) : Bool :=
  match n.kind with
  | .functionType _ => true
  | .typeLiteral => hasCallSignature (n.all .member)
  | _ => false

/-- References to the types of components. -/
def isComponentLeaf (n : Node) : Bool :=
  match n.kind with
  | .typeReference => componentConstructors.contains n.lastSegment
  | _ => false

/-- References to the type of an element kind. -/
def isElementLeaf (kind : ElementKind) (n : Node) : Bool :=
  match n.kind with
  | .typeReference => n.lastSegment == kind.typeName
  | _ => false

/-- Whether values of a keyword type cannot be changed. -/
def TypeKeyword.isImmutable : TypeKeyword → Bool
  | string | number | boolean | bigint | symbol | null | undefined => true
  | _ => false

/-- The declarations of a file and what is known about its types. -/
structure Shapes where
  aliases : AliasTable
  types : Option TypeService

namespace Shapes

/-- The resolved type of a node. -/
def resolved? (s : Shapes) (n : Node) : Option ResolvedType := s.types.bind (· n.id)

/-- The verdict of the type service if it knows the type, else that of the annotation. -/
def decide (s : Shapes) (n : Node) (known : ResolvedType → Bool) (written : Bool) : Bool :=
  match s.resolved? n with
  | some type => known type
  | none => written

/-- Whether some type that the annotation leads to is of a shape, with the guard as it is
afterwards. -/
def anyShape (s : Shapes) (leaf : Node → Bool) (guard : Guard) (n : Node) : Bool × Guard :=
  s.aliases.meets .plain leaf guard n

/-- Whether a type is an array or a tuple. -/
def isArray (s : Shapes) (n : Node) : Bool :=
  s.decide n
    (·.anyMember fun member => member.isArrayLike || ResolvedType.isArrayText member.text)
    (s.anyShape isArrayLeaf .empty n).1

/-- Whether a type has boolean members. -/
def isBoolean (s : Shapes) (n : Node) : Bool :=
  s.decide n (·.anyMember (·.isBooleanLike)) (s.anyShape isBooleanLeaf .empty n).1

/-- Whether a type has members that can be called. -/
def isFunction (s : Shapes) (n : Node) : Bool :=
  s.decide n (·.anyMember (·.isFunctionLike)) (s.anyShape isFunctionLeaf .empty n).1

/-- Object types and interfaces that cannot be called, `object`, records and refs. -/
def isObjectLeaf (s : Shapes) (n : Node) : Bool :=
  match n.kind with
  | .typeLiteral => !hasCallSignature (n.all .member)
  | .keywordType .object => true
  | .typeReference =>
    objectContainers.contains n.lastSegment ||
      n.localTypeName?.any fun name =>
        (s.aliases.interfaces name).any fun declaration =>
          !hasCallSignature (declaration.all .member)
  | _ => false

/-- Whether a type has plain object members. -/
def isObject (s : Shapes) (n : Node) : Bool :=
  s.decide n (·.isPlainObject) (s.anyShape s.isObjectLeaf .empty n).1

/-- Whether a type contains a rendered element of a kind. -/
def containsElement (s : Shapes) (kind : ElementKind) (n : Node) : Bool :=
  s.decide n (·.anyMember (·.isRootedAt [kind.typeName]))
    (s.aliases.meets ⟨true, true⟩ (isElementLeaf kind) .empty n).1.1

/-- Whether a type is that of a component. -/
def isComponentConstructor (s : Shapes) (n : Node) : Bool :=
  s.decide n (·.anyMember (·.isRootedAt componentConstructors))
    (s.anyShape isComponentLeaf .empty n).1

end Shapes

namespace AliasTable

mutual

/-- Whether a type is readonly in every member, while the names of `guard` are in progress. -/
def readonlyIn (t : AliasTable) (guard : Guard) (n : Node) : Bool :=
  match n.kind with
  | .parenthesizedType | .optionalType =>
    n.children.any (·.role == .type) && readonlyAt t guard .type n.children
  | .unionType | .intersectionType =>
    n.children.any (·.role == .element) && readonlyAt t guard .element n.children
  | .typeOperator operator => operator == .readonly
  | .keywordType keyword => keyword.isImmutable
  | .literalType _ => true
  | .typeReference =>
    readonlyContainers.contains n.lastSegment ||
      match n.localTypeName? with
      | none => false
      | some name =>
        if guard.isActive name = true then false
        else if name ∈ t.names then
          match t.alias? name with
          | some type => readonlyIn t (guard.enter name).2 type
          | none => false
        else false
  | _ => false
termination_by (guard.unvisited t.names, sizeOf n)
decreasing_by
  · obtain ⟨role, id, kind, span, children⟩ := n
    apply Prod.Lex.right
    simp only [Node.mk.sizeOf_spec]
    omega
  · obtain ⟨role, id, kind, span, children⟩ := n
    apply Prod.Lex.right
    simp only [Node.mk.sizeOf_spec]
    omega
  · exact Prod.Lex.left _ _ (Guard.unvisited_enter_lt ‹_› (by simpa using ‹¬guard.isActive name = true›))

/-- Whether all types under a role are readonly. -/
def readonlyAt (t : AliasTable) (guard : Guard) (role : Role) (ns : List Node) : Bool :=
  match ns with
  | [] => true
  | n :: rest =>
    (if n.role == role then readonlyIn t guard n else true) && readonlyAt t guard role rest
termination_by (guard.unvisited t.names, sizeOf ns)

end

end AliasTable

/-- Whether a type is spelled readonly in every member. -/
def Shapes.isReadonly (s : Shapes) (n : Node) : Bool := s.aliases.readonlyIn .empty n

mutual

/-- The return types of the function types in a type, through parentheses, unions and
intersections. -/
def returnTypes : Node → List Node
  | ⟨_, _, .functionType false, _, children⟩ => children.filter (·.role == .returnType)
  | ⟨_, _, .parenthesizedType, _, children⟩ => returnTypesAt .type children
  | ⟨_, _, .unionType, _, children⟩ => returnTypesAt .element children
  | ⟨_, _, .intersectionType, _, children⟩ => returnTypesAt .element children
  | _ => []

/-- The return types of the types under a role. -/
def returnTypesAt (role : Role) : List Node → List Node
  | [] => []
  | n :: ns => (if n.role == role then returnTypes n else []) ++ returnTypesAt role ns

end

/-- Whether a type is a reference to a promise. -/
def isPromise (n : Node) : Bool :=
  match n.kind with
  | .typeReference => n.lastSegment == "Promise"
  | _ => false

end TsxLint
