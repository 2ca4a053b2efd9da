import TsxLint.Naming.Case
import TsxLint.Type.Alias

/-!
# Props contracts

A contract is a declaration whose members describe the props of a component: an interface, or a
type alias that is an object type. A props contract is named `*Props`; an alias of that name
contributes the members of every object type that it is composed of.
-/

namespace TsxLint

/-- A declared contract: the identifier that names it, the span of its declaration, its members. -/
structure Contract where
  nameNode : Node
  span : Span
  members : List Node

namespace Contract

/-- The name of a contract. -/
def name (c : Contract) : String := c.nameNode.label

/-- Whether a contract is named `*Props`. -/
def isProps (c : Contract) : Bool := Naming.isPropsName c.name

/-- The property signatures of a contract. -/
def properties (c : Contract) : List Node :=
  c.members.filter fun member =>
    match member.kind with
    | .propertySignature .. => true
    | _ => false

end Contract

/-- The key of a property or method signature. -/
def Node.signatureKey? (n : Node) : Option String :=
  match n.kind with
  | .propertySignature .. | .methodSignature _ => n.keyName?
  | _ => none

/-- The contract of an interface or an object type alias. -/
def Node.contract? (n : Node) : Option Contract :=
  match n.kind with
  | .interfaceDeclaration => (n.get? .name).map fun name => ⟨name, n.span, n.all .member⟩
  | .typeAliasDeclaration =>
    match n.get? .name, n.get? .type with
    | some name, some type =>
      match type.kind with
      | .typeLiteral => some ⟨name, n.span, type.all .member⟩
      | _ => none
    | _, _ => none
  | _ => none

/-- The contracts of a file, in source order. -/
def Model.contracts (m : Model) : List Contract := m.nodes.filterMap Node.contract?

/-- The members of the object types that a type is composed of. -/
def AliasTable.literalMembers (t : AliasTable) (guard : Guard) (n : Node) : List Node :=
  (t.reach ⟨true, false⟩ guard n).flatMap fun reached =>
    match reached.kind with
    | .typeLiteral => reached.all .member
    | _ => []

/-- The props contract that a node declares. -/
def Node.propsContract? (t : AliasTable) (n : Node) : Option Contract :=
  match n.kind with
  | .interfaceDeclaration =>
    (n.get? .name).bind fun name =>
      let contract : Contract := ⟨name, n.span, n.all .member⟩
      if contract.isProps then some contract else none
  | .typeAliasDeclaration =>
    match n.get? .name, n.get? .type with
    | some name, some type =>
      let guard := (Guard.empty.enter name.label).2
      let contract : Contract := ⟨name, n.span, t.literalMembers guard type⟩
      if contract.isProps then some contract else none
    | _, _ => none
  | _ => none

/-- The props contracts of a file, in source order. -/
def Model.propsContracts (m : Model) (t : AliasTable) : List Contract :=
  m.nodes.filterMap (Node.propsContract? t)

end TsxLint
