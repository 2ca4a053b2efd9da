import TsxLint.Binding.Symbol

/-!
# References

A reference is a use of a name as a value: an identifier expression, a name in the target of a
destructuring assignment or loop, a capitalized element name, or the root of a dotted one. It reads
the name, writes it, or does both. A reference has no symbol until all declarations are known.
-/

namespace TsxLint

/-- Whether a reference reads and whether it writes. -/
structure Access where
  isRead : Bool
  isWrite : Bool
  deriving DecidableEq, Repr

namespace Access

/-- The name is read. -/
def read : Access := ⟨true, false⟩

/-- The name is written. -/
def write : Access := ⟨false, true⟩

/-- The name is read and then written. -/
def readWrite : Access := ⟨true, true⟩

end Access

/-- A use of a name, with the symbol it stands for once it is resolved. -/
structure Reference where
  node : Nat
  name : String
  scope : Nat
  access : Access
  symbol : Option Nat
  deriving DecidableEq, Repr

/-- Whether a node wraps an expression without changing its value. -/
def Kind.isWrapper : Kind → Bool
  | parenthesizedExpression | nonNullExpression | asExpression | satisfiesExpression => true
  | _ => false

namespace Visit

/-- How the identifier expression of a visit uses its name. -/
def access (v : Visit) : Access :=
  match v.ancestors.find? fun n => !n.kind.isWrapper with
  | none => .read
  | some parent =>
    match parent.kind with
    | .assignmentExpression operator .identifier =>
      if (parent.get? .target).any (·.id == v.node.id) then
        if operator = "=" then .write else .readWrite
      else .read
    | .updateExpression .. =>
      if (parent.get? .argument).any (·.unwrapped.id == v.node.id) then .readWrite else .read
    | .forInStatement _ _ (.assigns .identifier) =>
      if (parent.get? .left).any (·.id == v.node.id) then .write else .read
    | _ => .read

/-- The name that a visit uses as a value, and how. -/
def use? (scopes : ScopeTree) (v : Visit) : Option (String × Access) :=
  match v.node.kind with
  | .bindingIdentifier name =>
    match v.binderUse scopes with
    | .writes => some (name, .write)
    | _ => none
  | .identifierReference name => some (name, v.access)
  | .jsxIdentifier name =>
    match v.ancestors.head?.map Node.kind with
    | some .jsxOpeningElement =>
      if (Text.first? name).any Char.isLower then none else some (name, .read)
    | _ => none
  | .jsxMemberName segments => segments.head?.map fun root => (root, .read)
  | _ => none

/-- The reference that a visit makes, not yet resolved. -/
def reference? (scopes : ScopeTree) (v : Visit) : Option Reference :=
  (v.use? scopes).map fun (name, access) => ⟨v.node.id, name, v.scope, access, none⟩

end Visit

end TsxLint
