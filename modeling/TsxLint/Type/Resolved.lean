import TsxLint.Text.Affix
import TsxLint.Text.Blank

/-!
# Resolved types

What a type service knows about the type of a node. A union type is judged by its members and an
intersection by its constituents.
-/

namespace TsxLint

/-- The resolved type of a node. -/
structure ResolvedType where
  text : String
  isArrayLike : Bool
  isBooleanLike : Bool
  isPrimitive : Bool
  isReadonly : Bool
  callSignatures : Nat
  constructSignatures : Nat
  union : List ResolvedType
  intersection : List ResolvedType
  symbolName : Option String
  aliasName : Option String
  heritage : List String
  deriving Inhabited

namespace ResolvedType

/-- Whether values of the type can be called or constructed. -/
def isFunctionLike (t : ResolvedType) : Bool :=
  0 < t.callSignatures || 0 < t.constructSignatures

mutual

/-- Whether a predicate holds of some member of a union; a type that is no union is its only
member. -/
def anyMember (p : ResolvedType → Bool) : ResolvedType → Bool
  | ⟨text, array, boolean, primitive, readonly, calls, constructs, [], parts, symbol, synonym,
      heritage⟩ =>
    p ⟨text, array, boolean, primitive, readonly, calls, constructs, [], parts, symbol, synonym,
      heritage⟩
  | ⟨_, _, _, _, _, _, _, member :: members, _, _, _, _⟩ => anyMemberOf p (member :: members)

/-- Whether a predicate holds of some member of one of the types. -/
def anyMemberOf (p : ResolvedType → Bool) : List ResolvedType → Bool
  | [] => false
  | t :: ts => anyMember p t || anyMemberOf p ts

end

mutual

/-- Whether a predicate holds of every constituent: of the parts of an intersection, else of the
members of a union, else of the type itself. -/
def everyConstituent (p : ResolvedType → Bool) : ResolvedType → Bool
  | ⟨_, _, _, _, _, _, _, _, part :: parts, _, _, _⟩ => everyConstituentOf p (part :: parts)
  | ⟨_, _, _, _, _, _, _, member :: members, [], _, _, _⟩ =>
    everyConstituentOf p (member :: members)
  | ⟨text, array, boolean, primitive, readonly, calls, constructs, [], [], symbol, synonym,
      heritage⟩ =>
    p ⟨text, array, boolean, primitive, readonly, calls, constructs, [], [], symbol, synonym,
      heritage⟩

/-- Whether a predicate holds of every constituent of all the types. -/
def everyConstituentOf (p : ResolvedType → Bool) : List ResolvedType → Bool
  | [] => true
  | t :: ts => everyConstituent p t && everyConstituentOf p ts

end

/-- Whether the type goes by one of the names: as a symbol, as an alias or by heritage. -/
def isRootedAt (names : List String) (t : ResolvedType) : Bool :=
  (t.symbolName.toList ++ t.aliasName.toList ++ t.heritage).any names.contains

/-- Whether a type printed as `text` is an array or a tuple. -/
def isArrayText (text : String) : Bool :=
  let text := Text.trim text
  Text.endsWith text "[]" ||
    ["readonly ", "Array<", "ReadonlyArray<", "[", "readonly ["].any (Text.startsWith text)

/-- Whether some member is a plain object: no array, function, primitive or boolean, and neither
`any` nor `unknown`. -/
def isPlainObject (t : ResolvedType) : Bool :=
  t.anyMember fun member =>
    let text := Text.trim member.text
    !member.isArrayLike && !member.isFunctionLike && !member.isPrimitive &&
      !member.isBooleanLike && text != "any" && text != "unknown"

end ResolvedType

/-- What is known about the types of nodes, by node number. -/
abbrev TypeService := Nat → Option ResolvedType

end TsxLint
