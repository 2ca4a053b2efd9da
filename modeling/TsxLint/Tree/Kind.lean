/-!
# Kinds of nodes

The syntactic categories of the typed tree, with what a node says about itself beside its children:
names, operators and flags. `Role` says what a node is to its parent.
-/

namespace TsxLint

/-- The keyword of a variable declaration. -/
inductive VariableKind
  | var
  | letVar
  | constVar
  deriving DecidableEq, Repr, Inhabited

/-- Which loop over members is meant. -/
inductive LoopKind
  | overKeys
  | overValues
  deriving DecidableEq, Repr

/-- What the target of an assignment is. -/
inductive TargetForm
  | identifier
  | member
  | pattern
  | other
  deriving DecidableEq, Repr

/-- What stands before `in` or `of`: a declaration or a target. -/
inductive LoopHead
  | declares (keyword : VariableKind)
  | assigns (form : TargetForm)
  deriving DecidableEq, Repr

/-- How a function is written. -/
inductive FunctionForm
  | declaration
  | expression
  | method
  deriving DecidableEq, Repr

/-- How a class member that is a function is used. -/
inductive MethodForm
  | method
  | constructor
  | getter
  | setter
  deriving DecidableEq, Repr

/-- What an import specifier takes from the module. -/
inductive ImportedName
  | default
  | whole
  | named (name : String)
  deriving DecidableEq, Repr

/-- An operator that decides by its left operand whether the right one counts. -/
inductive LogicalOperator
  | and
  | or
  | coalesce
  deriving DecidableEq, Repr

/-- The operator written as a token. -/
def LogicalOperator.ofToken? : String → Option LogicalOperator
  | "&&" => some .and
  | "||" => some .or
  | "??" => some .coalesce
  | _ => none

/-- A type that is a keyword. -/
inductive TypeKeyword
  | any
  | unknown
  | never
  | void
  | undefined
  | null
  | boolean
  | string
  | number
  | bigint
  | symbol
  | object
  deriving DecidableEq, Repr

/-- The word of a type keyword. -/
def TypeKeyword.name : TypeKeyword → String
  | any => "any"
  | unknown => "unknown"
  | never => "never"
  | void => "void"
  | undefined => "undefined"
  | null => "null"
  | boolean => "boolean"
  | string => "string"
  | number => "number"
  | bigint => "bigint"
  | symbol => "symbol"
  | object => "object"

/-- The type keyword of a word. -/
def TypeKeyword.ofName? (word : String) : Option TypeKeyword :=
  [any, unknown, never, void, undefined, null, boolean, string, number, bigint, symbol,
    object].find? (·.name == word)

/-- An operator in front of a type. -/
inductive TypeOperator
  | readonly
  | keyof
  deriving DecidableEq, Repr

/-- A type that is a literal. -/
inductive TypeLiteralValue
  | boolean (value : Bool)
  | string (value : String)
  | number (raw : String)
  | template
  deriving DecidableEq, Repr

/-- What a node is. -/
inductive Kind
  | program
  | bindingIdentifier (name : String)
  | identifierReference (name : String)
  | identifierName (name : String)
  | expressionStatement
  | variableDeclaration (keyword : VariableKind)
  | variableDeclarator
  | returnStatement
  | ifStatement
  | forStatement
  | forInStatement (loop : LoopKind) (isAwait : Bool) (head : LoopHead)
  | whileStatement
  | doWhileStatement
  | switchStatement
  | switchCase
  | tryStatement
  | catchClause
  | throwStatement
  | blockStatement
  | labeledStatement
  | importDeclaration (typeOnly : Bool)
  | importSpecifier (imported : ImportedName)
  | exportNamedDeclaration (exportAll typeOnly : Bool)
  | exportSpecifier
  | moduleExportName (name : String)
  | exportDefaultDeclaration
  | function (form : FunctionForm) (isAsync isGenerator : Bool)
  | arrowFunction (isAsync : Bool)
  | functionBody
  | param (isOptional isReadonly : Bool)
  | classLike (isDeclaration : Bool)
  | methodDefinition (form : MethodForm) (isStatic : Bool)
  | propertyDefinition (isStatic : Bool)
  | staticBlock
  | stringLiteral (value : String)
  | templateLiteral
  | numericLiteral (raw : String)
  | booleanLiteral (value : Bool)
  | nullLiteral
  | otherLiteral (raw : String)
  | thisExpression
  | arrayExpression
  | objectExpression
  | objectProperty (isShorthand isMethod : Bool)
  | callExpression (isOptional : Bool)
  | newExpression
  | memberExpression (isOptional : Bool)
  | unaryExpression (operator : String)
  | updateExpression (operator : String) (isLeading : Bool)
  | binaryExpression (operator : String)
  | logicalExpression (operator : LogicalOperator)
  | conditionalExpression
  | assignmentExpression (operator : String) (form : TargetForm)
  | sequenceExpression
  | parenthesizedExpression
  | awaitExpression
  | yieldExpression
  | spreadElement
  | asExpression
  | satisfiesExpression
  | nonNullExpression
  | objectPattern
  | bindingProperty (isShorthand : Bool)
  | arrayPattern (slots : List Bool)
  | assignmentPattern
  | restElement
  | interfaceDeclaration
  | typeAliasDeclaration
  | keywordType (keyword : TypeKeyword)
  | typeReference
  | typeName (segments : List String)
  | arrayType
  | tupleType
  | typeLiteral
  | unionType
  | intersectionType
  | functionType (isConstructor : Bool)
  | parenthesizedType
  | typeOperator (operator : TypeOperator)
  | optionalType
  | literalType (value : TypeLiteralValue)
  | unreadType (cstKind : String)
  | propertySignature (isOptional isReadonly : Bool)
  | methodSignature (isOptional : Bool)
  | callSignature (isConstruct : Bool)
  | indexSignature
  | jsxElement (isSelfClosing : Bool)
  | jsxFragment
  | jsxOpeningElement
  | jsxIdentifier (name : String)
  | jsxNamespacedName (space name : String)
  | jsxMemberName (segments : List String)
  | jsxAttribute
  | jsxSpreadAttribute
  | jsxExpressionContainer
  | jsxText (value : String)
  | unknown (cstKind : String)
  deriving Inhabited

/-- The name of a kind. -/
def Kind.name : Kind → String
  | program => "Program"
  | bindingIdentifier _ => "BindingIdentifier"
  | identifierReference _ => "IdentifierReference"
  | identifierName _ => "IdentifierName"
  | expressionStatement => "ExpressionStatement"
  | variableDeclaration _ => "VariableDeclaration"
  | variableDeclarator => "VariableDeclarator"
  | returnStatement => "ReturnStatement"
  | ifStatement => "IfStatement"
  | forStatement => "ForStatement"
  | forInStatement .. => "ForInStatement"
  | whileStatement => "WhileStatement"
  | doWhileStatement => "DoWhileStatement"
  | switchStatement => "SwitchStatement"
  | switchCase => "SwitchCase"
  | tryStatement => "TryStatement"
  | catchClause => "CatchClause"
  | throwStatement => "ThrowStatement"
  | blockStatement => "BlockStatement"
  | labeledStatement => "LabeledStatement"
  | importDeclaration _ => "ImportDeclaration"
  | importSpecifier _ => "ImportSpecifier"
  | exportNamedDeclaration .. => "ExportNamedDeclaration"
  | exportSpecifier => "ExportSpecifier"
  | moduleExportName _ => "ModuleExportName"
  | exportDefaultDeclaration => "ExportDefaultDeclaration"
  | function .. => "Function"
  | arrowFunction _ => "ArrowFunction"
  | functionBody => "FunctionBody"
  | param .. => "Param"
  | classLike _ => "Class"
  | methodDefinition .. => "MethodDefinition"
  | propertyDefinition _ => "PropertyDefinition"
  | staticBlock => "StaticBlock"
  | stringLiteral _ => "StringLiteral"
  | templateLiteral => "TemplateLiteral"
  | numericLiteral _ => "NumericLiteral"
  | booleanLiteral _ => "BooleanLiteral"
  | nullLiteral => "NullLiteral"
  | otherLiteral _ => "OtherLiteral"
  | thisExpression => "ThisExpression"
  | arrayExpression => "ArrayExpression"
  | objectExpression => "ObjectExpression"
  | objectProperty .. => "ObjectProperty"
  | callExpression _ => "CallExpression"
  | newExpression => "NewExpression"
  | memberExpression _ => "MemberExpression"
  | unaryExpression _ => "UnaryExpression"
  | updateExpression .. => "UpdateExpression"
  | binaryExpression _ => "BinaryExpression"
  | logicalExpression _ => "LogicalExpression"
  | conditionalExpression => "ConditionalExpression"
  | assignmentExpression .. => "AssignmentExpression"
  | sequenceExpression => "SequenceExpression"
  | parenthesizedExpression => "ParenthesizedExpression"
  | awaitExpression => "AwaitExpression"
  | yieldExpression => "YieldExpression"
  | spreadElement => "SpreadElement"
  | asExpression => "TsAsExpression"
  | satisfiesExpression => "TsSatisfiesExpression"
  | nonNullExpression => "TsNonNullExpression"
  | objectPattern => "ObjectPattern"
  | bindingProperty _ => "BindingProperty"
  | arrayPattern _ => "ArrayPattern"
  | assignmentPattern => "AssignmentPattern"
  | restElement => "RestElement"
  | interfaceDeclaration => "TsInterfaceDeclaration"
  | typeAliasDeclaration => "TsTypeAliasDeclaration"
  | keywordType _ => "TsKeywordType"
  | typeReference => "TsTypeReference"
  | typeName _ => "TsTypeName"
  | arrayType => "TsArrayType"
  | tupleType => "TsTupleType"
  | typeLiteral => "TsTypeLiteral"
  | unionType => "TsUnionType"
  | intersectionType => "TsIntersectionType"
  | functionType _ => "TsFunctionType"
  | parenthesizedType => "TsParenthesizedType"
  | typeOperator _ => "TsTypeOperator"
  | optionalType => "TsOptionalType"
  | literalType _ => "TsLiteralType"
  | unreadType _ => "TsOpaqueType"
  | propertySignature .. => "TsPropertySignature"
  | methodSignature _ => "TsMethodSignature"
  | callSignature _ => "TsCallSignature"
  | indexSignature => "TsIndexSignature"
  | jsxElement _ => "JsxElement"
  | jsxFragment => "JsxFragment"
  | jsxOpeningElement => "JsxOpeningElement"
  | jsxIdentifier _ => "JsxIdentifier"
  | jsxNamespacedName .. => "JsxNamespacedName"
  | jsxMemberName _ => "JsxMemberName"
  | jsxAttribute => "JsxAttribute"
  | jsxSpreadAttribute => "JsxSpreadAttribute"
  | jsxExpressionContainer => "JsxExpressionContainer"
  | jsxText _ => "JsxText"
  | unknown _ => "Unknown"

/-- What a node is to the node that holds it. The keys of members and the properties of member
accesses come in three forms: plain, private and computed. -/
inductive Role
  | root
  | statement
  | expression
  | declarator
  | binding
  | type
  | initial
  | argument
  | test
  | consequent
  | alternate
  | update
  | body
  | left
  | right
  | discriminant
  | switchCase
  | block
  | handler
  | finalizer
  | param
  | label
  | specifier
  | source
  | localName
  | exported
  | declaration
  | name
  | returnType
  | pattern
  | superClass
  | member
  | key
  | privateKey
  | computedKey
  | value
  | element
  | property
  | callee
  | object
  | privateProperty
  | computedProperty
  | target
  | rest
  | base
  | typeArgument
  | opening
  | child
  | item
  deriving DecidableEq, Repr, Inhabited

end TsxLint
