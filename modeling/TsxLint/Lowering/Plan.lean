import TsxLint.Lowering.Step
import TsxLint.Text.Blank

/-!
# Plans for expressions, patterns, types and statements

What each concrete node becomes. Shapes that the typed tree has no place for become `unknown`
nodes, so every tree lowers. The plans stand in the order in which one falls back on another at
the same node: members, functions and classes, markup, expressions, patterns, targets, types,
statements.
-/

namespace TsxLint.Plan

open Step

/-! ### Names and keys -/

/-- The name that a concrete node binds. -/
def binder (role : Role) (c : Cst) : Step := leaf role (.bindingIdentifier c.text) c

/-- The name that a concrete node spells. -/
def spelled (role : Role) (c : Cst) : Step := leaf role (.identifierName c.text) c

/-- A string literal. -/
def string (role : Role) (c : Cst) : Step := leaf role (.stringLiteral (unquote c.text)) c

/-- The key of a member, in the form that the key node has. -/
def key (k : Kid) : Step :=
  match k.tree.kind with
  | "private_property_identifier" => spelled .privateKey k.tree
  | "string" => string .key k.tree
  | "number" => leaf .key (.numericLiteral k.tree.text) k.tree
  | "computed_property_name" => k.as .computedKey .computedKey
  | _ => spelled .key k.tree

/-- The key of a member, if there is one. -/
def keyOr (k : Option Kid) (parent : Cst) : Step :=
  match k with
  | some k => key k
  | none => unknown .computedKey parent

/-- The text of a key node that is not computed. -/
def keyText? (c : Cst) : Option String :=
  match c.kind with
  | "computed_property_name" => none
  | "string" => some (unquote c.text)
  | _ => some c.text

/-- The segments of a dotted name. -/
def segments (text : String) : List String := (Text.splitAt '.' text).map Text.trim

/-- The name of a type. -/
def typeName (role : Role) (c : Cst) : Step :=
  leaf role (.typeName ((segments c.text).filter (· != ""))) c

/-! ### Functions and classes -/

/-- A parameter that is a bare pattern. -/
def bareParam (role : Role) (k : Kid) : Step :=
  .node role (.param false false) k.tree.span [k.as .pattern .pattern]

/-- The parameters and the return type of a function or a function type. -/
def signatureParts (c : Cst) (returnType : Option Kid) : List Step :=
  maybe (c.field? "parameters") .param (.each .param) ++ maybe returnType .returnType .type

/-- A function, its name left out when it is a method. -/
def function (form : FunctionForm) (role : Role) (c : Cst) : Step :=
  let body := c.field? "body"
  let isGenerator := Text.contains c.kind "generator" ||
    match body with
    | some b => c.hasTokenBefore "*" b.tree.span.start
    | none => c.hasToken "*"
  let name := if form = .method then [] else ((c.field? "name").map fun k => binder .name k.tree).toList
  .node role (.function form (c.hasToken "async") isGenerator) c.span
    (name ++ signatureParts c (c.field? "return_type") ++ maybe body .body .functionBody)

/-- An arrow function. -/
def arrow (role : Role) (c : Cst) : Step :=
  let params :=
    match c.field? "parameter" with
    | some single => [bareParam .param single]
    | none => maybe (c.field? "parameters") .param (.each .param)
  let body :=
    match c.field? "body" with
    | some b =>
      if b.tree.kind = "statement_block" then b.as .body .functionBody
      else b.as .expression .expression
    | none => unknown .expression c
  .node role (.arrowFunction (c.hasToken "async")) c.span
    (params ++ maybe (c.field? "return_type") .returnType .type ++ [body])

/-- A class. -/
def classLike (isDeclaration : Bool) (role : Role) (c : Cst) : Step :=
  .node role (.classLike isDeclaration) c.span
    (((c.field? "name").map fun k => binder .name k.tree).toList ++
      maybe (c.namedOf? "class_heritage") .superClass .classHeritage ++
      maybe (c.field? "body") .member (.each .classMember))

/-- A member of a class. A method or field without a name uses up a number and is dropped. -/
def classMember (role : Role) (c : Cst) : Step :=
  match c.kind with
  | "method_definition" =>
    match c.field? "name" with
    | none => gap c
    | some name =>
      let start := name.tree.span.start
      let form : MethodForm :=
        if c.hasTokenBefore "get" start then .getter
        else if c.hasTokenBefore "set" start then .setter
        else if keyText? name.tree = some "constructor" then .constructor
        else .method
      .node role (.methodDefinition form (c.hasTokenBefore "static" start)) c.span
        [key name, function .method .value c]
  | "public_field_definition" | "field_definition" =>
    match (c.field? "name").or (c.field? "property") with
    | none => gap c
    | some name =>
      .node role (.propertyDefinition (c.hasTokenBefore "static" name.tree.span.start)) c.span
        (key name :: (maybe (c.field? "type") .type .type ++
          maybe (c.field? "value") .value .expression))
  | "class_static_block" =>
    .node role .staticBlock c.span
      (maybe ((c.field? "body").or c.firstNamed?) .statement (.each .statement))
  | _ => unknown role c

/-- A formal parameter; one named `this` is dropped. -/
def param (role : Role) (c : Cst) (barePattern : Step) : List Step :=
  match c.kind with
  | "required_parameter" | "optional_parameter" =>
    match (c.field? "pattern").or c.firstNamed? with
    | none => []
    | some p =>
      if p.tree.kind = "this" then []
      else
        let pattern :=
          match c.field? "value" with
          | some value =>
            .node .pattern .assignmentPattern ⟨p.tree.span.start, value.tree.span.stop⟩
              [p.as .left .pattern, value.as .right .expression]
          | none => p.as .pattern .pattern
        [.node role (.param (c.kind == "optional_parameter") (c.hasToken "readonly")) c.span
          (pattern :: maybe (c.field? "type") .type .type)]
  | "identifier" | "object_pattern" | "array_pattern" | "assignment_pattern" | "rest_pattern" =>
    [.node role (.param false false) c.span [barePattern]]
  | _ => []

/-! ### Markup -/

/-- The opening tag of an element. -/
def openingTag? (c : Cst) : Option Kid :=
  (c.field? "open_tag").or (c.kids.find? (·.tree.kind == "jsx_opening_element"))

/-- Whether a node is a fragment: of that kind, or an element whose opening tag has no name. -/
def isFragment (c : Cst) : Bool :=
  match c.kind with
  | "jsx_fragment" => true
  | "jsx_element" => (openingTag? c).any fun tag => (tag.tree.field? "name").isNone
  | _ => false

/-- A name with a namespace. -/
def namespacedName (role : Role) (c : Cst) : Step :=
  let parts :=
    match Text.cutAt? [':'] c.text.toList with
    | some (space, name) => (String.ofList space, String.ofList name)
    | none => ("", c.text)
  leaf role (.jsxNamespacedName (Text.trim parts.1) (Text.trim parts.2)) c

/-- The name of an element. -/
def elementName (role : Role) (c : Cst) : Step :=
  match c.kind with
  | "jsx_namespace_name" => namespacedName role c
  | "member_expression" | "nested_identifier" => leaf role (.jsxMemberName (segments c.text)) c
  | _ => leaf role (.jsxIdentifier c.text) c

/-- The opening of an element: its name and its attributes. -/
def opening (role : Role) (c : Cst) : Step :=
  let name :=
    match c.field? "name" with
    | some name => elementName .name name.tree
    | none => leaf .name (.jsxIdentifier "") c
  let items := c.named.filterMap fun k =>
    match k.tree.kind with
    | "jsx_attribute" => some (k.as .item .jsxAttribute)
    | "jsx_expression" => some (k.as .item .jsxSpread)
    | _ => none
  .node role .jsxOpeningElement c.span (name :: items)

/-- The children of an element; text that is blank is dropped. -/
def jsxChildren (c : Cst) : List Step :=
  c.named.filterMap fun k =>
    match k.tree.kind with
    | "jsx_text" | "html_character_reference" =>
      if Text.isBlankText k.tree.text then none
      else some (leaf .child (.jsxText k.tree.text) k.tree)
    | "jsx_expression" => some (k.as .child .jsxContainer)
    | "jsx_fragment" | "jsx_element" | "jsx_self_closing_element" => some (k.as .child .jsx)
    | _ => none

/-- An element or a fragment. -/
def jsx (role : Role) (c : Cst) : Step :=
  if isFragment c then .node role .jsxFragment c.span (jsxChildren c)
  else if c.kind = "jsx_self_closing_element" then
    .node role (.jsxElement true) c.span [opening .opening c]
  else
    .node role (.jsxElement false) c.span
      (orElse (openingTag? c) .opening .jsxOpening (opening .opening c) :: jsxChildren c)

/-- An attribute. -/
def jsxAttribute (role : Role) (c : Cst) : Step :=
  let name :=
    match c.named[0]? with
    | some name =>
      if name.tree.kind = "jsx_namespace_name" then namespacedName .name name.tree
      else leaf .name (.jsxIdentifier name.tree.text) name.tree
    | none => leaf .name (.jsxIdentifier "") c
  let value := (c.named[1]?).map fun value =>
    match value.tree.kind with
    | "string" => string .value value.tree
    | "jsx_expression" => value.as .value .jsxContainer
    | "jsx_fragment" | "jsx_element" | "jsx_self_closing_element" => value.as .value .jsx
    | _ =>
      .node .value .jsxExpressionContainer value.tree.span [value.as .expression .expression]
  .node role .jsxAttribute c.span (name :: value.toList)

/-- An attribute that spreads an object. -/
def jsxSpread (role : Role) (c : Cst) : Step :=
  let argument :=
    match c.firstNamed? with
    | some inner =>
      if inner.tree.kind = "spread_element" then inner.as .argument .spreadArgument
      else inner.as .argument .expression
    | none => unknown .argument c
  .node role .jsxSpreadAttribute c.span [argument]

/-! ### Expressions -/

/-- A member access. -/
def memberAccess (role : Role) (c : Cst) : Step :=
  let property :=
    if c.kind = "subscript_expression" then expression .computedProperty (c.field? "index") c
    else
      match c.field? "property" with
      | some property =>
        if property.tree.kind = "private_property_identifier" then
          spelled .privateProperty property.tree
        else spelled .property property.tree
      | none => leaf .property (.identifierName "") c
  .node role (.memberExpression (c.hasToken "optional_chain" || c.hasToken "?.")) c.span
    [expression .object (c.field? "object") c, property]

/-- A call. -/
def call (role : Role) (c : Cst) : Step :=
  let arguments :=
    match c.field? "arguments" with
    | some k =>
      if k.tree.kind = "template_string" then [k.as .argument .expression]
      else [k.as .argument (.each .expression)]
    | none => []
  .node role (.callExpression (c.hasToken "optional_chain" || c.hasToken "?.")) c.span
    (expression .callee (c.field? "function") c :: arguments)

/-- An operation on two operands. -/
def binary (role : Role) (c : Cst) : Step :=
  let operator := ((c.field? "operator").map (·.tree.text)).getD ""
  let kind :=
    match LogicalOperator.ofToken? operator with
    | some logical => .logicalExpression logical
    | none => .binaryExpression operator
  .node role kind c.span
    [expression .left (c.field? "left") c, expression .right (c.field? "right") c]

/-- An expression with a type beside it: `x as T`, `x satisfies T`, `<T>x`. -/
def typeWrapper (role : Role) (c : Cst) : Step :=
  let isAssertion := c.kind == "type_assertion"
  let inner := if isAssertion then c.named[1]? else c.named[0]?
  let type := if isAssertion then c.named[0]? else c.named[1]?
  let typeStep :=
    match type with
    | some k =>
      if k.tree.kind = "type_arguments" then k.as .type .firstType else k.as .type .type
    | none => unreadType .type c
  .node role (if c.kind = "satisfies_expression" then .satisfiesExpression else .asExpression)
    c.span [expression .expression inner c, typeStep]

mutual

/-- What the target of an assignment is. -/
def targetForm : Cst → TargetForm
  | ⟨kind, _, _, _, _, children⟩ =>
    match kind with
    | "identifier" | "undefined" => .identifier
    | "member_expression" | "subscript_expression" => .member
    | "object_pattern" | "array_pattern" | "object" | "array" => .pattern
    | "parenthesized_expression" | "non_null_expression" => innerTargetForm children
    | _ => .other

/-- What the first named child of a wrapped target is. -/
def innerTargetForm : List Cst → TargetForm
  | [] => .other
  | c :: cs => if c.isNamed && c.kind != "comment" then targetForm c else innerTargetForm cs

end

/-- An assignment. -/
def assignment (role : Role) (c : Cst) : Step :=
  let operator := ((c.field? "operator").map (·.tree.text)).getD "="
  let form := ((c.field? "left").map fun k => targetForm k.tree).getD .other
  .node role (.assignmentExpression operator form) c.span
    [orElse (c.field? "left") .target .target (unknown .target c),
      expression .right (c.field? "right") c]

/-- A node around the first named child. -/
def around (kind : Kind) (inner role : Role) (c : Cst) : Step :=
  .node role kind c.span [expression inner c.firstNamed? c]

/-- An expression. -/
def expr (role : Role) (c : Cst) : Step :=
  match c.kind with
  | "identifier" | "undefined" | "shorthand_property_identifier" =>
    leaf role (.identifierReference c.text) c
  | "this" => leaf role .thisExpression c
  | "string" => string role c
  | "template_string" =>
    .node role .templateLiteral c.span
      (many (c.named.filter (·.tree.kind == "template_substitution")) .expression .substitution)
  | "number" => leaf role (.numericLiteral c.text) c
  | "true" => leaf role (.booleanLiteral true) c
  | "false" => leaf role (.booleanLiteral false) c
  | "null" => leaf role .nullLiteral c
  | "regex" | "bigint" => leaf role (.otherLiteral c.text) c
  | "array" => .node role .arrayExpression c.span (many c.named .element .expression)
  | "object" => .node role .objectExpression c.span (many c.named .property .objectMember)
  | "function_expression" | "function" | "generator_function" => function .expression role c
  | "arrow_function" => arrow role c
  | "class" => classLike false role c
  | "call_expression" => call role c
  | "new_expression" =>
    .node role .newExpression c.span
      (expression .callee (c.field? "constructor") c ::
        maybe (c.field? "arguments") .argument (.each .expression))
  | "member_expression" | "subscript_expression" => memberAccess role c
  | "unary_expression" =>
    .node role (.unaryExpression (((c.field? "operator").map (·.tree.text)).getD "")) c.span
      [expression .argument (c.field? "argument") c]
  | "update_expression" =>
    let isLeading :=
      match c.field? "operator", c.field? "argument" with
      | some operator, some argument => decide (operator.tree.span.start < argument.tree.span.start)
      | _, _ => false
    .node role
      (.updateExpression (((c.field? "operator").map (·.tree.text)).getD "") isLeading) c.span
      [expression .argument (c.field? "argument") c]
  | "binary_expression" => binary role c
  | "ternary_expression" =>
    .node role .conditionalExpression c.span
      [expression .test (c.field? "condition") c,
        expression .consequent (c.field? "consequence") c,
        expression .alternate (c.field? "alternative") c]
  | "assignment_expression" | "augmented_assignment_expression" => assignment role c
  | "sequence_expression" =>
    .node role .sequenceExpression c.span (many c.named .expression .sequencePart)
  | "parenthesized_expression" => around .parenthesizedExpression .expression role c
  | "await_expression" => around .awaitExpression .argument role c
  | "yield_expression" =>
    .node role .yieldExpression c.span (maybe c.firstNamed? .argument .expression)
  | "spread_element" => around .spreadElement .argument role c
  | "as_expression" | "satisfies_expression" | "type_assertion" => typeWrapper role c
  | "non_null_expression" => around .nonNullExpression .expression role c
  | "instantiation_expression" => expression role c.firstNamed? c
  | "jsx_element" | "jsx_self_closing_element" | "jsx_fragment" => jsx role c
  | _ => unknown role c

/-- A member of an object expression. -/
def objectMember (role : Role) (c : Cst) : List Step :=
  match c.kind with
  | "pair" =>
    [.node role (.objectProperty false false) c.span
      [keyOr (c.field? "key") c, expression .value (c.field? "value") c]]
  | "shorthand_property_identifier" =>
    [.node role (.objectProperty true false) c.span
      [spelled .key c, leaf .value (.identifierReference c.text) c]]
  | "method_definition" =>
    [.node role (.objectProperty false true) c.span
      [keyOr (c.field? "name") c, function .method .value c]]
  | "spread_element" => [around .spreadElement .argument role c]
  | _ => []

/-! ### Patterns and targets -/

/-- Whether a node is a rest element of a pattern. -/
def isRest (c : Cst) : Bool := c.kind == "rest_pattern" || c.kind == "spread_element"

/-- A rest element. -/
def rest (role : Role) (c : Cst) : Step :=
  .node role .restElement c.span [orElse c.firstNamed? .argument .pattern (unknown .argument c)]

/-- Steps for the members of a pattern, of which only the last rest element is kept. -/
def keepLastRest (other : Kid → Step) : List Kid → List Step
  | [] => []
  | k :: ks =>
    let step :=
      if isRest k.tree then
        if ks.any fun later => isRest later.tree then .lost [k.as .rest .rest]
        else k.as .rest .rest
      else other k
    step :: keepLastRest other ks

/-- What a child of an array pattern stands for. -/
inductive ArrayItem
  | hole
  | element (k : Kid)
  | rest (k : Kid)

/-- The items of an array pattern. A comma where an element is expected leaves a hole. -/
def arrayItems (expecting : Bool) : List Kid → List ArrayItem
  | [] => []
  | k :: ks =>
    match k.tree.kind with
    | "[" | "]" | "comment" => arrayItems expecting ks
    | "," => if expecting then .hole :: arrayItems true ks else arrayItems true ks
    | "rest_pattern" | "spread_element" => .rest k :: arrayItems false ks
    | _ => if k.tree.isNamed then .element k :: arrayItems false ks else arrayItems expecting ks

/-- The slots that the items of an array pattern fill; holes stay empty. -/
def itemSlots (items : List ArrayItem) : List Bool :=
  items.filterMap fun
    | .hole => some false
    | .element _ => some true
    | .rest _ => none

/-- The children that the items of an array pattern lower. -/
def itemKids (items : List ArrayItem) : List Kid :=
  items.filterMap fun
    | .hole => none
    | .element k => some k
    | .rest k => some k

/-- An array pattern. -/
def arrayPattern (role : Role) (c : Cst) : Step :=
  let items := arrayItems true c.kids
  .node role (.arrayPattern (itemSlots items)) c.span
    (keepLastRest (fun k => k.as .element .pattern) (itemKids items))

/-- An object pattern. -/
def objectPattern (role : Role) (c : Cst) : Step :=
  .node role .objectPattern c.span (keepLastRest (fun k => k.as .property .patternMember) c.named)

/-- A pattern with a default. -/
def assignmentPattern (role : Role) (c : Cst) : Step :=
  .node role .assignmentPattern c.span
    [orElse (c.field? "left") .left .pattern (unknown .left c),
      expression .right (c.field? "right") c]

/-- A pattern that binds names or takes part in a destructuring assignment. -/
def pattern (role : Role) (c : Cst) : Step :=
  match c.kind with
  | "identifier" | "shorthand_property_identifier_pattern" | "undefined" => binder role c
  | "object_pattern" | "object" => objectPattern role c
  | "array_pattern" | "array" => arrayPattern role c
  | "assignment_pattern" | "object_assignment_pattern" => assignmentPattern role c
  | "rest_pattern" | "spread_element" => rest role c
  | "parenthesized_expression" => orElse c.firstNamed? role .pattern (unknown role c)
  | _ => expr role c

/-- A member of an object pattern. -/
def patternMember (role : Role) (c : Cst) : List Step :=
  match c.kind with
  | "pair_pattern" | "pair" =>
    [.node role (.bindingProperty false) c.span
      [keyOr (c.field? "key") c, orElse (c.field? "value") .value .pattern (unknown .value c)]]
  | "shorthand_property_identifier_pattern" | "shorthand_property_identifier" =>
    [.node role (.bindingProperty true) c.span [spelled .key c, binder .value c]]
  | "object_assignment_pattern" =>
    let key :=
      match c.field? "left" with
      | some left => spelled .key left.tree
      | none => unknown .computedKey c
    [.node role (.bindingProperty true) c.span [key, assignmentPattern .value c]]
  | _ => []

/-- The target of an assignment or a loop. -/
def target (role : Role) (c : Cst) : Step :=
  match c.kind with
  | "identifier" | "undefined" => leaf role (.identifierReference c.text) c
  | "member_expression" | "subscript_expression" => memberAccess role c
  | "object_pattern" | "array_pattern" | "object" | "array" => pattern role c
  | "parenthesized_expression" | "non_null_expression" =>
    orElse c.firstNamed? role .target (unknown role c)
  | _ => expr role c

/-! ### Types -/

/-- A type that is a keyword. -/
def keywordType (keyword : TypeKeyword) (role : Role) (c : Cst) : Step :=
  leaf role (.keywordType keyword) c

/-- A node around the type that is the first named child. -/
def aroundType (kind : Kind) (inner role : Role) (c : Cst) : Step :=
  .node role kind c.span [typeOr inner c.firstNamed? c]

/-- A type that is a literal. -/
def literalType (role : Role) (c : Cst) : Step :=
  match c.firstNamed? with
  | none => unreadType role c
  | some inner =>
    match inner.tree.kind with
    | "undefined" => keywordType .undefined role c
    | "null" => keywordType .null role c
    | "true" => leaf role (.literalType (.boolean true)) c
    | "false" => leaf role (.literalType (.boolean false)) c
    | "string" => leaf role (.literalType (.string (unquote inner.tree.text))) c
    | "number" | "unary_expression" => leaf role (.literalType (.number inner.tree.text)) c
    | "template_string" => leaf role (.literalType .template) c
    | _ => unreadType role c

/-- A type. -/
def type (role : Role) (c : Cst) : Step :=
  match c.kind with
  | "type_annotation" | "opting_type_annotation" | "omitting_type_annotation" =>
    typeOr role c.firstNamed? c
  | "predefined_type" =>
    match TypeKeyword.ofName? (Text.trim c.text) with
    | some keyword => keywordType keyword role c
    | none => unreadType role c
  | "type_predicate" | "type_predicate_annotation" | "asserts_annotation" =>
    keywordType .boolean role c
  | "type_identifier" | "nested_type_identifier" | "identifier" =>
    .node role .typeReference c.span [typeName .name c]
  | "generic_type" =>
    let name :=
      match (c.field? "name").or c.firstNamed? with
      | some name => typeName .name name.tree
      | none => typeName .name c
    .node role .typeReference c.span
      (name :: maybe (c.field? "type_arguments") .typeArgument (.each .type))
  | "array_type" => aroundType .arrayType .element role c
  | "tuple_type" => .node role .tupleType c.span (many c.named .element .tupleElement)
  | "object_type" => .node role .typeLiteral c.span (many c.named .member .signature)
  | "union_type" => .node role .unionType c.span (many c.named .element .unionPart)
  | "intersection_type" =>
    .node role .intersectionType c.span (many c.named .element .intersectionPart)
  | "function_type" =>
    .node role (.functionType false) c.span
      (signatureParts c ((c.field? "return_type").or (c.field? "type")))
  | "constructor_type" =>
    .node role (.functionType true) c.span
      (signatureParts c ((c.field? "return_type").or (c.field? "type")))
  | "parenthesized_type" => aroundType .parenthesizedType .type role c
  | "readonly_type" => aroundType (.typeOperator .readonly) .type role c
  | "index_type_query" => aroundType (.typeOperator .keyof) .type role c
  | "optional_type" | "rest_type" => aroundType .optionalType .type role c
  | "literal_type" => literalType role c
  | "template_literal_type" => leaf role (.literalType .template) c
  | "undefined" => keywordType .undefined role c
  | "null" => keywordType .null role c
  | _ => unreadType role c

/-- An element of a tuple type, its name left out. -/
def tupleElement (role : Role) (c : Cst) : Step :=
  match c.kind with
  | "tuple_parameter" | "optional_tuple_parameter" | "required_parameter" | "optional_parameter" =>
    typeOr role (c.field? "type") c
  | _ => type role c

/-- A member of an interface or an object type. -/
def signature (role : Role) (c : Cst) : List Step :=
  match c.kind with
  | "property_signature" =>
    [.node role (.propertySignature (c.hasToken "?") (c.hasToken "readonly")) c.span
      (keyOr (c.field? "name") c :: maybe (c.field? "type") .type .type)]
  | "method_signature" =>
    [.node role (.methodSignature (c.hasToken "?")) c.span
      (keyOr (c.field? "name") c :: signatureParts c (c.field? "return_type"))]
  | "call_signature" =>
    [.node role (.callSignature false) c.span
      (signatureParts c ((c.field? "return_type").or (c.field? "type")))]
  | "construct_signature" =>
    [.node role (.callSignature true) c.span
      (signatureParts c ((c.field? "return_type").or (c.field? "type")))]
  | "index_signature" =>
    [.node role .indexSignature c.span (maybe (c.field? "type") .type .type)]
  | _ => []

/-! ### Statements -/

/-- A block. -/
def block (role : Role) (c : Cst) : Step :=
  .node role .blockStatement c.span (many c.named .statement .statement)

/-- The keyword of a variable declaration. -/
def variableKind (word : String) : VariableKind :=
  match word with
  | "let" => .letVar
  | "var" => .var
  | _ => .constVar

/-- A variable declaration. -/
def declaration (role : Role) (c : Cst) : Step :=
  let keyword :=
    if c.kind = "variable_declaration" then .var
    else
      variableKind ((((c.field? "kind").map (·.tree.text)).or (c.children.head?.map (·.text))).getD "")
  .node role (.variableDeclaration keyword) c.span
    (many (c.named.filter (·.tree.kind == "variable_declarator")) .declarator .declarator)

/-- A statement slot, or a mark that it is missing. -/
def slot (role : Role) (k : Option Kid) (parent : Cst) : Step :=
  orElse k role .statement (unknown role parent)

/-- The test of a condition, its parentheses left out. -/
def condition (role : Role) (c : Cst) : Step :=
  if c.kind = "parenthesized_expression" then expression role c.firstNamed? c else expr role c

/-- A test slot, or a mark that it is missing. -/
def conditionOr (role : Role) (k : Option Kid) (parent : Cst) : Step :=
  orElse k role .condition (unknown role parent)

/-- A loop over the members of a value. -/
def forIn (role : Role) (c : Cst) : Step :=
  let loop : LoopKind :=
    match c.field? "operator" with
    | some operator => if operator.tree.text = "in" then .overKeys else .overValues
    | none => if c.hasToken "in" then .overKeys else .overValues
  let keyword := (c.field? "kind").map fun k => variableKind k.tree.text
  let head : LoopHead × Step :=
    match c.field? "left", keyword with
    | some left, some keyword => (.declares keyword, left.as .left .pattern)
    | some left, none => (.assigns (targetForm left.tree), left.as .left .target)
    | none, _ => (.assigns .other, unknown .left c)
  .node role (.forInStatement loop (c.hasToken "await") head.1) c.span
    [head.2, expression .right (c.field? "right") c, slot .body (c.field? "body") c]

/-- A block slot, or an empty block at the parent. -/
def blockOr (role : Role) (k : Option Kid) (parent : Cst) : Step :=
  orElse k role .block (leaf role .blockStatement parent)

/-- The module that an import or export names. -/
def moduleSource (k : Option Kid) (parent : Cst) : Step :=
  match k with
  | some k => string .source k.tree
  | none => leaf .source (.stringLiteral "") parent

/-- A default export. -/
def exportDefault (role : Role) (c : Cst) : Step :=
  let declared :=
    match (c.field? "declaration").or (c.field? "value") with
    | some k =>
      match k.tree.kind with
      | "function_declaration" | "generator_function_declaration" =>
        k.as .declaration (.function .declaration)
      | "function_expression" | "function" | "generator_function" =>
        k.as .declaration (.function .expression)
      | "class_declaration" | "abstract_class_declaration" => k.as .declaration (.classLike true)
      | "class" => k.as .declaration (.classLike false)
      | _ => k.as .expression .expression
    | none => unknown .expression c
  .node role .exportDefaultDeclaration c.span [declared]

/-- An export of declarations or names. -/
def exportNamed (role : Role) (c : Cst) : Step :=
  let exportAll := c.hasToken "*" || (c.namedOf? "namespace_export").isSome
  .node role (.exportNamedDeclaration exportAll (c.hasToken "type")) c.span
    (maybe (c.field? "declaration") .declaration .statement ++
      maybe (c.namedOf? "export_clause") .specifier .exportClause ++
      ((c.field? "source").map fun k => string .source k.tree).toList)

/-- A statement. -/
def statement (role : Role) (c : Cst) : List Step :=
  match c.kind with
  | "expression_statement" => [around .expressionStatement .expression role c]
  | "lexical_declaration" | "variable_declaration" => [declaration role c]
  | "function_declaration" | "generator_function_declaration" => [function .declaration role c]
  | "class_declaration" | "abstract_class_declaration" => [classLike true role c]
  | "return_statement" =>
    [.node role .returnStatement c.span (maybe c.firstNamed? .argument .expression)]
  | "if_statement" =>
    [.node role .ifStatement c.span
      ([conditionOr .test (c.field? "condition") c, slot .consequent (c.field? "consequence") c] ++
        maybe (c.field? "alternative") .alternate .elseBranch)]
  | "for_statement" =>
    [.node role .forStatement c.span
      (maybe (c.field? "initializer") .initial .loopInit ++
        maybe (c.field? "condition") .test .loopTest ++
        maybe (c.field? "increment") .update .expression ++ [slot .body (c.field? "body") c])]
  | "for_in_statement" => [forIn role c]
  | "while_statement" =>
    [.node role .whileStatement c.span
      [conditionOr .test (c.field? "condition") c, slot .body (c.field? "body") c]]
  | "do_statement" =>
    [.node role .doWhileStatement c.span
      [slot .body (c.field? "body") c, conditionOr .test (c.field? "condition") c]]
  | "switch_statement" =>
    [.node role .switchStatement c.span
      (conditionOr .discriminant (c.field? "value") c ::
        maybe (c.field? "body") .switchCase .switchBody)]
  | "try_statement" =>
    [.node role .tryStatement c.span
      (blockOr .block (c.field? "body") c ::
        (maybe (c.field? "handler") .handler .catchClause ++
          maybe (c.field? "finalizer") .finalizer .finallyClause))]
  | "throw_statement" => [around .throwStatement .argument role c]
  | "statement_block" => [block role c]
  | "labeled_statement" =>
    let label :=
      match (c.field? "label").or c.firstNamed? with
      | some label => spelled .label label.tree
      | none => leaf .label (.identifierName "") c
    [.node role .labeledStatement c.span [label, slot .body (c.field? "body") c]]
  | "import_statement" =>
    [.node role (.importDeclaration (c.hasToken "type")) c.span
      (maybe (c.namedOf? "import_clause") .specifier .importClause ++
        [moduleSource (c.field? "source") c])]
  | "export_statement" =>
    if c.hasToken "default" then [exportDefault role c] else [exportNamed role c]
  | "interface_declaration" =>
    match c.field? "name" with
    | none => [gap c, unknown role c]
    | some name =>
      let bases := c.named.find? fun k =>
        k.tree.kind == "extends_type_clause" || k.tree.kind == "extends_clause"
      [.node role .interfaceDeclaration c.span
        (binder .name name.tree ::
          (maybe bases .base (.each .type) ++ maybe (c.field? "body") .member (.each .signature)))]
  | "type_alias_declaration" =>
    match c.field? "name", c.field? "value" with
    | some name, some value =>
      [.node role .typeAliasDeclaration c.span [binder .name name.tree, value.as .type .type]]
    | _, _ => [gap c, unknown role c]
  | "ambient_declaration" =>
    match c.firstNamed? with
    | some inner =>
      if inner.tree.kind = "statement_block" then [unknown role c] else [inner.as role .statement]
    | none => [unknown role c]
  | _ => [unknown role c]

/-- An import or export specifier around the name it binds here. -/
def specifier (role : Role) (imported : ImportedName) (span : Span) (binding : Cst) : Step :=
  .node role (.importSpecifier imported) span [binder .localName binding]

/-- The names that an import clause binds. -/
def importClause (role : Role) (c : Cst) : List Step :=
  c.named.filterMap fun k =>
    match k.tree.kind with
    | "identifier" => some (specifier role .default k.tree.span k.tree)
    | "namespace_import" => some (k.as role .wholeImport)
    | "named_imports" => some (k.as role .namedImports)
    | _ => none

/-- A name in an export clause. -/
def exportName (role : Role) (c : Cst) : Step := leaf role (.moduleExportName (unquote c.text)) c

/-- The steps for a concrete node and a goal. -/
def steps : Goal → Role → Cst → List Step
  | .statement, role, c => statement role c
  | .expression, role, c => [expr role c]
  | .pattern, role, c => [pattern role c]
  | .target, role, c => [target role c]
  | .type, role, c => [type role c]
  | .each goal, role, c => many c.named role goal
  | .condition, role, c => [condition role c]
  | .elseBranch, role, c =>
    if c.kind = "else_clause" then [slot role c.firstNamed? c] else statement role c
  | .loopInit, role, c =>
    match c.kind with
    | "lexical_declaration" | "variable_declaration" => [declaration role c]
    | "empty_statement" => []
    | "expression_statement" => maybe c.firstNamed? role .expression
    | _ => [expr role c]
  | .loopTest, role, c =>
    match c.kind with
    | "empty_statement" => []
    | "expression_statement" => maybe c.firstNamed? role .expression
    | _ => [expr role c]
  | .block, role, c => [block role c]
  | .functionBody, role, c =>
    [.node role .functionBody c.span (many c.named .statement .statement)]
  | .function form, role, c => [function form role c]
  | .classLike isDeclaration, role, c => [classLike isDeclaration role c]
  | .param, role, c => param role c (pattern .pattern c)
  | .computedKey, role, c => [expression role c.firstNamed? c]
  | .substitution, role, c => maybe c.firstNamed? role .expression
  | .sequencePart, role, c =>
    if c.kind = "sequence_expression" then many c.named role .sequencePart else [expr role c]
  | .unionPart, role, c =>
    if c.kind = "union_type" then many c.named role .unionPart else [type role c]
  | .intersectionPart, role, c =>
    if c.kind = "intersection_type" then many c.named role .intersectionPart else [type role c]
  | .tupleElement, role, c => [tupleElement role c]
  | .firstType, role, c => [typeOr role c.firstNamed? c]
  | .signature, role, c => signature role c
  | .objectMember, role, c => objectMember role c
  | .patternMember, role, c => patternMember role c
  | .rest, role, c => [rest role c]
  | .switchBody, role, c =>
    many (c.named.filter fun k => k.tree.kind == "switch_case" || k.tree.kind == "switch_default")
      role .switchCase
  | .switchCase, role, c =>
    let value := c.field? "value"
    [.node role .switchCase c.span
      (maybe value .test .expression ++
        many (c.named.filter fun k => value.all fun v => !k.tree.sameNode v.tree)
          .statement .statement)]
  | .catchClause, role, c =>
    [.node role .catchClause c.span
      (maybe (c.field? "parameter") .param .pattern ++ [blockOr .body (c.field? "body") c])]
  | .finallyClause, role, c => [blockOr role ((c.field? "body").or c.firstNamed?) c]
  | .classHeritage, role, c => maybe (c.namedOf? "extends_clause") role .extendsValue
  | .extendsValue, role, c => maybe ((c.field? "value").or c.firstNamed?) role .expression
  | .classMember, role, c => [classMember role c]
  | .declarator, role, c =>
    [.node role .variableDeclarator c.span
      (orElse (c.field? "name") .binding .pattern (unknown .binding c) ::
        (maybe (c.field? "type") .type .type ++ maybe (c.field? "value") .initial .expression))]
  | .importClause, role, c => importClause role c
  | .wholeImport, role, c =>
    (c.firstNamed?.map fun k => specifier role .whole c.span k.tree).toList
  | .namedImports, role, c =>
    many (c.named.filter (·.tree.kind == "import_specifier")) role .importSpecifier
  | .importSpecifier, role, c =>
    ((c.field? "name").map fun imported =>
      specifier role (.named (unquote imported.tree.text)) c.span
        ((c.field? "alias").getD imported).tree).toList
  | .exportClause, role, c =>
    many (c.named.filter (·.tree.kind == "export_specifier")) role .exportSpecifier
  | .exportSpecifier, role, c =>
    ((c.field? "name").map fun localName =>
      .node role .exportSpecifier c.span
        (exportName .localName localName.tree ::
          ((c.field? "alias").map fun renamed => exportName .exported renamed.tree).toList)).toList
  | .jsx, role, c => [jsx role c]
  | .jsxOpening, role, c => [opening role c]
  | .jsxAttribute, role, c => [jsxAttribute role c]
  | .jsxSpread, role, c => [jsxSpread role c]
  | .jsxContainer, role, c =>
    [.node role .jsxExpressionContainer c.span (maybe c.firstNamed? .expression .expression)]
  | .spreadArgument, role, c => [expression role c.firstNamed? c]

end TsxLint.Plan
