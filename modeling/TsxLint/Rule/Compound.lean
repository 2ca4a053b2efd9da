import TsxLint.Component.Function
import TsxLint.Path
import TsxLint.Rule.PropName

/-!
# Compound components

A compound family is a root component and its parts. Markup names a part by its family,
`<Dialog.Trigger />`. The module of a family, whose name the file name suggests, exports its root as
`Root` and each part under the name of the part, and it bundles no parts into an object. Exports are
judged once all of them are known.

## Main definitions

* `LocalExport`, `CompoundExport.localExports`: names that leave a module.
* `CompoundExport.partAliases`, `CompoundExport.rootAlias`: what is asked of a family's exports.
* `jsxBemCompoundNaming`, `jsxCompoundPartExportNaming`: the rules.
-/

namespace TsxLint

open Template (hole)

/-- The elements named after a family and one of its parts in one word. -/
def CompoundMarkup.check : Check := fun s =>
  s.nodes.filterMap fun n =>
    match n.kind with
    | .jsxOpeningElement => do
      let name ← n.plainName?
      let (block, part) ← Naming.compoundParts name.label
      pure ⟨name.span, "preferMemberSyntax",
        [("name", name.label), ("block", block), ("part", part)]⟩
    | _ => none

/-- Asks for dotted names of the parts of a family. -/
def jsxBemCompoundNaming : Rule where
  name := "jsx-bem-compound-naming"
  category := .react
  description := "Prefer compound component member syntax in JSX (for example <Dialog.Trigger /> over <DialogTrigger />)."
  messages :=
    [("preferMemberSyntax", "Use compound member syntax for '" ++ hole "name" ++
      "'. Prefer '<" ++ hole "block" ++ "." ++ hole "part" ++ " />' over '<" ++ hole "name" ++
      " />'.")]
  configure := withoutOptions CompoundMarkup.check

/-- A local name that leaves the module under a public one, which is written at `span`. -/
structure LocalExport where
  localName : String
  exported : String
  span : Span
  deriving DecidableEq, Repr

namespace CompoundExport

/-- Whether an initial value is an object with an entry that is named like a part. -/
def hasPartEntry (initial : Node) : Bool :=
  match initial.unwrapped.kind with
  | .objectExpression =>
    (initial.unwrapped.all .property).any fun property =>
      match property.kind with
      | .objectProperty .. => property.keyName?.any Naming.commonPartNames.contains
      | _ => false
  | _ => false

/-- Whether a declarator bundles parts into an object. -/
def isPartObject (declarator : Node) : Bool :=
  declarator.boundName?.any (fun name => Naming.startsUppercase name.label) &&
    (declarator.get? .initial).any hasPartEntry

/-- A name that is exported as it is. -/
def unchanged (name : Node) : LocalExport := ⟨name.label, name.label, name.span⟩

/-- Whether an export makes values of this module known. -/
def isLocal (n : Node) : Bool :=
  match n.kind with
  | .exportNamedDeclaration _ typeOnly => !typeOnly && (n.get? .source).isNone
  | _ => false

/-- The declarators of the variables that an export declares. -/
def declarators (n : Node) : List Node :=
  match n.get? .declaration with
  | some declaration =>
    match declaration.kind with
    | .variableDeclaration _ => declaration.all .declarator
    | _ => []
  | none => []

/-- The function that an export declares. -/
def declaredFunction? (n : Node) : Option Node :=
  (n.get? .declaration).filter fun declaration =>
    match declaration.kind with
    | .function .. => true
    | _ => false

/-- The export that a specifier asks for. -/
def ofSpecifier (specifier : Node) : LocalExport :=
  let name := (specifier.get? .exported).or (specifier.get? .localName)
  ⟨(specifier.nameAt? .localName).getD "", specifier.exportedName,
    (name.map Node.span).getD specifier.span⟩

/-- The local names that an export statement makes known; objects of parts are left out. -/
def localExports (n : Node) : List LocalExport :=
  if isLocal n then
    ((declarators n).filter fun d => !isPartObject d).filterMap (·.boundName?.map unchanged) ++
      (((declaredFunction? n).bind (·.get? .name)).map unchanged).toList ++
      (n.all .specifier).map ofSpecifier
  else []

/-- The objects of parts that an export statement declares. -/
def partObjects (n : Node) : List Diagnostic :=
  if isLocal n then
    (((declarators n).filter isPartObject).filterMap Node.boundName?).map fun name =>
      ⟨name.span, "noRuntimeObjectExport", [("name", name.label)]⟩
  else []

/-- The family that the name of a file suggests. -/
def family? (path : String) : Option String :=
  ((Path.stem? path).map Naming.pascalFromFileStem).filter Naming.startsUppercase

/-- The part of a family that a local name stands for. -/
def part? (block name : String) : Option String :=
  (Text.stripStart? name block).filter Naming.commonPartNames.contains

/-- The exports of the parts of a family, each with its part. -/
def partExports (block : String) (exports : List LocalExport) : List (LocalExport × String) :=
  exports.filterMap fun e => (part? block e.localName).map fun part => (e, part)

/-- The first element with each key. -/
def firstByKey {α : Type} (key : α → String) (items : List α) : List α :=
  items.foldl (fun kept a => if kept.any fun b => key b == key a then kept else kept ++ [a]) []

/-- The parts that are exported, but never under their own name. -/
def partAliases (block : String) (exports : List LocalExport) : List Diagnostic :=
  ((firstByKey (·.1.localName) (partExports block exports)).filter fun (e, part) =>
    !exports.any fun other => other.localName == e.localName && other.exported == part).map
      fun (e, part) =>
        ⟨e.span, "requirePartAlias",
          [("local", e.localName), ("part", part), ("block", block)]⟩

/-- What is wrong with the export of the root of a family that exports parts. -/
def rootAlias (block : String) (exports : List LocalExport) : Option Diagnostic := do
  let (first, _) ← (partExports block exports).head?
  match exports.filter (·.localName == block) with
  | [] => some ⟨first.span, "requireRootExport", [("block", block)]⟩
  | root :: others =>
    if (root :: others).any (·.exported == "Root") then none
    else some ⟨root.span, "requireRootAlias", [("block", block)]⟩

/-- The findings about the exports of a file. -/
def check : Check := fun s =>
  let exports := s.nodes.flatMap localExports
  let family :=
    match family? s.path with
    | some block => partAliases block exports ++ (rootAlias block exports).toList
    | none => []
  byStart (s.nodes.flatMap partObjects ++ family)

end CompoundExport

/-- Settles the names under which a family exports its parts. -/
def jsxCompoundPartExportNaming : Rule where
  name := "jsx-compound-part-export-naming"
  category := .react
  description := "Enforce compound part export aliasing (export \x7b DialogTrigger as Trigger \x7d) and disallow runtime object exports."
  messages :=
    [("requirePartAlias", "Export compound part '" ++ hole "local" ++ "' as '" ++ hole "part" ++
      "' (export \x7b " ++ hole "local" ++ " as " ++ hole "part" ++ " \x7d)."),
      ("requireRootAlias", "Export compound root '" ++ hole "block" ++
        "' as 'Root' (export \x7b " ++ hole "block" ++ " as Root \x7d)."),
      ("requireRootExport", "Compound parts of '" ++ hole "block" ++
        "' are exported without a root. Export it as 'Root' (export \x7b " ++ hole "block" ++
        " as Root \x7d)."),
      ("noRuntimeObjectExport", "Avoid exporting runtime object '" ++ hole "name" ++
        "' for compound APIs. Export parts with aliases instead (for example export \x7b " ++
        hole "name" ++ "Trigger as Trigger \x7d).")]
  configure := withoutOptions CompoundExport.check

end TsxLint
