import TsxLint.Naming.Vocabulary
import TsxLint.Rule.HelperName

/-!
# Hooks

Rules about functions named `use*`: they call a hook, they return no markup, and the hooks that read
a context stay inside their module.
-/

namespace TsxLint

open Template (hole)

/-- Whether a name is that of a hook, built in or not. -/
def isHookCallee (name : String) : Bool :=
  Naming.hookNames.contains name || Naming.isHookName name

/-- The hooks that call no hook. -/
def UselessHook.check : Check := fun s =>
  s.reportFunctions "noUselessHook" fun f =>
    Naming.isHookName f.name &&
      !f.body?.any (·.calls fun callee => callee.calleeName?.any isHookCallee)

/-- Refuses hooks that call no hook. -/
def noUselessHook : Rule where
  name := "no-useless-hook"
  category := .react
  description := "Disallow use* functions that do not call any React hook (useState, useEffect, useReducer, useRef, useContext)"
  messages :=
    [("noUselessHook", "Function '" ++ hole "name" ++
      "' is named like a hook but does not call React hooks.")]
  configure := withoutOptions UselessHook.check

/-- The hooks that return markup, wherever it stands in the returned value. -/
def HookMarkup.check : Check := fun s =>
  s.reportFunctions "noHookJsx" fun f =>
    Naming.isHookName f.name && f.body?.any fun body => body.returned.any Node.containsJsx

/-- Refuses hooks that return markup. -/
def noHookJsx : Rule where
  name := "no-hook-jsx"
  category := .react
  description := "Disallow use* functions that return JSX. Hooks should return values, not components."
  messages :=
    [("noHookJsx", "Function '" ++ hole "name" ++
      "' is named like a hook but returns JSX. Hooks should return data, not render. Use a component instead.")]
  configure := withoutOptions HookMarkup.check

namespace ContextHook

/-- Whether a name is `use`, something, and `Context`. -/
def isContextHook (name : String) : Bool :=
  Text.startsWith name "use" && Text.endsWith name "Context" && 10 < name.utf8ByteSize

/-- The name of a function declaration, to be reported at the whole of it. -/
def functionName (function : Node) : List (String × Span) :=
  ((function.nameAt? .name).map fun name => (name, function.span)).toList

/-- The names that a node exports, with the span to report each at. -/
def exportedNames (n : Node) : List (String × Span) :=
  match n.kind with
  | .exportNamedDeclaration .. =>
    match n.get? .declaration with
    | some declaration =>
      match declaration.kind with
      | .function .. => functionName declaration
      | .variableDeclaration _ =>
        ((declaration.all .declarator).filterMap Node.boundName?).map fun name =>
          (name.label, name.span)
      | _ => []
    | none =>
      ((n.all .specifier).filterMap (·.get? .localName)).map fun name => (name.label, name.span)
  | .exportDefaultDeclaration =>
    let identifier := ((n.get? .expression).bind Node.asIdentifier?).toList.map fun name =>
      (name.label, name.span)
    let function := (n.get? .declaration).toList.flatMap fun declaration =>
      if declaration.isFunctionLike then functionName declaration else []
    identifier ++ function
  | _ => []

/-- The exported context hooks. -/
def check : Check := fun s =>
  ((s.nodes.flatMap exportedNames).filter fun (name, _) => isContextHook name).map
    fun (name, span) => ⟨span, "noExportedContextHook", [("name", name)]⟩

end ContextHook

/-- Keeps context hooks inside their module. -/
def noExportedContextHooks : Rule where
  name := "no-exported-context-hooks"
  category := .react
  description := "Disallow exporting use*Context hooks. Keep context hooks private to the component module."
  messages :=
    [("noExportedContextHook", "Do not export context hook '" ++ hole "name" ++
      "'. Keep it private and expose a controlled API instead.")]
  configure := withoutOptions ContextHook.check

end TsxLint
