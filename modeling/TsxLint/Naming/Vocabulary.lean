import TsxLint.Text.Blank
import TsxLint.Text.Case

/-!
# Vocabularies

The words that handler names are read with, and how a vocabulary is extended. A merged vocabulary
is in lower case, has no repetitions and lists longer words first, so that a scan tries the most
specific word before its stems.
-/

namespace TsxLint.Naming

/-- Verbs that an `on*` handler name may end with. -/
def handlerVerbs : List String :=
  ["abort", "access", "activate", "add", "blur", "cancel", "change", "clear", "click", "close",
    "collapse", "complete", "connect", "copy", "create", "deactivate", "delete", "disable",
    "dismiss", "drag", "drop", "edit", "enable", "end", "error", "expand", "finish", "focus",
    "generate", "get", "hide", "hover", "input", "install", "keydown", "keyup", "load", "mount",
    "move", "open", "paste", "pause", "persist", "play", "press", "progress", "query", "ready",
    "remove", "rename", "request", "reset", "resize", "retry", "revalidate", "revert", "save",
    "scroll", "seek", "select", "show", "skip", "start", "submit", "success", "track", "undo",
    "update", "upgrade", "upload", "validate", "wheel"]

/-- Past-tense forms accepted after a noun. -/
def pastTenseVerbs : List String :=
  ["activated", "checked", "collapsed", "created", "deactivated", "deleted", "disabled",
    "enabled", "expanded", "hidden", "loaded", "moved", "resized", "saved", "shown", "updated",
    "validated"]

/-- Nouns of user interfaces that may lead a noun-verb handler name. -/
def handlerNouns : List String :=
  ["accordion", "action", "animation", "attempt", "audio", "autoscroll", "backspace",
    "buffering", "button", "callback", "cell", "color", "column", "commit", "content", "date",
    "dialog", "document", "down", "drawer", "dropdown", "editor", "enter", "escape", "event",
    "feature", "field", "file", "filter", "folder", "form", "icon", "input", "item", "label",
    "limit", "limits", "link", "menu", "modal", "mode", "name", "note", "notification", "option",
    "options", "order", "overlay", "page", "panel", "player", "popover", "portal", "prompt",
    "range", "resource", "route", "row", "section", "selection", "sidebar", "sort", "status",
    "step", "stream", "suggestion", "tab", "text", "theme", "time", "title", "toast", "toggle",
    "tooltip", "trigger", "up", "user", "users", "value", "view", "viewport", "word"]

/-- The built-in hooks. -/
def hookNames : List String :=
  ["useState", "useEffect", "useReducer", "useRef", "useContext", "useLayoutEffect",
    "useImperativeHandle", "useDebugValue", "useId", "useSyncExternalStore", "useTransition",
    "useDeferredValue", "useOptimistic", "useActionState", "useFormStatus"]

/-- Boolean attributes of HTML elements. -/
def nativeBooleanProps : List String :=
  ["allowFullScreen", "allowTransparency", "async", "autoFocus", "autoPlay", "checked",
    "controls", "default", "defer", "disabled", "formNoValidate", "hidden", "inert", "loop",
    "multiple", "muted", "noModule", "noValidate", "open", "playsInline", "readOnly", "required",
    "reversed", "selected"]

/-- A word as vocabularies hold it: trimmed, in lower case, without white space inside. -/
def normalizeWord (word : String) : String :=
  String.ofList ((Text.lower (Text.trim word)).toList.filter fun c => !Text.isBlank c)

/-- The list with empty words and later repetitions dropped. -/
def distinctWords (words : List String) : List String :=
  words.foldl (fun kept word => if word == "" || kept.contains word then kept else kept ++ [word]) []

/-- Longer words first. -/
def longestFirst (words : List String) : List String :=
  words.mergeSort fun a b => b.utf8ByteSize ≤ a.utf8ByteSize

/-- A vocabulary with the words of a user added. -/
def mergeVocabulary (defaults extension : List String) : List String :=
  longestFirst (distinctWords ((defaults ++ extension).map normalizeWord))

end TsxLint.Naming
