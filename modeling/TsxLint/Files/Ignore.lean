import TsxLint.Files.Glob.Reader
import TsxLint.Text.Affix
import TsxLint.Text.Blank

/-!
# Ignore files

Each line of an ignore file is a rule: a glob, with `!` in front if what it covers is kept after all,
and with a separator at the end if it is about directories only. A glob without any other separator
holds at every depth. Of the rules that cover a path the last one decides. A line that is no glob is
passed over.
-/

namespace TsxLint

/-- A rule of an ignore file. -/
structure IgnoreRule where
  glob : Glob
  keeps : Bool
  onlyDirectories : Bool

/-- What the rules say about a path. -/
inductive IgnoreVerdict
  | ignored
  | kept
  deriving DecidableEq, Repr

namespace IgnoreRule

/-- A line without the white space at its end; a blank after a backslash belongs to the line. -/
def trimLine (line : String) : String :=
  if Text.endsWith line "\\ " then line
  else String.ofList (line.toList.reverse.dropWhile Text.isBlank).reverse

/-- A glob that holds at every depth. -/
def atEveryDepth (glob : String) : String :=
  if Text.startsWith glob "**/" || glob = "**" then glob else "**/" ++ glob

/-- A glob that ends in `/**` covers what is inside of a directory and not the directory. -/
def insideOnly (glob : String) : String := if Text.endsWith glob "/**" then glob ++ "/*" else glob

/-- The rule for the glob that is left of a line, `anchored` telling whether it holds at the place
of the ignore file only. -/
def ofGlob? (keeps anchored : Bool) (text : String) : Option IgnoreRule :=
  let bare := Text.stripEnd? text "/"
  let inner :=
    match bare with
    | some rest => (Text.stripEnd? rest "\\").getD rest
    | none => text
  let placed := if anchored || inner.toList.contains '/' then inner else atEveryDepth inner
  (Glob.parse? .ignoreRule (insideOnly placed)).map fun glob => ⟨glob, keeps, bare.isSome⟩

/-- The rule that a line stands for. -/
def ofLine? (line : String) : Option IgnoreRule :=
  let text := trimLine line
  if Text.startsWith line "#" || text = "" then none
  else if Text.startsWith text "\\!" || Text.startsWith text "\\#" then
    ofGlob? false false (String.ofList (text.toList.drop 1))
  else
    let keeps := Text.startsWith text "!"
    let pattern := (Text.stripStart? text "!").getD text
    match Text.stripStart? pattern "/" with
    | some rest => ofGlob? keeps true rest
    | none => ofGlob? keeps false pattern

/-- The lines of a text; a byte order mark in front does not count. -/
def linesOf (text : String) : List String :=
  let body := String.ofList (text.toList.dropWhile (· == '\ufeff'))
  (Text.splitAt '\n' body).map fun line => (Text.stripEnd? line "\r").getD line

/-- The rules of an ignore file. -/
def ofText (text : String) : List IgnoreRule := (linesOf text).filterMap ofLine?

/-- Whether a rule covers a path. -/
def covers (rule : IgnoreRule) (path : String) (isDirectory : Bool) : Bool :=
  (isDirectory || !rule.onlyDirectories) && rule.glob.covers path

/-- What a rule says about the paths that it covers. -/
def verdict (rule : IgnoreRule) : IgnoreVerdict := if rule.keeps then .kept else .ignored

/-- What rules say about a path, the last that covers it deciding. -/
def verdict? (rules : List IgnoreRule) (path : String) (isDirectory : Bool) :
    Option IgnoreVerdict :=
  (rules.reverse.find? (·.covers path isDirectory)).map verdict

end IgnoreRule

end TsxLint
