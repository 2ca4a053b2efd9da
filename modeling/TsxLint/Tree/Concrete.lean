import TsxLint.Text.Span

/-!
# Concrete trees

The tree that a grammar yields for a source, tokens and comments included. Every node has the kind
the grammar gives it (a token's kind is its text), the field under which its parent holds it, and
the text it covers. Trees are read from rows in preorder, each with its number of children.

## Main definitions

* `Cst`, `Cst.ofRows`: trees and how they are read.
* `Kid`, `Cst.named`, `Cst.field?`: the children of a node, by position, by name and by field.
* `Cst.errorOffset?`: where the first faulty node starts.
-/

namespace TsxLint

/-- A node of a concrete tree. -/
structure Cst where
  kind : String
  isNamed : Bool
  field : String
  span : Span
  text : String
  children : List Cst
  deriving Inhabited

/-- A node before its children are known. -/
structure Cst.Row where
  kind : String
  isNamed : Bool
  field : String
  span : Span
  childCount : Nat

/-- A child and its place among the children. -/
structure Kid where
  index : Nat
  tree : Cst

namespace Cst

/-- Reads rows from the last to the first: each takes its children from the front of the trees
read so far. -/
def stackRows (source : List Char) (rows : List Row) : List Cst :=
  rows.foldr (fun row trees =>
    let text := (Text.slice? source row.span.start row.span.stop).getD []
    ⟨row.kind, row.isNamed, row.field, row.span, String.ofList text, trees.take row.childCount⟩ ::
      trees.drop row.childCount) []

/-- The tree whose rows, in preorder, are given. -/
def ofRows (source : String) (rows : List Row) : Option Cst :=
  (stackRows source.toList rows).head?

/-- All children with their places. -/
def kids (c : Cst) : List Kid := c.children.zipIdx.map fun (tree, index) => ⟨index, tree⟩

/-- The named children, comments left out. -/
def named (c : Cst) : List Kid :=
  c.kids.filter fun k => k.tree.isNamed && k.tree.kind != "comment"

/-- The first named child. -/
def firstNamed? (c : Cst) : Option Kid := c.named.head?

/-- The first named child of a kind. -/
def namedOf? (c : Cst) (kind : String) : Option Kid := c.named.find? (·.tree.kind == kind)

/-- The child held under a field. -/
def field? (c : Cst) (field : String) : Option Kid := c.kids.find? (·.tree.field == field)

/-- Whether some child has a kind. -/
def hasToken (c : Cst) (token : String) : Bool := c.children.any (·.kind == token)

/-- Whether a child of a kind starts before an offset. -/
def hasTokenBefore (c : Cst) (token : String) (limit : Nat) : Bool :=
  c.children.any fun child => child.kind == token && child.span.start < limit

/-- Whether two nodes have the same kind and the same place. -/
def sameNode (c d : Cst) : Bool := c.span == d.span && c.kind == d.kind

mutual

/-- The start of the first faulty node in preorder. -/
def errorOffset? : Cst → Option Nat
  | ⟨kind, _, _, span, _, children⟩ =>
    if kind = "ERROR" then some span.start else firstErrorOffset? children

/-- The start of the first faulty node of several trees. -/
def firstErrorOffset? : List Cst → Option Nat
  | [] => none
  | c :: cs => (errorOffset? c).or (firstErrorOffset? cs)

end

end Cst

/-- The text of a literal without the quotes around it, if they match. -/
def unquote (text : String) : String :=
  match text.toList with
  | [] => text
  | quote :: rest =>
    if (quote == '"' || quote == '\'' || quote == '\x60') && rest.getLast? == some quote then
      String.ofList rest.dropLast
    else text

end TsxLint
