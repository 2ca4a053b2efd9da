import TsxLint.Component.Function
import TsxLint.Naming.Case
import TsxLint.Rule.Basic
import TsxLint.Rule.Options

/-!
# The size of functions

Two rules bound a function: its cyclomatic complexity and its number of parameters.

Complexity is counted per frame. Functions, field initializers and static blocks open a frame, and
every branch counts for the nearest frame around it. A frame starts at one. Components, that is
functions with a strict Pascal-case name, are not measured.

## Main definitions

* `Node.opensFrame`, `ComplexityVariant.isBranch`: what opens a frame and what branches.
* `Complexity.Counter`, `Complexity.Counter.walk`: the count, with the open frames on a stack.
* `complexity`, `maxParams`: the rules.
-/

namespace TsxLint

/-- How the cases of a switch count: each case with a test, or the switch as a whole. -/
inductive ComplexityVariant
  | classic
  | modified
  deriving DecidableEq, Repr

/-- Whether a node opens a frame. -/
def Node.opensFrame (n : Node) : Bool :=
  match n.kind with
  | .function .. | .arrowFunction _ | .staticBlock => true
  | .propertyDefinition _ => (n.get? .value).isSome
  | _ => false

/-- Whether a node is a branch. -/
def ComplexityVariant.isBranch (variant : ComplexityVariant) (n : Node) : Bool :=
  match n.kind with
  | .catchClause | .conditionalExpression | .logicalExpression _ | .forStatement
  | .forInStatement .. | .ifStatement | .whileStatement | .doWhileStatement
  | .assignmentPattern => true
  | .switchCase => variant == .classic && (n.get? .test).isSome
  | .switchStatement => variant == .modified
  | .assignmentExpression .. => n.isLogicalAssignment
  | .memberExpression isOptional => isOptional
  | .callExpression isOptional => isOptional
  | _ => false

/-- How a frame is called in a message. -/
def Model.frameLabel (m : Model) (frame : Node) : String :=
  match frame.kind with
  | .propertyDefinition _ => "class field initializer"
  | .staticBlock => "class static block"
  | _ => m.functionLabel frame

/-- Whether a frame is the function of a component. -/
def Model.isComponentFrame (m : Model) (frame : Node) : Bool :=
  frame.isFunctionLike && (m.declaredName? frame).any Naming.isStrictPascalCase

namespace Complexity

/-- The options of the rule. -/
structure Options where
  max : Nat
  variant : ComplexityVariant

/-- Reads the options: a bare number is the maximum. Of the two spellings of the maximum, the long
one wins. -/
def Options.ofData? : Data → Option Options
  | .whole value => (Data.whole value).count?.map (⟨·, .classic⟩)
  | data => do
    let table ← OptionTable.ofData? ["max", "maximum", "variant"] data
    let max ← table.read? "max" (Data.optional Data.count?) none
    let maximum ← table.read? "maximum" (Data.optional Data.count?) none
    let variant ← table.read? "variant"
      (Data.choice? [("classic", .classic), ("modified", .modified)]) ComplexityVariant.classic
    pure ⟨(maximum.or max).getD 20, variant⟩

/-- A frame, with the node that opened it and what it counts so far. The frame of the file itself
was opened by no node. -/
structure Frame where
  node : Option Node
  complexity : Nat

namespace Frame

/-- The frame that a node opens. -/
def ofNode (n : Node) : Frame := ⟨some n, 1⟩

/-- A frame that counts some more branches. -/
def add (frame : Frame) (branches : Nat) : Frame :=
  { frame with complexity := frame.complexity + branches }

end Frame

/-- The open frames, the innermost first, and the closed frames, in the order in which they were
closed. -/
structure Counter where
  frames : List Frame
  closed : List Frame

namespace Counter

variable (variant : ComplexityVariant)

/-- The counter of a file that was not entered yet: only the frame of the file is open. -/
def start : Counter := ⟨[⟨none, 1⟩], []⟩

/-- Enters a node, which opens a frame or counts for the innermost open one. -/
def enter (s : Counter) (n : Node) : Counter :=
  if n.opensFrame then { s with frames := .ofNode n :: s.frames }
  else if variant.isBranch n then { s with frames := s.frames.modifyHead (·.add 1) }
  else s

/-- Leaves a node, and closes the innermost frame if the node opened one. -/
def leave (s : Counter) (n : Node) : Counter :=
  if n.opensFrame then
    match s.frames with
    | [] => s
    | frame :: frames => ⟨frames, s.closed ++ [frame]⟩
  else s

mutual

/-- Walks through a node and everything inside it. -/
def walk (s : Counter) : Node → Counter
  | ⟨role, id, kind, span, children⟩ =>
    let node : Node := ⟨role, id, kind, span, children⟩
    (walkAll (s.enter variant node) children).leave node

/-- Walks through a list of nodes. -/
def walkAll (s : Counter) : List Node → Counter
  | [] => s
  | n :: ns => walkAll (s.walk n) ns

end

end Counter

/-- The frames of a file with their complexity, in the order in which they are closed. -/
def frames (variant : ComplexityVariant) (m : Model) : List Frame :=
  (Counter.start.walk variant m.program.root).closed

/-- What is reported about a closed frame: that it is too complex, unless it is a component. -/
def report? (max : Nat) (m : Model) (frame : Frame) : Option Diagnostic := do
  let n ← frame.node
  if m.isComponentFrame n || frame.complexity ≤ max then none
  else
    some ⟨n.span, "complex",
      [("name", Text.capitalize (m.frameLabel n)), ("complexity", toString frame.complexity),
        ("max", toString max)]⟩

/-- The frames that are too complex. -/
def check (options : Options) : Check := fun s =>
  (frames options.variant s.model).filterMap (report? options.max s.model)

end Complexity

open Template (hole)

/-- Bounds the cyclomatic complexity of functions. -/
def complexity : Rule where
  name := "complexity"
  category := .core
  description := "Enforce a maximum cyclomatic complexity allowed in a program"
  messages :=
    [("complex", hole "name" ++ " has a complexity of " ++ hole "complexity" ++
      ". Maximum allowed is " ++ hole "max" ++ ".")]
  configure := fun data => (Complexity.Options.ofData? data).map Complexity.check

namespace MaxParams

/-- The functions with more than `max` parameters. -/
def check (max : Nat) : Check := fun s =>
  (s.nodes.filter Node.isFunctionLike).filterMap fun function =>
    let count := (function.all .param).length
    if count ≤ max then none
    else
      some ⟨function.span, "exceed",
        [("name", Text.capitalize (s.model.functionLabel function)),
          ("count", toString count), ("max", toString max)]⟩

/-- Reads the maximum. -/
def max? (data : Data) : Option Nat := do
  let table ← OptionTable.ofData? ["max"] data
  table.read? "max" Data.count? 3

end MaxParams

/-- Bounds the number of parameters of functions. -/
def maxParams : Rule where
  name := "max-params"
  category := .core
  description := "Enforce a maximum number of parameters in function definitions"
  messages :=
    [("exceed", hole "name" ++ " has too many parameters (" ++ hole "count" ++
      "). Maximum allowed is " ++ hole "max" ++ ".")]
  configure := fun data => (MaxParams.max? data).map MaxParams.check

end TsxLint
