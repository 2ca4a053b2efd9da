import TsxLint.Lowering.Plan

/-!
# Lowering

`Cst.lower` carries out the plan of a concrete node, its children lowered by the plans of their own
goals. `Program.ofCst` lowers a whole file.
-/

namespace TsxLint

mutual

/-- Lowers a concrete node for a goal. -/
def Cst.lower : Cst → Lowering
  | ⟨kind, isNamed, field, span, text, children⟩ =>
    let kids := Cst.lowerEach children
    fun goal role next =>
      Step.runAll kids (Plan.steps goal role ⟨kind, isNamed, field, span, text, children⟩) next

/-- How each node of a list is lowered. -/
def Cst.lowerEach : List Cst → List Lowering
  | [] => []
  | c :: cs => c.lower :: lowerEach cs

end

/-- The typed tree of a file: its root has number zero and holds the statements. -/
def Program.ofCst (c : Cst) : Program :=
  let lowered := c.lower (.each .statement) .statement 1
  ⟨⟨.root, 0, .program, c.span, lowered.1⟩, lowered.2⟩

end TsxLint
