import TsxLint.Proofs.Rule.ComponentFindings
import TsxLint.Proofs.Rule.CoreFindings
import TsxLint.Proofs.Rule.PropFindings
import TsxLint.Rule.Registry

/-!
# Every finding can be shown

Putting the rules together: whatever file was read, whatever options a rule accepted and whatever a
type service answers, a finding comes out as a text without open placeholders, at a place where a
node of the file stands.
-/

namespace TsxLint

namespace Rule

set_option maxRecDepth 4000 in
/-- Every rule has words for what it reports, and reports it at nodes. The forms of the findings are
those that the lemmas about the checks give, rule by rule in the order of the list. -/
theorem faithful_of_mem_all : ∀ rule ∈ Rule.all, rule.Faithful := by
  refine faithful_of_covers (.cons (reports_of_options Complexity.check_reports) <|
      .cons (reports_of_check ExternalMutation.check_reports) <|
      .cons (reports_of_options MaxParams.check_reports) <|
      .cons (reports_of_options ParamReassign.check_reports) <|
      .cons (reports_of_check PreferConst.check_reports) <|
      .cons (reports_of_options InlineCall.check_reports) <|
      .cons (reports_of_check TitleCase.check_reports) <|
      .cons (reports_of_check KebabCase.check_reports) <|
      .cons (reports_of_check (Subject.reportFunctions_reports _ _)) <|
      .cons (reports_of_check HandleName.check_reports) <|
      .cons (reports_of_check (Subject.reportFunctions_reports _ _)) <|
      .cons (reports_of_check (Subject.reportFunctions_reports _ _)) <|
      .cons (reports_of_check ContextHook.check_reports) <|
      .cons (reports_of_check HandlerReturn.check_reports) <|
      .cons (reports_of_check ActionName.check_reports) <|
      .cons (reports_of_options VerbSuffix.check_reports) <|
      .cons (reports_of_options NounVerb.check_reports) <|
      .cons (reports_of_check (Subject.reportFunctions_reports _ _)) <|
      .cons (reports_of_check ElementProps.check_reports) <|
      .cons (reports_of_check ComponentTypeProps.check_reports) <|
      .cons (reports_of_options ObjectProps.check_reports) <|
      .cons (reports_of_check ArrayProps.check_reports) <|
      .cons (reports_of_options PropBundle.check_reports) <|
      .cons (reports_of_options OptionalProps.check_reports) <|
      .cons (reports_of_options BooleanProps.check_reports) <|
      .cons (reports_of_options MaxProps.check_reports) <|
      .cons (reports_of_check CompoundMarkup.check_reports) <|
      .cons (reports_of_check CompoundExport.check_reports) <|
      .cons (reports_of_options PropDrilling.check_reports) <|
      .cons (reports_of_check PassThrough.check_reports) <|
      .cons (reports_of_options OwnerTree.check_reports) .nil) ?_
  simp only [Rule.all, List.forall₂_cons, List.forall_mem_cons, List.not_mem_nil,
    IsEmpty.forall_iff, implies_true, and_true, List.forall₂_nil_left_iff]
  -- Each template is written as a sum of texts and holes; the finding has a value for each hole.
  constructorm* _ ∧ _
  all_goals refine ⟨_, rfl, ?_⟩
  all_goals
    repeat' first
      | with_reducible refine .append ?_ ?_
      | with_reducible exact .hole (by simp) (by decide)
      | exact .text (by decide)

/-- **Every finding can be rendered and located.** Whatever a rule reports of a file that was read,
with any options that it accepts and any type service, has the identifier of one of its messages,
carries a value for every placeholder of the template, which the text shows in its place, and has
the span of a node of the file. -/
theorem findings_render_and_locate {rule : Rule} (hrule : rule ∈ Rule.all) {options : Data}
    {check : Check} (hcheck : rule.configure options = some check) {path source : String}
    {cst : Cst} {file : SourceFile} (hfile : SourceFile.read path source cst = .ok file)
    (types : Option TypeService) :
    ∀ d ∈ check (.ofFile file types),
      rule.Words d ∧ ∃ n ∈ file.model.nodes, n.span = d.span :=
  faithful_of_mem_all rule hrule options check hcheck _ (Subject.complete_ofFile hfile types)

/-- The tree of `let a = 1;`, some tokens left out. -/
private def oneVariable : Cst :=
  ⟨"program", true, "", ⟨0, 10⟩, "", [
    ⟨"lexical_declaration", true, "", ⟨0, 10⟩, "", [
      ⟨"let", false, "kind", ⟨0, 3⟩, "let", []⟩,
      ⟨"variable_declarator", true, "", ⟨4, 9⟩, "a = 1", [
        ⟨"identifier", true, "name", ⟨4, 5⟩, "a", []⟩,
        ⟨"number", true, "value", ⟨8, 9⟩, "1", []⟩]⟩]⟩]⟩

/-- A variable that is never written again is reported in words and at its name. -/
theorem variable_reported_as_constant :
    preferConst ∈ Rule.all ∧ preferConst.configure .null = some PreferConst.check ∧
    ∃ file, SourceFile.read "a.ts" "let a = 1;" oneVariable = .ok file ∧
      ∃ d ∈ PreferConst.check (.ofFile file none), d.id = "useConst" ∧
        preferConst.Words d ∧ ∃ n ∈ file.model.nodes, n.span = d.span := by
  have hrule : preferConst ∈ Rule.all := by simp [Rule.all]
  have hcheck : preferConst.configure .null = some PreferConst.check := rfl
  obtain ⟨file, hfile, hmem⟩ : ∃ file, SourceFile.read "a.ts" "let a = 1;" oneVariable = .ok file ∧
      ⟨⟨4, 5⟩, "useConst", [("name", "a")]⟩ ∈ PreferConst.check (.ofFile file none) :=
    ⟨_, rfl, by decide +kernel⟩
  exact ⟨hrule, hcheck, file, hfile, _, hmem, rfl,
    findings_render_and_locate hrule hcheck hfile none _ hmem⟩

end Rule

end TsxLint
