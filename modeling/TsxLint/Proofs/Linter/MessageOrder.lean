import Mathlib.Data.List.Nodup
import Mathlib.Data.Prod.Lex
import Mathlib.Data.String.Basic
import TsxLint.Linter
import TsxLint.Proofs.Data.StableSort

/-!
# Rules do not interfere

The messages about a file are the findings of the chosen rules, rendered and sorted by line, column,
rule and text. Two messages that may stand in either order name the same rule, and a stable sort
leaves them in the order in which that rule has found them. So neither the order of the rules nor
the company of other rules shows in what is said on account of a rule.

A check that breaks off is one that finds nothing.

## Main definitions

* `LintMessage.sortKey`: what messages are sorted by.

## Main results

* `LintMessage.le_iff`: messages are compared by their keys.
* `Linter.lint_congr`: what is said depends on the rules under each name.
* `Linter.rules_do_not_interfere`: the order and the company of rules do not show.
-/

namespace TsxLint

namespace LintMessage

/-- The rule that a message is sorted under; a fatal one comes before all rules. -/
def ruleKey (m : LintMessage) : String := m.rule.getD ""

/-- What messages are sorted by: line, column, rule and text, in this order of weight. -/
def sortKey (m : LintMessage) : ℕ ×ₗ ℕ ×ₗ String ×ₗ String :=
  toLex (m.start.line, toLex (m.start.column, toLex (m.ruleKey, m.message)))

/-- Messages are compared by their keys. -/
theorem le_iff {a b : LintMessage} : a.le b = true ↔ a.sortKey ≤ b.sortKey := by
  simp only [sortKey, Prod.Lex.toLex_le_toLex, le, ruleKey, bne_iff_ne, ne_eq, ite_not]
  split_ifs with hline hcolumn hrule
  · simp only [hline, hcolumn, hrule, lt_irrefl, false_or, true_and, Bool.not_eq_true',
      decide_eq_false_iff_not, not_lt]
  · simp [hline, hcolumn, hrule]
  · simp [hline, hcolumn]
  · simp [hline]

theorem le_trans (a b c : LintMessage) (hab : a.le b = true) (hbc : b.le c = true) :
    a.le c = true :=
  le_iff.mpr ((le_iff.mp hab).trans (le_iff.mp hbc))

theorem le_total (a b : LintMessage) : (a.le b || b.le a) = true := by
  rw [Bool.or_eq_true, le_iff, le_iff]
  exact LinearOrder.le_total _ _

/-- Messages that may stand in either order are of one rule. -/
theorem ruleKey_eq_of_tied {a b : LintMessage} (h : StableSort.tied le a b = true) :
    a.ruleKey = b.ruleKey := by
  obtain ⟨hab, hba⟩ := StableSort.tied_iff.mp h
  have hkey : a.sortKey = b.sortKey := le_antisymm (le_iff.mp hab) (le_iff.mp hba)
  exact congrArg (fun key => (ofLex (ofLex (ofLex key).2).2).1) hkey

end LintMessage

namespace Linter

section

variable (file : SourceFile) (subject : Subject)

theorem rule_of_mem {active : ActiveRule} {m : LintMessage}
    (hm : m ∈ messagesOf file subject active) : m.rule = some active.rule.name := by
  obtain ⟨d, -, rfl⟩ := List.mem_map.mp hm
  rfl

/-- The messages whose rule has some property are those of the rules that have it. -/
theorem filter_messages (p : String → Bool) (rules : List ActiveRule) :
    (rules.flatMap (messagesOf file subject)).filter (fun m => p m.ruleKey) =
      (rules.filter fun active => p active.rule.name).flatMap (messagesOf file subject) := by
  have hkey {active : ActiveRule} {m : LintMessage} (hm : m ∈ messagesOf file subject active) :
      m.ruleKey = active.rule.name := by
    rw [LintMessage.ruleKey, rule_of_mem file subject hm, Option.getD_some]
  induction rules with
  | nil => rfl
  | cons active rules ih =>
    rw [List.flatMap_cons, List.filter_append, ih]
    cases hp : p active.rule.name with
    | true =>
      have hall : (messagesOf file subject active).filter (fun m => p m.ruleKey) =
          messagesOf file subject active :=
        List.filter_eq_self.mpr fun m hm => by rw [hkey hm, hp]
      rw [hall, List.filter_cons_of_pos (by simpa using hp), List.flatMap_cons]
    | false =>
      have hnone : (messagesOf file subject active).filter (fun m => p m.ruleKey) = [] :=
        List.filter_eq_nil_iff.mpr fun m hm => by simp [hkey hm, hp]
      rw [hnone, List.filter_cons_of_neg (by simp [hp]), List.nil_append]

/-- What is said depends on the rules under each name only. -/
theorem mergeSort_messages_congr {rules rules' : List ActiveRule}
    (h : ∀ name, rules.filter (·.rule.name == name) = rules'.filter (·.rule.name == name)) :
    (rules.flatMap (messagesOf file subject)).mergeSort LintMessage.le =
      (rules'.flatMap (messagesOf file subject)).mergeSort LintMessage.le := by
  refine StableSort.mergeSort_eq_of_filter_tied LintMessage.le_total LintMessage.le_trans
    fun a => ?_
  -- Ties with a message are among the messages of its rule.
  have hties (messages : List LintMessage) :
      messages.filter (StableSort.tied LintMessage.le a) =
        (messages.filter fun m => m.ruleKey == a.ruleKey).filter
          (StableSort.tied LintMessage.le a) := by
    rw [List.filter_filter]
    refine List.filter_congr fun m _ => ?_
    cases htied : StableSort.tied LintMessage.le a m with
    | true => simp [LintMessage.ruleKey_eq_of_tied htied]
    | false => rfl
  rw [hties, hties (rules'.flatMap _), filter_messages file subject (· == a.ruleKey),
    filter_messages file subject (· == a.ruleKey), h]

end

/-- Where names are distinct, one rule at most has a name, so the order of rules does not matter to
it. -/
theorem filter_name_eq_of_perm {rules rules' : List ActiveRule} (hperm : rules.Perm rules')
    (hnames : (rules.map (·.rule.name)).Nodup) (name : String) :
    rules.filter (·.rule.name == name) = rules'.filter (·.rule.name == name) := by
  have hfilter := hperm.filter (·.rule.name == name)
  have hlength : (rules.filter (·.rule.name == name)).length ≤ 1 := by
    have hcount := List.nodup_iff_count_le_one.mp hnames name
    rwa [List.count, List.countP_map, List.countP_eq_length_filter] at hcount
  rcases hcases : rules.filter (·.rule.name == name) with _ | ⟨active, _ | ⟨other, rest⟩⟩
  · rw [hcases] at hfilter ⊢
    exact (List.nil_perm.mp hfilter).symm
  · rw [hcases] at hfilter ⊢
    exact List.singleton_perm.mp hfilter
  · rw [hcases] at hlength
    simp at hlength

/-- The rules whose names are among those of some of them are those rules. -/
theorem filter_names_perm {rules part : List ActiveRule} (hpart : part.Subperm rules)
    (hnames : (rules.map (·.rule.name)).Nodup) :
    (rules.filter fun active => part.any (·.rule.name == active.rule.name)).Perm part := by
  have hrules := hnames.of_map
  obtain ⟨rules', hperm, hsublist⟩ := hpart
  have hnodup : part.Nodup := hperm.nodup_iff.mp (hsublist.nodup hrules)
  refine (List.perm_ext_iff_of_nodup (hrules.filter _) hnodup).mpr fun active => ?_
  simp only [List.mem_filter, List.any_eq_true, beq_iff_eq]
  constructor
  · rintro ⟨hactive, other, hother, hname⟩
    have hmem := hsublist.subset (hperm.mem_iff.mpr hother)
    rwa [← List.inj_on_of_nodup_map hnames hmem hactive hname]
  · intro hactive
    exact ⟨hsublist.subset (hperm.mem_iff.mpr hactive), active, hactive, rfl⟩

variable {linter linter' : Linter} (types : Option TypeService) (file : SourceFile)

/-- The order of the rules does not show. -/
theorem lint_eq_of_perm (hperm : linter.rules.Perm linter'.rules)
    (hnames : linter.ruleNames.Nodup) :
    linter.lint types file = linter'.lint types file :=
  mergeSort_messages_congr file _ (filter_name_eq_of_perm hperm hnames)

/-- The company of other rules does not show. -/
theorem filter_lint (hpart : linter'.rules.Subperm linter.rules) (hnames : linter.ruleNames.Nodup) :
    (linter.lint types file).filter
        (fun m => linter'.rules.any fun active => m.rule == some active.rule.name) =
      linter'.lint types file := by
  have hkey : ∀ m ∈ linter.lint types file,
      (linter'.rules.any fun active => m.rule == some active.rule.name) =
        linter'.rules.any fun active => active.rule.name == m.ruleKey := by
    intro m hm
    rw [lint, List.mem_mergeSort, List.mem_flatMap] at hm
    obtain ⟨active, -, hm⟩ := hm
    simp only [LintMessage.ruleKey, rule_of_mem file _ hm, Option.getD_some, Option.some_beq_some,
      BEq.comm]
  have hperm := filter_names_perm hpart hnames
  have hnames' : ((linter.rules.filter fun active =>
      linter'.rules.any (·.rule.name == active.rule.name)).map (·.rule.name)).Nodup :=
    (List.filter_sublist.map _).nodup hnames
  rw [List.filter_congr hkey, lint,
    StableSort.filter_mergeSort LintMessage.le_total LintMessage.le_trans,
    filter_messages file _ fun name => linter'.rules.any (·.rule.name == name)]
  exact mergeSort_messages_congr file _ (filter_name_eq_of_perm hperm hnames')

/-- **Rules do not interfere.** What a report of a file that was read says is what the chosen rules
have found, rendered, in the order of line, column, rule and text. If the names of the rules are
distinct, it is the same for any order of the rules, and what it says on account of some of them is
what a linter with those rules alone says. -/
theorem rules_do_not_interfere (linter : Linter) (hnames : linter.ruleNames.Nodup) (path : String)
    (types : Option TypeService) (file : SourceFile) :
    (linter.report path types (.ok file)).messages = linter.lint types file ∧
    (linter.lint types file).Perm (linter.rules.flatMap fun active =>
      (active.check (Subject.ofFile file types)).map (message active file)) ∧
    (linter.lint types file).Pairwise (fun a b => a.sortKey ≤ b.sortKey) ∧
    (∀ linter' : Linter, linter.rules.Perm linter'.rules →
      linter'.lint types file = linter.lint types file) ∧
    (∀ linter' : Linter, linter'.rules.Subperm linter.rules →
      (linter.lint types file).filter
          (fun m => linter'.rules.any fun active => m.rule == some active.rule.name) =
        linter'.lint types file) := by
  refine ⟨rfl, List.mergeSort_perm _ _, ?_, fun linter' hperm => ?_, fun linter' hpart => ?_⟩
  · have hsorted := List.pairwise_mergeSort LintMessage.le_trans LintMessage.le_total
      (linter.rules.flatMap (messagesOf file (Subject.ofFile file types)))
    exact hsorted.imp LintMessage.le_iff.mp
  · exact (lint_eq_of_perm types file hperm hnames).symm
  · exact filter_lint types file hpart hnames

/-- The file `function f(a) {}`, most tokens left out of its tree. -/
private def oneFunction : SourceFile where
  path := "a.ts"
  source := "function f(a) \x7b\x7d"
  dialect := .ts
  model := .ofProgram <| .ofCst
    ⟨"program", true, "", ⟨0, 16⟩, "", [
      ⟨"function_declaration", true, "", ⟨0, 16⟩, "", [
        ⟨"identifier", true, "name", ⟨9, 10⟩, "f", []⟩,
        ⟨"formal_parameters", true, "parameters", ⟨10, 13⟩, "(a)", [
          ⟨"required_parameter", true, "", ⟨11, 12⟩, "a", [
            ⟨"identifier", true, "pattern", ⟨11, 12⟩, "a", []⟩]⟩]⟩,
        ⟨"statement_block", true, "body", ⟨14, 16⟩, "", []⟩]⟩]⟩
  lines := ⟨[0]⟩

/-- Two rules about functions that allow for nothing. -/
private def strictRules : Linter where
  rules := [⟨maxParams, .warn, MaxParams.check 0⟩,
    ⟨complexity, .error, Complexity.check ⟨0, .classic⟩⟩]

/-- Two rules that both say something about the same place say the same in either order. -/
theorem one_function_by_two_rules :
    strictRules.ruleNames.Nodup ∧
    (strictRules.rules.map fun active =>
      (messagesOf oneFunction (.ofFile oneFunction none) active).map fun m => (m.rule, m.start)) =
      [[(some "max-params", ⟨1, 1⟩)], [(some "complexity", ⟨1, 1⟩)]] ∧
    (Linter.mk strictRules.rules.reverse).lint none oneFunction =
      strictRules.lint none oneFunction := by
  have hnames : strictRules.ruleNames.Nodup := by decide +kernel
  refine ⟨hnames, by decide +kernel, ?_⟩
  exact (rules_do_not_interfere strictRules hnames "a.ts" none oneFunction).2.2.2.1 _
    (List.reverse_perm _).symm

end Linter

end TsxLint
