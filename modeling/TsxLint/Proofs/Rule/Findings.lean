import Mathlib.Data.List.Forall2
import TsxLint.Proofs.Binding.NodeTable
import TsxLint.Proofs.Data.Lookup
import TsxLint.Proofs.Rule.Places
import TsxLint.Proofs.Rule.Templates
import TsxLint.Rule.HelperName

/-!
# Findings that can be shown

A check writes the identifier of a message and the keys of its values by hand, and takes the span
from some node. For a user to see the finding, the rule must have a template under the identifier,
the values must fill the placeholders of the template, and the span must be one of the file.

A check is described by the forms of its findings, the identifiers with their keys. Whether a rule
has words for a form is seen from its templates. So it remains to show, check by check, which forms
occur and where the spans come from.

## Main definitions

* `Rule.Words`: a rule has a template for a finding, and the finding fills its placeholders.
* `Rule.Covers`: a rule has a template for the findings of a form.
* `Subject.Complete`: the nodes and aliases that a check sees are those of one tree.
* `Check.Reports`, `Rule.Reports`: the forms of the findings of a check and of a rule, all of them
  found at nodes.
* `Rule.Faithful`: whatever a rule reports can be put into words and located.

## Main results

* `Rule.words_of_covers`: a template whose holes are for given keys is filled.
* `Subject.complete_ofFile`: files that were read are complete.
* `Rule.faithful_of_covers`: from the forms of the findings to the words for them.
-/

namespace TsxLint

/-! ### Words -/

/-- The identifier of a finding, with the keys of its values. -/
def Diagnostic.form (d : Diagnostic) : String × List String := (d.id, d.data.map Prod.fst)

namespace Rule

/-- A rule has words for a finding: the identifier is that of one of its messages, and every
placeholder of the template has a value, which the text shows in its place. -/
def Words (rule : Rule) (d : Diagnostic) : Prop :=
  ∃ template, rule.messages.lookup d.id = some template ∧
    ∀ content, .slot content ∈ Template.segments template.toList →
      ∃ value, d.data.lookup (Text.trim (String.ofList content)) = some value ∧
        (Template.Segment.slot content).render d.data = value.toList

/-- A rule has a template for the findings of a form, with holes for keys of the form. -/
def Covers (rule : Rule) (form : String × List String) : Prop :=
  ∃ template, rule.messages.lookup form.1 = some template ∧ Template.Asks form.2 template

theorem words_of_covers {rule : Rule} {d : Diagnostic} (h : rule.Covers d.form) :
    rule.Words d := by
  obtain ⟨template, htemplate, hasks⟩ := h
  refine ⟨template, htemplate, fun content hcontent => ?_⟩
  have hgiven : Text.trim (String.ofList content) ∈ d.data.map Prod.fst :=
    hasks.trim_mem content hcontent
  obtain ⟨value, hvalue⟩ := Option.ne_none_iff_exists'.mp (mem_keys_iff_lookup_ne_none.mp hgiven)
  exact ⟨value, hvalue, by rw [Template.Segment.render, hvalue]⟩

end Rule

/-! ### Places -/

namespace Subject

/-- The nodes and aliases that a check sees are those of one tree: the root is there, the parts of
nodes are, and so are the declarations of all aliases. -/
structure Complete (s : Subject) : Prop where
  root_mem : s.model.program.root ∈ s.nodes
  closed : Node.Closed (· ∈ s.nodes)
  aliases_eq : s.aliases = .ofModel s.model

/-- A file that was read is complete. -/
theorem complete_ofFile {path source : String} {cst : Cst} {file : SourceFile}
    (h : SourceFile.read path source cst = .ok file) (types : Option TypeService) :
    (ofFile file types).Complete := by
  obtain ⟨dialect, rfl⟩ := SourceFile.eq_of_read h
  refine ⟨?_, Model.nodes_closed, rfl⟩
  have hroot : (Program.ofCst cst).root ∈ (Model.ofCst cst).nodes := by
    rw [Model.nodes_ofCst]
    exact Node.mem_preorder_self _
  exact hroot

/-- A span is that of a node of the file. -/
def Locates (s : Subject) (span : Span) : Prop := ∃ n ∈ s.nodes, n.span = span

theorem mem_nodes_of_attribute {s : Subject} {a : Node} (ha : a ∈ s.attributes) : a ∈ s.nodes :=
  (List.mem_filter.mp ha).1

namespace Complete

variable {s : Subject} (h : s.Complete)
include h

/-- What the names of the file lead to is in the file. -/
theorem hop_mem {w : AliasTable.Walk} (name : String) :
    ∀ m ∈ s.aliases.hop w name, m ∈ s.nodes := by
  rw [h.aliases_eq]
  exact fun m hm => h.closed.hop_ofNodes (fun n (hn : n ∈ s.nodes) => hn) hm

/-- An attribute is reported at its name, or at the whole of it. -/
theorem attributeName {a : Node} (ha : a ∈ s.attributes) : s.Locates a.nameSpan := by
  have hmem := mem_nodes_of_attribute ha
  unfold Node.nameSpan
  cases hname : a.get? .name with
  | none => exact ⟨a, hmem, rfl⟩
  | some name => exact ⟨name, h.closed.get? hmem hname, rfl⟩

theorem namedFunction {f : NamedFunction} (hf : f ∈ s.model.namedFunctions) :
    f.nameNode ∈ s.nodes ∧ f.function ∈ s.nodes := by
  obtain ⟨n, hn, hf⟩ := List.mem_filterMap.mp hf
  exact h.closed.namedFunction? hn hf

theorem reportSpan {f : NamedFunction} (hf : f ∈ s.model.namedFunctions) :
    s.Locates f.reportSpan := by
  unfold NamedFunction.reportSpan
  split
  · exact ⟨f.function, (h.namedFunction hf).2, rfl⟩
  · exact ⟨f.nameNode, (h.namedFunction hf).1, rfl⟩

theorem contract {c : Contract} (hc : c ∈ s.model.contracts) :
    s.Locates c.span ∧ ∀ m ∈ c.members, m ∈ s.nodes := by
  obtain ⟨n, hn, hc⟩ := List.mem_filterMap.mp hc
  obtain ⟨hspan, hmembers⟩ := h.closed.contract? hn hc
  exact ⟨⟨n, hn, hspan.symm⟩, hmembers⟩

theorem propsContract {c : Contract} (hc : c ∈ s.model.propsContracts s.aliases) :
    ∀ m ∈ c.members, m ∈ s.nodes := by
  obtain ⟨n, hn, hc⟩ := List.mem_filterMap.mp hc
  exact h.closed.propsContract? h.hop_mem hn hc

end Complete

end Subject

/-! ### Reports -/

/-- Every finding of a check is of one of some forms and at a node of the file. -/
def Check.Reports (check : Check) (forms : List (String × List String)) : Prop :=
  ∀ s : Subject, s.Complete → ∀ d ∈ check s, d.form ∈ forms ∧ s.Locates d.span

namespace Rule

/-- Every finding of a rule, with any options that it accepts, is of one of some forms and at a node
of the file. -/
def Reports (rule : Rule) (forms : List (String × List String)) : Prop :=
  ∀ options check, rule.configure options = some check → check.Reports forms

/-- Whatever a rule reports, with any options that it accepts, it has words for and is at a node of
the file. -/
def Faithful (rule : Rule) : Prop :=
  ∀ options check, rule.configure options = some check →
    ∀ s : Subject, s.Complete → ∀ d ∈ check s, rule.Words d ∧ s.Locates d.span

/-- A rule that reads options and gives a check for them. -/
theorem reports_of_options {α : Type} {read : Data → Option α} {check : α → Check}
    {forms : List (String × List String)} (h : ∀ a, (check a).Reports forms) (options : Data)
    (c : Check) (hc : (read options).map check = some c) : c.Reports forms := by
  obtain ⟨a, -, rfl⟩ := Option.map_eq_some_iff.mp hc
  exact h a

/-- A rule that takes no options. -/
theorem reports_of_check {check : Check} {forms : List (String × List String)}
    (h : check.Reports forms) (options : Data) (c : Check)
    (hc : withoutOptions check options = some c) : c.Reports forms :=
  reports_of_options (fun _ => h) options c hc

/-- Rules are faithful if each has words for the forms of its findings. -/
theorem faithful_of_covers {rules : List Rule} {forms : List (List (String × List String))}
    (h : List.Forall₂ Reports rules forms)
    (hcovers : List.Forall₂ (fun rule forms => ∀ form ∈ forms, rule.Covers form) rules forms) :
    ∀ rule ∈ rules, rule.Faithful := by
  induction h with
  | nil => exact fun _ hrule => absurd hrule List.not_mem_nil
  | cons hreports _ ih =>
    obtain ⟨hrule, hothers⟩ := List.forall₂_cons.mp hcovers
    refine List.forall_mem_cons.mpr ⟨fun options check hcheck s hs d hd => ?_, ih hothers⟩
    obtain ⟨hform, hspan⟩ := hreports options check hcheck s hs d hd
    exact ⟨words_of_covers (hrule _ hform), hspan⟩

end Rule

end TsxLint
