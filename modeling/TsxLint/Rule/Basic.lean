import TsxLint.Data
import TsxLint.Message
import TsxLint.Severity
import TsxLint.SourceFile
import TsxLint.Type.Shape

/-!
# Rules

A rule has a name, a category, a description and the templates of its messages. Options are read
once, when the rule is chosen; they give a check, which maps a file to findings. A check sees a
`Subject`: the file, and the types that a type service knows.

## Main definitions

* `Subject`: what a check looks at.
* `Check`: a rule with its options settled.
* `Rule`, `Rule.template`: a rule and the texts of its messages.
-/

namespace TsxLint

/-- What a check looks at: the place and text of a file, its model, and the shapes of its types. -/
structure Subject where
  path : String
  source : String
  model : Model
  shapes : Shapes

namespace Subject

/-- A file as a check sees it. -/
def ofFile (file : SourceFile) (types : Option TypeService) : Subject :=
  ⟨file.path, file.source, file.model, ⟨AliasTable.ofModel file.model, types⟩⟩

/-- The nodes of the file in visiting order. -/
def nodes (s : Subject) : List Node := s.model.nodes

/-- The aliases and interfaces of the file. -/
def aliases (s : Subject) : AliasTable := s.shapes.aliases

/-- The text under a span. -/
def text (s : Subject) (span : Span) : String := span.textIn s.source

end Subject

/-- A rule with its options settled. -/
abbrev Check := Subject → List Diagnostic

/-- A rule. `configure` reads its options, `none` meaning that it refuses them. -/
structure Rule where
  name : String
  category : Category
  description : String
  messages : List (String × String)
  configure : Data → Option Check

/-- The template of a message; a message without one is shown by its identifier. -/
def Rule.template (rule : Rule) (id : String) : String := (rule.messages.lookup id).getD id

/-- The text of a finding. -/
def Rule.render (rule : Rule) (d : Diagnostic) : String :=
  Template.render (rule.template d.id) d.data

end TsxLint
