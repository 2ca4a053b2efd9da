import TsxLint.Proofs.Lowering.Texts
import TsxLint.Proofs.Rule.Findings

/-!
# Handlers that are wired up

A function named `handle*` is not reported once some `on*` prop is given it. The rule does not look
for the function inside the value of the prop: it takes the value as text and collects the words
that begin with `handle`. A name of ASCII identifier characters is one of these words wherever it
stands in the value, whatever is around it and wherever the function is declared. A name with any
other character is none of them, and so the function is reported although it is wired.

The rule looks at values in braces and at the properties of object literals that are spread into an
element as they stand. Markup that is a value without braces is passed over.

## Main definitions

* `HandleName.Gives`: a node gives a value to an `on*` prop.
* `HandleName.LooksInto`: the rule looks into a value.
* `HandleName.ReportsWired`: a file in which a wired handler is reported.

## Main results

* `HandleName.mem_wired`: names that stand apart in a value are collected.
* `HandleName.all_isIdentifierChar_of_mem_wired`: what the collected words are made of.
* `HandleName.wired_handlers_spared_if_ascii`: which wired handlers are spared.
* `HandleName.wired_handlers_are_reported`: two that are not.
-/

namespace TsxLint

namespace HandleName

/-! ### Values of handler props -/

/-- A node gives a value to a prop named like a handler: an attribute with a plain name, or an
object literal that is spread into an element, under a key that is not computed. -/
inductive Gives : Node → Node → Prop
  | named {a name value : Node} (hkind : a.kind = .jsxAttribute)
      (hname : a.plainName? = some name) (hon : Naming.isHandlerName name.label = true)
      (hvalue : a.get? .value = some value) : Gives a value
  | spread {a object property value : Node} {key : String} {isShorthand isMethod : Bool}
      (hkind : a.kind = .jsxSpreadAttribute) (hargument : a.get? .argument = some object)
      (hobject : object.kind = .objectExpression) (hproperty : property ∈ object.all .property)
      (hform : property.kind = .objectProperty isShorthand isMethod)
      (hkey : property.propKey? = some key) (hon : Naming.isHandlerName key = true)
      (hvalue : property.get? .value = some value) : Gives a value

/-- Whether the rule looks into a value that a node gives: values in braces, and those of an object
that is spread. -/
def LooksInto (a value : Node) : Prop :=
  value.kind = .jsxExpressionContainer ∨ a.kind = .jsxSpreadAttribute

section

variable {cst : Cst} {a value n : Node} {name : String}

/-- Where the rule looks into a value, it looks at all names inside. -/
theorem exists_handlerValue (ha : a ∈ (Program.ofCst cst).root.preorder) (hgives : Gives a value)
    (hlooks : LooksInto a value) (hn : n ∈ value.preorder)
    (hname : n.kind = .identifierReference name) :
    ∃ looked ∈ handlerValues a, looked ∈ (Program.ofCst cst).root.preorder ∧
      n ∈ looked.preorder := by
  have hclosed : Node.Closed (· ∈ (Program.ofCst cst).root.preorder) := by
    rw [← Model.nodes_ofCst]
    exact Model.nodes_closed
  cases hgives with
  | named hkind hplain hon hvalue =>
    have hbraces : value.kind = .jsxExpressionContainer :=
      hlooks.resolve_right (by rw [hkind]; exact nofun)
    have hmem := hclosed.get? ha hvalue
    rw [Node.preorder_eq] at hn
    rcases List.mem_cons.mp hn with rfl | hn
    · rw [hname] at hbraces
      cases hbraces
    · obtain ⟨inner, hchild, hn⟩ := Node.mem_preorderAll.mp hn
      have hinner := Program.ofCst_containers hmem hbraces hchild
      refine ⟨inner, ?_, hclosed value hmem inner hchild, hn⟩
      simp [handlerValues, hkind, hplain, hvalue, hbraces, hon, hinner]
  | spread hkind hargument hobject hproperty hform hkey hon hvalue =>
    have hproperty' := hclosed.all (hclosed.get? ha hargument) hproperty
    refine ⟨value, ?_, hclosed.get? hproperty' hvalue, hn⟩
    simp only [handlerValues, hkind, hargument, hobject, handlerProperties]
    exact List.mem_filterMap.mpr ⟨_, hproperty, by simp [hform, hkey, hon, hvalue]⟩

end

/-! ### Collected words -/

section

variable {s : Subject} {name : String}

/-- The collected words are of ASCII identifier characters. -/
theorem all_isIdentifierChar_of_mem_wired (hname : name ∈ wired s) :
    name.toList.all Text.isIdentifierChar = true := by
  obtain ⟨value, -, hname⟩ := List.mem_flatMap.mp hname
  obtain ⟨found, hfound, rfl⟩ := List.mem_map.mp hname
  rw [String.toList_ofList, List.all_eq_true]
  have hstart : ∀ c ∈ "handle".toList, Text.isIdentifierChar c = true :=
    List.all_eq_true.mp (by decide)
  exact Text.isIdentifierChar_of_mem_identifiersFrom hstart found hfound

/-- A name that stands apart in the text of a value that the rule looks at is collected. -/
theorem mem_wired {a looked : Node} (ha : a ∈ s.nodes) (hlooked : looked ∈ handlerValues a)
    (hstart : Naming.hasWordStart name "handle" = true)
    (hchars : name.toList.all Text.isIdentifierChar = true) {before after : List Char}
    (htext : (s.text looked.span).toList = before ++ name.toList ++ after)
    (hapart : Text.StandsApart before after) : name ∈ wired s := by
  obtain ⟨rest, -, rfl⟩ := Text.hasWordStart_iff.mp hstart
  refine List.mem_flatMap.mpr ⟨looked, List.mem_flatMap.mpr ⟨a, ha, hlooked⟩, ?_⟩
  refine List.mem_map.mpr ⟨_, ?_, String.ofList_toList⟩
  rw [htext]
  exact Text.mem_identifiersFrom (by decide) ⟨rest.toList, String.toList_append⟩
    (List.all_eq_true.mp hchars) hapart

/-- The findings are about the candidates whose names are not collected. -/
theorem mem_check_iff {d : Diagnostic} : d ∈ check s ↔ ∃ n ∈ s.nodes, ∃ f, candidate? n = some f ∧
    f.label ∉ wired s ∧ d = ⟨f.span, "noHandlePrefixUtil", [("name", f.label)]⟩ := by
  simp only [check, List.mem_map, List.mem_filter, List.mem_filterMap, Bool.not_eq_true',
    List.contains_eq_mem, decide_eq_false_iff_not, eq_comm (a := d)]
  grind

theorem hasWordStart_of_candidate? {n f : Node} (hf : candidate? n = some f) :
    Naming.hasWordStart f.label "handle" = true :=
  (Option.filter_eq_some_iff.mp hf).2

/-- A function whose name has some other character is reported, wired or not. -/
theorem mem_check_of_other {n f : Node} (hn : n ∈ s.nodes) (hf : candidate? n = some f)
    (hother : f.label.toList.all Text.isIdentifierChar = false) :
    ⟨f.span, "noHandlePrefixUtil", [("name", f.label)]⟩ ∈ check s := by
  refine mem_check_iff.mpr ⟨n, hn, f, hf, fun hcollected => ?_, rfl⟩
  rw [all_isIdentifierChar_of_mem_wired hcollected] at hother
  cases hother

end

/-- **Wired handlers are spared if their names are of ASCII characters.** Take a file whose concrete
tree is in place and says what the source does, and a name inside a value that some node gives to an
`on*` prop. If the name is of ASCII identifier characters and the rule looks into the value, then no
function of that name is reported, wherever in the value the name stands and wherever the function
is declared. A `handle*` function whose name has any other character is always reported. -/
theorem wired_handlers_spared_if_ascii {options : Data} {check : Check}
    (hcheck : noHandlePrefixUtils.configure options = some check) {path source : String} {cst : Cst}
    {file : SourceFile} (hfile : SourceFile.read path source cst = .ok file)
    (hplace : cst.AllInPlace) (hread : ∀ d ∈ cst.preorder, d.ReadFrom source)
    (types : Option TypeService) :
    (∀ a ∈ file.model.nodes, ∀ value, Gives a value → LooksInto a value →
      ∀ n ∈ value.preorder, ∀ name, n.kind = .identifierReference name →
        name.toList.all Text.isIdentifierChar = true →
        ∀ d ∈ check (.ofFile file types), d.data.lookup "name" ≠ some name) ∧
    ∀ n ∈ file.model.nodes, ∀ f, candidate? n = some f →
      f.label.toList.all Text.isIdentifierChar = false →
      ⟨f.span, "noHandlePrefixUtil", [("name", f.label)]⟩ ∈ check (.ofFile file types) := by
  obtain ⟨-, -, rfl⟩ := Option.map_eq_some_iff.mp hcheck
  obtain ⟨dialect, rfl⟩ := SourceFile.eq_of_read hfile
  refine ⟨fun a ha value hgives hlooks n hn name hname hchars d hd hdata => ?_,
    fun n hn f hf hother => mem_check_of_other hn hf hother⟩
  obtain ⟨m, hm, f, hf, hfree, rfl⟩ := mem_check_iff.mp hd
  obtain rfl : f.label = name := by simpa using hdata
  have hroot : a ∈ (Program.ofCst cst).root.preorder := Model.nodes_ofCst cst ▸ ha
  obtain ⟨looked, hlooked, hmem, hinside⟩ := exists_handlerValue hroot hgives hlooks hn hname
  have hstart := hasWordStart_of_candidate? hf
  have hne : f.label ≠ "" := by
    intro hempty
    rw [hempty] at hstart
    cases hstart
  obtain ⟨before, after, htext, hapart⟩ :=
    Program.exists_text_of_name hread hplace hmem hinside hname hne
  exact hfree (mem_wired ha hlooked hstart hchars htext hapart)

/-! ### Two wired handlers -/

/-- A file in which a name stands in a value that is given to the prop `onB` of an element, before
the function of that name is declared. The value follows `<a onB=`. -/
private def wiredSource (value name : String) : String :=
  "<a onB=" ++ value ++ " />; function " ++ name ++ "() \x7b\x7d"

private def wiredRows (value : List Cst.Row) (valueSize nameSize : Nat) : List Cst.Row :=
  let stop := 7 + valueSize
  let last := stop + 14 + nameSize
  [⟨"program", true, "", ⟨0, last + 5⟩, 2⟩,
    ⟨"expression_statement", true, "", ⟨0, stop + 4⟩, 2⟩,
    ⟨"jsx_self_closing_element", true, "", ⟨0, stop + 3⟩, 4⟩,
    ⟨"<", false, "", ⟨0, 1⟩, 0⟩,
    ⟨"identifier", true, "name", ⟨1, 2⟩, 0⟩,
    ⟨"jsx_attribute", true, "attribute", ⟨3, stop⟩, 3⟩,
    ⟨"property_identifier", true, "", ⟨3, 6⟩, 0⟩,
    ⟨"=", false, "", ⟨6, 7⟩, 0⟩] ++ value ++
  [⟨"/>", false, "", ⟨stop + 1, stop + 3⟩, 0⟩,
    ⟨";", false, "", ⟨stop + 3, stop + 4⟩, 0⟩,
    ⟨"function_declaration", true, "", ⟨stop + 5, last + 5⟩, 4⟩,
    ⟨"function", false, "", ⟨stop + 5, stop + 13⟩, 0⟩,
    ⟨"identifier", true, "name", ⟨stop + 14, last⟩, 0⟩,
    ⟨"formal_parameters", true, "parameters", ⟨last, last + 2⟩, 2⟩,
    ⟨"(", false, "", ⟨last, last + 1⟩, 0⟩,
    ⟨")", false, "", ⟨last + 1, last + 2⟩, 0⟩,
    ⟨"statement_block", true, "body", ⟨last + 3, last + 5⟩, 2⟩,
    ⟨"\x7b", false, "", ⟨last + 3, last + 4⟩, 0⟩,
    ⟨"\x7d", false, "", ⟨last + 4, last + 5⟩, 0⟩]

/-- A name in braces. -/
private def bracedRows (start nameSize : Nat) : List Cst.Row :=
  [⟨"jsx_expression", true, "", ⟨start, start + 2 + nameSize⟩, 3⟩,
    ⟨"\x7b", false, "", ⟨start, start + 1⟩, 0⟩,
    ⟨"identifier", true, "", ⟨start + 1, start + 1 + nameSize⟩, 0⟩,
    ⟨"\x7d", false, "", ⟨start + 1 + nameSize, start + 2 + nameSize⟩, 0⟩]

/-- A name in braces between the tags `<b>` and `</b>`. -/
private def markedUpRows (start nameSize : Nat) : List Cst.Row :=
  let stop := start + 5 + nameSize
  [⟨"jsx_element", true, "", ⟨start, stop + 4⟩, 3⟩,
    ⟨"jsx_opening_element", true, "open_tag", ⟨start, start + 3⟩, 3⟩,
    ⟨"<", false, "", ⟨start, start + 1⟩, 0⟩,
    ⟨"identifier", true, "name", ⟨start + 1, start + 2⟩, 0⟩,
    ⟨">", false, "", ⟨start + 2, start + 3⟩, 0⟩] ++ bracedRows (start + 3) nameSize ++
  [⟨"jsx_closing_element", true, "close_tag", ⟨stop, stop + 4⟩, 3⟩,
    ⟨"</", false, "", ⟨stop, stop + 2⟩, 0⟩,
    ⟨"identifier", true, "name", ⟨stop + 2, stop + 3⟩, 0⟩,
    ⟨">", false, "", ⟨stop + 3, stop + 4⟩, 0⟩]

private def bracedSource (name : String) : String := wiredSource ("\x7b" ++ name ++ "\x7d") name

/-- The tree of an element with a name in braces, and of the function. -/
private def braced (name : String) : Cst :=
  let size := name.utf8ByteSize
  (Cst.ofRows (bracedSource name) (wiredRows (bracedRows 7 size) (size + 2) size)).getD default

private def markedUpSource (name : String) : String :=
  wiredSource ("<b>\x7b" ++ name ++ "\x7d</b>") name

/-- The tree of an element with a name between tags, and of the function. -/
private def markedUp (name : String) : Cst :=
  let size := name.utf8ByteSize
  (Cst.ofRows (markedUpSource name) (wiredRows (markedUpRows 7 size) (size + 9) size)).getD default

private def fileOf (source : String) (cst : Cst) : SourceFile :=
  ⟨"a.tsx", source, .tsx, .ofCst cst, .ofSource source⟩

/-- The value that an attribute gives to a prop named like a handler. -/
private def handlerValue? (a : Node) : Option Node :=
  match a.kind, a.plainName? with
  | .jsxAttribute, some name => if Naming.isHandlerName name.label then a.get? .value else none
  | _, _ => none

private def isBraced (value : Node) : Bool :=
  match value.kind with
  | .jsxExpressionContainer => true
  | _ => false

private def holdsName (name : String) (value : Node) : Bool :=
  value.preorder.any fun n => n.asIdentifier?.any (·.label == name)

private theorem exists_gives {nodes : List Node} {p : Node → Bool}
    (h : (nodes.any fun a => (handlerValue? a).any p) = true) :
    ∃ a ∈ nodes, ∃ value, Gives a value ∧ p value = true := by
  obtain ⟨a, ha, hvalue⟩ := List.any_eq_true.mp h
  obtain ⟨value, hvalue, hp⟩ := (Option.any_eq_true _ _).mp hvalue
  refine ⟨a, ha, value, ?_, hp⟩
  unfold handlerValue? at hvalue
  split at hvalue
  · rename_i name hkind hname
    split_ifs at hvalue with hon
    exact .named hkind hname hon hvalue
  · cases hvalue

private theorem exists_of_holdsName {name : String} {value : Node}
    (h : holdsName name value = true) :
    ∃ n ∈ value.preorder, n.kind = .identifierReference name := by
  obtain ⟨n, hn, hname⟩ := List.any_eq_true.mp h
  refine ⟨n, hn, ?_⟩
  unfold Node.asIdentifier? at hname
  split at hname
  · rename_i other hkind
    simpa [Node.label, Node.nameText?, hkind] using hname
  · cases hname

private theorem exists_candidate {nodes : List Node} {name : String}
    (h : (nodes.any fun n => (candidate? n).any (·.label == name)) = true) :
    ∃ n ∈ nodes, ∃ f, candidate? n = some f ∧ f.label = name := by
  simpa [Option.any_eq_true] using h

/-- A handler of ASCII characters that is wired in braces is spared. -/
theorem wired_handler_is_spared :
    noHandlePrefixUtils.configure .null = some check ∧
    SourceFile.read "a.tsx" (bracedSource "handleA") (braced "handleA") =
      .ok (fileOf (bracedSource "handleA") (braced "handleA")) ∧
    (braced "handleA").AllInPlace ∧
    (∀ d ∈ (braced "handleA").preorder, d.ReadFrom (bracedSource "handleA")) ∧
    (∃ n ∈ (Model.ofCst (braced "handleA")).nodes, ∃ f, candidate? n = some f ∧
      f.label = "handleA") ∧
    (∃ a ∈ (Model.ofCst (braced "handleA")).nodes, ∃ value, Gives a value ∧ LooksInto a value ∧
      ∃ n ∈ value.preorder, n.kind = .identifierReference "handleA") ∧
    ∀ d ∈ check (.ofFile (fileOf (bracedSource "handleA") (braced "handleA")) none),
      d.data.lookup "name" ≠ some "handleA" := by
  have hcheck : noHandlePrefixUtils.configure .null = some check := rfl
  have hfile : SourceFile.read "a.tsx" (bracedSource "handleA") (braced "handleA") =
      .ok (fileOf (bracedSource "handleA") (braced "handleA")) := rfl
  have hplace : (braced "handleA").AllInPlace := by decide +kernel
  have hread : ∀ d ∈ (braced "handleA").preorder, d.ReadFrom (bracedSource "handleA") := by
    decide +kernel
  obtain ⟨a, ha, value, hgives, hvalue⟩ :
      ∃ a ∈ (Model.ofCst (braced "handleA")).nodes, ∃ value, Gives a value ∧
        (isBraced value && holdsName "handleA" value) = true :=
    exists_gives (by decide +kernel)
  obtain ⟨hbraced, hholds⟩ := Bool.and_eq_true_iff.mp hvalue
  obtain ⟨n, hn, hname⟩ := exists_of_holdsName hholds
  have hlooks : LooksInto a value := by
    unfold isBraced at hbraced
    split at hbraced
    · exact .inl ‹_›
    · cases hbraced
  obtain ⟨hspared, -⟩ := wired_handlers_spared_if_ascii hcheck hfile hplace hread none
  exact ⟨hcheck, hfile, hplace, hread, exists_candidate (by decide +kernel),
    ⟨a, ha, value, hgives, hlooks, n, hn, hname⟩,
    hspared a ha value hgives hlooks n hn "handleA" hname (by decide +kernel)⟩

/-- A file in which a handler is reported although its name stands in a value that an `on*` prop is
given. -/
def ReportsWired (source : String) (cst : Cst) (name : String) : Prop :=
  ∃ file, SourceFile.read "a.tsx" source cst = .ok file ∧ cst.AllInPlace ∧
    (∀ d ∈ cst.preorder, d.ReadFrom source) ∧
    (∃ a ∈ file.model.nodes, ∃ value, Gives a value ∧
      ∃ n ∈ value.preorder, n.kind = .identifierReference name) ∧
    ∃ d ∈ check (.ofFile file none), d.data.lookup "name" = some name

private theorem reportsWired_of_not_mem {source name : String} {cst : Cst}
    (hfile : SourceFile.read "a.tsx" source cst = .ok (fileOf source cst)) (hplace : cst.AllInPlace)
    (hread : ∀ d ∈ cst.preorder, d.ReadFrom source)
    (hvalue : ((Model.ofCst cst).nodes.any fun a =>
      (handlerValue? a).any (holdsName name)) = true)
    (hcandidate : ((Model.ofCst cst).nodes.any fun n =>
      (candidate? n).any (·.label == name)) = true)
    (hfree : name ∉ wired (.ofFile (fileOf source cst) none)) : ReportsWired source cst name := by
  obtain ⟨a, ha, value, hgives, hholds⟩ := exists_gives hvalue
  obtain ⟨n, hn, f, hf, rfl⟩ := exists_candidate hcandidate
  exact ⟨_, hfile, hplace, hread, ⟨a, ha, value, hgives, exists_of_holdsName hholds⟩, _,
    mem_check_iff.mpr ⟨n, hn, f, hf, hfree, rfl⟩, rfl⟩

/-- Two wired handlers that are reported: one has a letter that is no ASCII letter, the other stands
in markup without braces around it. -/
theorem wired_handlers_are_reported :
    ReportsWired (bracedSource "handleé") (braced "handleé") "handleé" ∧
      ReportsWired (markedUpSource "handleA") (markedUp "handleA") "handleA" := by
  constructor
  · refine reportsWired_of_not_mem rfl (by decide +kernel) (by decide +kernel) (by decide +kernel)
      (by decide +kernel) fun hcollected => ?_
    exact absurd (all_isIdentifierChar_of_mem_wired hcollected) (by decide +kernel)
  · have hvalues : (Model.ofCst (markedUp "handleA")).nodes.flatMap handlerValues = [] :=
      List.isEmpty_iff.mp (by decide +kernel)
    refine reportsWired_of_not_mem rfl (by decide +kernel) (by decide +kernel) (by decide +kernel)
      (by decide +kernel) ?_
    rw [wired, Subject.nodes, Subject.ofFile, fileOf, hvalues, List.flatMap_nil]
    exact List.not_mem_nil

end HandleName

end TsxLint
