import TsxLint.Proofs.Type.Routes
import TsxLint.Rule.PropType

/-!
# Repeated findings

The rules about arrays, objects and booleans in props contracts look at each entry of the contract
by itself. So their findings are repeated as often as the entries are: a finding comes twice if the
declaration comes to the member in two ways, or if two declarations or two members give the same
finding. Nothing else repeats one.

## Main definitions

* `Way`: a way to a finding about a member.
* `ArrayProps.about?`, `ObjectProps.about?`, `BooleanProps.about?`: what the rules find about a
  member.
* `Subject.Reports`, `Subject.Repeats`: what a way leads to, and what two ways lead to.

## Main results

* `Subject.listsWays_findings`: the findings about members, one for each way.
* `Subject.repeated_iff_two_ways`: which members and findings are repeated.
* `Subject.shared_base_is_reported_twice`: a file in which a finding is repeated.
-/

namespace TsxLint

/-! ### Findings about one member -/

/-- A property signature with a type, with it. -/
def Node.typedProperty? (n : Node) : Option (Node × Node) :=
  match n.kind with
  | .propertySignature .. => (n.get? .type).map fun type => (n, type)
  | _ => none

theorem Contract.typedProperties_eq (c : Contract) :
    c.typedProperties = c.members.filterMap Node.typedProperty? := by
  rw [typedProperties, properties, List.filterMap_filter]
  refine List.filterMap_congr fun member _ => ?_
  unfold Node.typedProperty?
  split <;> simp_all

/-- What is found about a member that is an array. -/
def ArrayProps.about? (shapes : Shapes) (c : Contract) (member : Node) : Option Diagnostic :=
  member.typedProperty?.bind fun (property, type) =>
    if shapes.isArray type then
      some ⟨property.span, "noArrayProps",
        [("prop", property.keyName?.getD "(unknown)"), ("propsType", c.name)]⟩
    else none

/-- What is found about a member that is an object. -/
def ObjectProps.about? (ignore : Naming.GlobList) (shapes : Shapes) (c : Contract)
    (member : Node) : Option Diagnostic :=
  member.typedProperty?.bind fun (property, type) => declared? ignore shapes c property type

namespace BooleanProps

/-- Whether a handler of a contract controls a prop. -/
def isControlled (ignore : List String) (shapes : Shapes) (c : Contract) (prop : String) : Bool :=
  (((namedMembers ignore c).filter fun (name, member) => isHandler shapes name member).map
    Prod.fst).any fun handler => Text.startsWith handler (handlerStart prop)

/-- What is found about a member that is a boolean which no handler of the contract controls. -/
def about? (ignore : List String) (shapes : Shapes) (c : Contract) (member : Node) :
    Option Diagnostic :=
  member.signatureKey?.bind fun name =>
    if !isControlled ignore shapes c name &&
        (!isHandler shapes name member && isBooleanProperty shapes member) &&
        !ignore.contains name then
      some ⟨(member.keyNode?.map Node.span).getD member.span, "noBooleanCapabilityProp",
        [("prop", name), ("handlerPrefix", handlerStart name)]⟩
    else none

end BooleanProps

theorem map_filter_filterMap {α β γ : Type} (f : α → Option β) (p : β → Bool) (g : β → γ)
    (l : List α) : ((l.filterMap f).filter p).map g =
      l.filterMap fun a => (f a).bind fun b => if p b then some (g b) else none := by
  rw [List.filter_filterMap, List.map_filterMap]
  refine List.filterMap_congr fun a _ => ?_
  cases hb : f a with
  | none => rfl
  | some b => cases hp : p b <;> simp [hp]

theorem ArrayProps.check_eq (s : Subject) : check s =
    (s.model.propsContracts s.aliases).flatMap fun c =>
      c.members.filterMap (about? s.shapes c) := by
  refine congrArg (List.flatMap · _) (funext fun c => ?_)
  dsimp only
  rw [Contract.typedProperties_eq, map_filter_filterMap]
  rfl

theorem ObjectProps.check_eq (ignore : Naming.GlobList) (s : Subject) : check ignore s =
    ((s.model.propsContracts s.aliases).flatMap fun c =>
      c.members.filterMap (about? ignore s.shapes c)) ++
      s.attributes.filterMap (passed? ignore s.shapes) := by
  rw [check]
  refine congrArg (List.flatMap · _ ++ _) (funext fun c => ?_)
  rw [Contract.typedProperties_eq, List.filterMap_filterMap]
  rfl

theorem ObjectProps.id_of_about? {ignore : Naming.GlobList} {shapes : Shapes} {c : Contract}
    {member : Node} {d : Diagnostic} (hd : about? ignore shapes c member = some d) :
    d.id = "noObjectProps" := by
  obtain ⟨⟨property, type⟩, -, hd⟩ := Option.bind_eq_some_iff.mp hd
  obtain ⟨prop, -, hd⟩ := Option.bind_eq_some_iff.mp hd
  split_ifs at hd
  obtain rfl := Option.some.inj hd
  rfl

theorem ObjectProps.id_of_passed? {ignore : Naming.GlobList} {shapes : Shapes} {a : Node}
    {d : Diagnostic} (hd : passed? ignore shapes a = some d) : d.id = "noObjectPropsValue" := by
  obtain ⟨name, -, hd⟩ := Option.bind_eq_some_iff.mp hd
  obtain ⟨value, -, hd⟩ := Option.bind_eq_some_iff.mp hd
  split at hd
  · obtain ⟨expression, -, hd⟩ := Option.bind_eq_some_iff.mp hd
    split_ifs at hd
    obtain rfl := Option.some.inj hd
    rfl
  · cases hd

theorem BooleanProps.check_eq (ignore : List String) (s : Subject) : check ignore s =
    (s.model.propsContracts s.aliases).flatMap fun c =>
      c.members.filterMap (about? ignore s.shapes c) := by
  refine congrArg (List.flatMap · _) (funext fun c => ?_)
  unfold findings namedMembers
  dsimp only
  rw [List.filter_filter, List.filter_filter, map_filter_filterMap]
  refine List.filterMap_congr fun member _ => ?_
  rw [about?]
  cases member.signatureKey? <;> rfl

/-! ### Ways -/

/-- A way to a finding: the declaration of a contract, a route, and the member that it leads to. -/
structure Way where
  declaration : Node
  route : List Node
  member : Node

namespace Subject

/-- A way leads to a finding: the declaration comes to the member on the route, and this is what is
found about the member in the contract of the declaration. -/
structure Reports (s : Subject) (about : Contract → Node → Option Diagnostic) (way : Way)
    (d : Diagnostic) : Prop where
  mem : way.declaration ∈ s.nodes
  contributes : s.model.Contributes way.declaration way.route way.member
  finding : ∃ contract, way.declaration.propsContract? s.aliases = some contract ∧
    about contract way.member = some d

/-- Two ways lead to a finding. -/
def Repeats (s : Subject) (about : Contract → Node → Option Diagnostic) (d : Diagnostic) : Prop :=
  ∃ way way', way ≠ way' ∧ s.Reports about way d ∧ s.Reports about way' d

section

variable {c : Cst} {s : Subject} (hs : s.model = .ofCst c) (haliases : s.aliases = .ofModel s.model)

include hs haliases

omit haliases in
theorem nodup_nodes : s.nodes.Nodup := by
  rw [nodes, hs]
  exact Model.nodup_nodes

/-- The findings about members of the contract of one declaration, if it has one. -/
theorem listsWays_declared (about : Contract → Node → Option Diagnostic) {n : Node}
    (hn : n ∈ s.nodes) :
    ListsWays (fun (way : List Node × Node) d => s.model.Contributes n way.1 way.2 ∧
        ∃ contract, n.propsContract? s.aliases = some contract ∧ about contract way.2 = some d)
      ((n.propsContract? s.aliases).toList.flatMap fun contract =>
        contract.members.filterMap (about contract)) := by
  cases hcontract : n.propsContract? s.aliases with
  | none => exact ListsWays.nil nofun
  | some contract =>
    rw [haliases, hs] at hcontract
    rw [nodes, hs] at hn
    rw [Option.toList_some, List.flatMap_singleton, hs]
    simpa using (Model.members_listsWays hn hcontract).filterMap (about contract)

/-- The findings about members have an entry for each way. -/
theorem listsWays_findings (about : Contract → Node → Option Diagnostic) :
    ListsWays (s.Reports about) ((s.model.propsContracts s.aliases).flatMap fun contract =>
      contract.members.filterMap (about contract)) := by
  have hdeclared := ListsWays.flatMap (nodup_nodes hs)
    fun n hn => listsWays_declared hs haliases about hn
  have hways := hdeclared.map (fun way => Way.mk way.1 way.2.1 way.2.2) fun _ _ _ _ _ _ heq => by
    obtain ⟨hn, hroute, hmember⟩ := Way.mk.inj heq
    exact Prod.ext hn (Prod.ext hroute hmember)
  rw [Model.propsContracts, List.filterMap_eq_flatMap_toList, List.flatMap_assoc]
  refine hways.congr fun way d => ?_
  constructor
  · rintro ⟨⟨n, route, member⟩, rfl, hn, hcontributes, hfinding⟩
    exact ⟨hn, hcontributes, hfinding⟩
  · rintro ⟨hn, hcontributes, hfinding⟩
    exact ⟨(way.declaration, way.route, way.member), rfl, hn, hcontributes, hfinding⟩

/-- The findings about members are repeated as far as two ways lead to them. -/
theorem duplicate_findings_iff (about : Contract → Node → Option Diagnostic) {d : Diagnostic} :
    List.Duplicate d ((s.model.propsContracts s.aliases).flatMap fun contract =>
      contract.members.filterMap (about contract)) ↔ s.Repeats about d :=
  (listsWays_findings hs haliases about).duplicate_iff

omit haliases in
/-- The findings about attributes are repeated as far as two attributes give them. -/
theorem duplicate_attributes_iff (passed? : Node → Option Diagnostic) {d : Diagnostic} :
    List.Duplicate d (s.attributes.filterMap passed?) ↔ ∃ a ∈ s.attributes, ∃ b ∈ s.attributes,
      a ≠ b ∧ passed? a = some d ∧ passed? b = some d := by
  have hattributes : s.attributes.Nodup := (nodup_nodes hs).filter _
  have hways := (ListsWays.of_nodup () hattributes).filterMap passed?
  rw [hways.duplicate_iff]
  constructor
  · rintro ⟨⟨_, a⟩, ⟨_, b⟩, hne, ⟨⟨-, ha⟩, hfound⟩, ⟨-, hb⟩, hfound'⟩
    exact ⟨a, ha, b, hb, fun heq => hne (congrArg ((), ·) heq), hfound, hfound'⟩
  · rintro ⟨a, ha, b, hb, hne, hfound, hfound'⟩
    exact ⟨((), a), ((), b), fun heq => hne (Prod.mk.inj heq).2, ⟨⟨rfl, ha⟩, hfound⟩, ⟨rfl, hb⟩,
      hfound'⟩

/-- **What is repeated has two ways.** A contract has a member twice exactly if its declaration
comes to the member on two routes. The rules about arrays, objects and booleans in contracts give a
finding twice exactly if two ways lead to it, ways that differ in the declaration, the route or the
member; and about objects that are passed, exactly if two attributes give it. -/
theorem repeated_iff_two_ways :
    (∀ n ∈ s.nodes, ∀ contract, n.propsContract? s.aliases = some contract → ∀ member,
      List.Duplicate member contract.members ↔ ∃ route route', route ≠ route' ∧
        s.model.Contributes n route member ∧ s.model.Contributes n route' member) ∧
    (∀ d, List.Duplicate d (ArrayProps.check s) ↔ s.Repeats (ArrayProps.about? s.shapes) d) ∧
    (∀ ignore d, List.Duplicate d (ObjectProps.check ignore s) ↔
      s.Repeats (ObjectProps.about? ignore s.shapes) d ∨
        ∃ a ∈ s.attributes, ∃ b ∈ s.attributes, a ≠ b ∧
          ObjectProps.passed? ignore s.shapes a = some d ∧
          ObjectProps.passed? ignore s.shapes b = some d) ∧
    ∀ ignore d, List.Duplicate d (BooleanProps.check ignore s) ↔
      s.Repeats (BooleanProps.about? ignore s.shapes) d := by
  refine ⟨fun n hn contract hcontract member => ?_, fun d => ?_, fun ignore d => ?_,
    fun ignore d => ?_⟩
  · rw [haliases, hs] at hcontract
    rw [nodes, hs] at hn
    rw [hs]
    exact (Model.members_listsWays hn hcontract).duplicate_iff
  · rw [ArrayProps.check_eq, duplicate_findings_iff hs haliases]
  · rw [ObjectProps.check_eq, ListsWays.duplicate_append_iff (fun hd hd' => ?_),
      duplicate_findings_iff hs haliases, duplicate_attributes_iff hs]
    -- The two parts differ in the message.
    obtain ⟨contract, -, hd⟩ := List.mem_flatMap.mp hd
    obtain ⟨member, -, hd⟩ := List.mem_filterMap.mp hd
    obtain ⟨a, -, hd'⟩ := List.mem_filterMap.mp hd'
    have hid := ObjectProps.id_of_about? hd
    exact absurd ((ObjectProps.id_of_passed? hd').symm.trans hid) (by decide)
  · rw [BooleanProps.check_eq, duplicate_findings_iff hs haliases]

end

/-! ### A base with two names -/

/-- The tree of `type Base = { tags: string[] }; type Row = Base; type TagProps = Base & Row;`. -/
private def sharedBase : Cst :=
  let literal := "\x7b tags: string[] \x7d"
  let base := "type Base = " ++ literal ++ ";"
  let row := "type Row = Base;"
  let props := "type TagProps = Base & Row;"
  ⟨"program", true, "", ⟨0, 76⟩, base ++ " " ++ row ++ " " ++ props, [
    ⟨"type_alias_declaration", true, "", ⟨0, 31⟩, base, [
      ⟨"type", false, "", ⟨0, 4⟩, "type", []⟩,
      ⟨"type_identifier", true, "name", ⟨5, 9⟩, "Base", []⟩,
      ⟨"=", false, "", ⟨10, 11⟩, "=", []⟩,
      ⟨"object_type", true, "value", ⟨12, 30⟩, literal, [
        ⟨"\x7b", false, "", ⟨12, 13⟩, "\x7b", []⟩,
        ⟨"property_signature", true, "", ⟨14, 28⟩, "tags: string[]", [
          ⟨"property_identifier", true, "name", ⟨14, 18⟩, "tags", []⟩,
          ⟨"type_annotation", true, "type", ⟨18, 28⟩, ": string[]", [
            ⟨":", false, "", ⟨18, 19⟩, ":", []⟩,
            ⟨"array_type", true, "", ⟨20, 28⟩, "string[]", [
              ⟨"predefined_type", true, "", ⟨20, 26⟩, "string", [
                ⟨"string", false, "", ⟨20, 26⟩, "string", []⟩]⟩,
              ⟨"[", false, "", ⟨26, 27⟩, "[", []⟩,
              ⟨"]", false, "", ⟨27, 28⟩, "]", []⟩]⟩]⟩]⟩,
        ⟨"\x7d", false, "", ⟨29, 30⟩, "\x7d", []⟩]⟩,
      ⟨";", false, "", ⟨30, 31⟩, ";", []⟩]⟩,
    ⟨"type_alias_declaration", true, "", ⟨32, 48⟩, row, [
      ⟨"type", false, "", ⟨32, 36⟩, "type", []⟩,
      ⟨"type_identifier", true, "name", ⟨37, 40⟩, "Row", []⟩,
      ⟨"=", false, "", ⟨41, 42⟩, "=", []⟩,
      ⟨"type_identifier", true, "value", ⟨43, 47⟩, "Base", []⟩,
      ⟨";", false, "", ⟨47, 48⟩, ";", []⟩]⟩,
    ⟨"type_alias_declaration", true, "", ⟨49, 76⟩, props, [
      ⟨"type", false, "", ⟨49, 53⟩, "type", []⟩,
      ⟨"type_identifier", true, "name", ⟨54, 62⟩, "TagProps", []⟩,
      ⟨"=", false, "", ⟨63, 64⟩, "=", []⟩,
      ⟨"intersection_type", true, "value", ⟨65, 75⟩, "Base & Row", [
        ⟨"type_identifier", true, "", ⟨65, 69⟩, "Base", []⟩,
        ⟨"&", false, "", ⟨70, 71⟩, "&", []⟩,
        ⟨"type_identifier", true, "", ⟨72, 75⟩, "Row", []⟩]⟩,
      ⟨";", false, "", ⟨75, 76⟩, ";", []⟩]⟩]⟩

/-- The file, without a type service. -/
private def sharedBaseFile : Subject :=
  ⟨"", sharedBase.text, .ofCst sharedBase, ⟨.ofModel (.ofCst sharedBase), none⟩⟩

/-- A name in a type. -/
private def named (role : Role) (id : Nat) (name : String) (span : Span) : Node :=
  ⟨role, id, .typeReference, span, [⟨.name, id + 1, .typeName [name], span, []⟩]⟩

/-- The type `string[]`. -/
private def stringArray : Node :=
  ⟨.type, 6, .arrayType, ⟨20, 28⟩, [⟨.element, 7, .keywordType .string, ⟨20, 26⟩, []⟩]⟩

/-- The member `tags: string[]`. -/
private def tags : Node :=
  ⟨.member, 4, .propertySignature false false, ⟨14, 28⟩,
    [⟨.key, 5, .identifierName "tags", ⟨14, 18⟩, []⟩, stringArray]⟩

/-- The type `Base & Row`. -/
private def baseAndRow : Node :=
  ⟨.type, 14, .intersectionType, ⟨65, 75⟩,
    [named .element 15 "Base" ⟨65, 69⟩, named .element 17 "Row" ⟨72, 75⟩]⟩

/-- The name of the props. -/
private def tagPropsName : Node := ⟨.name, 13, .bindingIdentifier "TagProps", ⟨54, 62⟩, []⟩

/-- The declaration of the props. -/
private def tagProps : Node :=
  ⟨.statement, 12, .typeAliasDeclaration, ⟨49, 76⟩, [tagPropsName, baseAndRow]⟩

/-- The contract of the props. -/
private def tagPropsContract : Contract := ⟨tagPropsName, ⟨49, 76⟩, [tags, tags]⟩

private theorem alias_base :
    sharedBaseFile.aliases.alias? "Base" = some ⟨.type, 3, .typeLiteral, ⟨12, 30⟩, [tags]⟩ := by
  rfl

private theorem alias_row :
    sharedBaseFile.aliases.alias? "Row" = some (named .type 10 "Base" ⟨43, 47⟩) := by
  rfl

private theorem tagProps_mem : tagProps ∈ sharedBaseFile.nodes :=
  @List.mem_of_getElem? _ _ 12 _ (by rfl)

/-- What is collected from `Base & Row`, where neither name is in progress. -/
private theorem literalMembers_baseAndRow :
    sharedBaseFile.aliases.literalMembers (Guard.empty.enter "TagProps").2 baseAndRow =
      [tags, tags] := by
  have hbase {guard : Guard} {n : Node} (hn : n.localTypeName? = some "Base")
      (hguard : guard.isActive "Base" = false) :
      sharedBaseFile.aliases.literalMembers guard n = [tags] := by
    rw [AliasTable.literalMembers_of_name hn, hguard, alias_base]
    exact (List.flatMap_singleton ..).trans (AliasTable.literalMembers_of_literal rfl)
  have hrow {guard : Guard} {n : Node} (hn : n.localTypeName? = some "Row")
      (hguard : guard.isActive "Row" = false)
      (hguard' : (guard.enter "Row").2.isActive "Base" = false) :
      sharedBaseFile.aliases.literalMembers guard n = [tags] := by
    rw [AliasTable.literalMembers_of_name hn, hguard, alias_row]
    exact (List.flatMap_singleton ..).trans (hbase rfl hguard')
  have hparts : (AliasTable.Walk.mk true false).parts? baseAndRow.kind = some [.element] := rfl
  rw [AliasTable.literalMembers_of_parts hparts]
  change _ ++ (_ ++ []) = _
  rw [hbase rfl rfl, hrow rfl rfl rfl]
  rfl

private theorem propsContract?_tagProps :
    tagProps.propsContract? sharedBaseFile.aliases = some tagPropsContract := by
  rw [tagPropsContract, ← literalMembers_baseAndRow]
  rfl

private theorem propsContracts_sharedBaseFile :
    sharedBaseFile.model.propsContracts sharedBaseFile.aliases = [tagPropsContract] := by
  rw [tagPropsContract, ← literalMembers_baseAndRow]
  rfl

/-- The finding about the tags. -/
private def arrayTags : Diagnostic :=
  ⟨⟨14, 28⟩, "noArrayProps", [("prop", "tags"), ("propsType", "TagProps")]⟩

private theorem check_sharedBaseFile :
    ArrayProps.check sharedBaseFile = [arrayTags, arrayTags] := by
  have harray : sharedBaseFile.shapes.isArray stringArray = true :=
    (AliasTable.meets_of_stop (w := .plain) (by rfl)).mpr (Or.inl (by rfl))
  have hfound : ArrayProps.about? sharedBaseFile.shapes tagPropsContract tags =
      some arrayTags := by
    change (if sharedBaseFile.shapes.isArray stringArray then some _ else none) = _
    rw [if_pos harray]
    rfl
  rw [ArrayProps.check_eq, propsContracts_sharedBaseFile, List.flatMap_singleton]
  simp only [tagPropsContract, List.filterMap_cons, List.filterMap_nil] at hfound ⊢
  rw [hfound]

/-- The declaration of the props comes to the tags on two routes, and two ways lead to the finding
about them. -/
theorem two_ways_to_shared_base :
    sharedBaseFile.model = .ofCst sharedBase ∧
    sharedBaseFile.aliases = .ofModel sharedBaseFile.model ∧
    (∃ route route', route ≠ route' ∧ sharedBaseFile.model.Contributes tagProps route tags ∧
      sharedBaseFile.model.Contributes tagProps route' tags) ∧
    sharedBaseFile.Repeats (ArrayProps.about? sharedBaseFile.shapes) arrayTags := by
  obtain ⟨hmembers, harrays, -⟩ :=
    @repeated_iff_two_ways sharedBase sharedBaseFile rfl rfl
  refine ⟨rfl, rfl, ?_, ?_⟩
  · refine (hmembers tagProps tagProps_mem _ propsContract?_tagProps tags).mp ?_
    exact List.duplicate_cons_self_iff.mpr (List.mem_singleton_self tags)
  · rw [← harrays, check_sharedBaseFile]
    exact List.duplicate_cons_self_iff.mpr (List.mem_singleton_self arrayTags)

/-- A base that props have by two names gives its members twice, and its array is reported twice. -/
theorem shared_base_is_reported_twice :
    (∃ contract ∈ sharedBaseFile.model.propsContracts sharedBaseFile.aliases,
      ¬ contract.members.Nodup) ∧
    ArrayProps.check sharedBaseFile = [arrayTags, arrayTags] := by
  refine ⟨⟨tagPropsContract, ?_, ?_⟩, check_sharedBaseFile⟩
  · rw [propsContracts_sharedBaseFile]
    exact List.mem_singleton_self _
  · exact (List.duplicate_cons_self_iff.mpr (List.mem_singleton_self tags)).not_nodup

end Subject

end TsxLint
