import TsxLint.Proofs.Rule.Findings
import TsxLint.Rule.HandlerContract
import TsxLint.Rule.HandlerName

/-!
# Findings about props

For each check of the attributes in markup and of the contracts of props, the forms of its findings.
Attributes are reported at their names, members of contracts at their keys or as a whole. A member
may be found through aliases; it is still one of the file.
-/

namespace TsxLint

/-! ### Names of attributes -/

theorem TitleCase.check_reports : check.Reports [("noTitleCase", ["suggestion", "prop"])] := by
  intro s hs d hd
  obtain ⟨a, ha, rfl⟩ := List.mem_map.mp hd
  exact ⟨List.mem_singleton_self _, hs.attributeName (List.mem_filter.mp ha).1⟩

theorem KebabCase.check_reports : check.Reports [("noCustomKebab", ["prop"])] := by
  intro s hs d hd
  obtain ⟨a, ha, rfl⟩ := List.mem_map.mp hd
  exact ⟨List.mem_singleton_self _, hs.attributeName (List.mem_filter.mp ha).1⟩

theorem PropBundle.members_closed {P : Node → Prop} (h : Node.Closed P) {opening name : Node}
    {word : String} (hopening : P opening) (hname : (word, name) ∈ members opening) : P name := by
  obtain ⟨item, hitem, hname⟩ := List.mem_filterMap.mp hname
  split at hname
  · obtain ⟨found, hfound, hname⟩ := Option.bind_eq_some_iff.mp hname
    obtain ⟨first, -, heq⟩ := Option.map_eq_some_iff.mp hname
    obtain ⟨-, rfl⟩ := Prod.mk.inj heq
    exact h.plainName? (h.all hopening hitem) hfound
  · cases hname

theorem PropBundle.check_reports (threshold : Nat) :
    (check threshold).Reports [("noPrefixedPropBundle", ["prop", "prefix", "count"])] := by
  intro s hs d hd
  obtain ⟨opening, hopening, hd⟩ := List.mem_flatMap.mp hd
  split at hd
  · obtain ⟨⟨word, names⟩, hbundle, hd⟩ := List.mem_flatMap.mp hd
    obtain ⟨word', -, heq⟩ := List.mem_map.mp hbundle
    obtain ⟨rfl, rfl⟩ := Prod.mk.inj heq
    dsimp only at hd
    split_ifs at hd
    · cases hd
    · obtain ⟨name, hname, rfl⟩ := List.mem_map.mp hd
      obtain ⟨⟨first, name⟩, hmember, rfl⟩ := List.mem_map.mp hname
      have hmem := members_closed hs.closed hopening (List.mem_filter.mp hmember).1
      exact ⟨List.mem_singleton_self _, name, hmem, rfl⟩
  · cases hd

/-! ### Handlers -/

theorem VerbSuffix.check_reports (verbs : List String) : (check verbs).Reports
    [("preferVerbSuffix", ["suggestion", "prop"]), ("mustEndWithVerb", ["prop"])] := by
  intro s hs d hd
  obtain ⟨a, ha, hd⟩ := List.mem_filterMap.mp hd
  have hspan := hs.attributeName ha
  unfold finding? at hd
  split_ifs at hd
  split at hd
  all_goals
    obtain rfl := Option.some.inj hd
    exact ⟨by simp [Diagnostic.form], hspan⟩

theorem NounVerb.check_reports (words : NounVerb.Words) :
    (check words).Reports [("preferNounVerb", ["prop", "suggestion"])] := by
  intro s hs d hd
  obtain ⟨a, ha, hd⟩ := List.mem_filterMap.mp hd
  obtain ⟨suggestion, -, rfl⟩ := Option.map_eq_some_iff.mp hd
  exact ⟨List.mem_singleton_self _, hs.attributeName ha⟩

theorem Subject.mem_nodes_of_signature {s : Subject} {p : Node → Bool}
    {entry : String × Node × Node} (h : entry ∈ s.signaturesReturning p) :
    entry.2.1 ∈ s.nodes := by
  obtain ⟨n, hn, h⟩ := List.mem_filterMap.mp h
  obtain ⟨returned, -, h⟩ := Option.bind_eq_some_iff.mp h
  obtain ⟨key, -, h⟩ := Option.bind_eq_some_iff.mp h
  obtain rfl := Option.some.inj h
  exact hn

theorem HandlerReturn.check_reports :
    check.Reports [("noHandlerReturnType", ["prop", "returnType"])] := by
  intro s hs d hd
  obtain ⟨entry, hentry, rfl⟩ := List.mem_map.mp hd
  have hmem := Subject.mem_nodes_of_signature (List.mem_filter.mp hentry).1
  exact ⟨List.mem_singleton_self _, entry.2.1, hmem, rfl⟩

theorem ActionName.check_reports :
    check.Reports [("asyncPropRequiresActionName", ["prop", "returnType"])] := by
  intro s hs d hd
  obtain ⟨entry, hentry, rfl⟩ := List.mem_map.mp hd
  have hmem := Subject.mem_nodes_of_signature (List.mem_filter.mp hentry).1
  exact ⟨List.mem_singleton_self _, entry.2.1, hmem, rfl⟩

/-! ### Types of props -/

theorem Contract.mem_members_of_typedProperties {c : Contract} {entry : Node × Node}
    (h : entry ∈ c.typedProperties) : entry.1 ∈ c.members := by
  obtain ⟨property, hproperty, h⟩ := List.mem_filterMap.mp h
  obtain ⟨type, -, rfl⟩ := Option.map_eq_some_iff.mp h
  exact (List.mem_filter.mp hproperty).1

namespace Subject.Complete

variable {s : Subject} (h : s.Complete) {entry : Node × Node}
include h

theorem typedProperty (hentry : entry ∈ s.model.contracts.flatMap Contract.typedProperties) :
    entry.1 ∈ s.nodes := by
  obtain ⟨c, hc, hentry⟩ := List.mem_flatMap.mp hentry
  exact (h.contract hc).2 _ (Contract.mem_members_of_typedProperties hentry)

theorem typedProperty_of_props {c : Contract} (hc : c ∈ s.model.propsContracts s.aliases)
    (hentry : entry ∈ c.typedProperties) : entry.1 ∈ s.nodes :=
  h.propsContract hc _ (Contract.mem_members_of_typedProperties hentry)

end Subject.Complete

theorem ElementProps.check_reports : check.Reports
    [("noElementPropsReactNode", ["prop"]), ("noElementPropsReactElement", ["prop"])] := by
  intro s hs d hd
  obtain ⟨entry, hentry, hd⟩ := List.mem_filterMap.mp hd
  obtain ⟨key, hkey, hd⟩ := Option.bind_eq_some_iff.mp hd
  obtain ⟨kind, -, hd⟩ := Option.bind_eq_some_iff.mp hd
  obtain rfl := Option.some.inj hd
  refine ⟨?_, key, hs.closed.identifierKey? (hs.typedProperty hentry) hkey, rfl⟩
  cases kind <;> simp [Diagnostic.form, message]

theorem ComponentTypeProps.check_reports :
    check.Reports [("noComponentTypeProps", ["prop"])] := by
  intro s hs d hd
  obtain ⟨entry, hentry, hd⟩ := List.mem_filterMap.mp hd
  obtain ⟨key, hkey, hd⟩ := Option.bind_eq_some_iff.mp hd
  split_ifs at hd
  obtain rfl := Option.some.inj hd
  have hmem := hs.closed.identifierKey? (hs.typedProperty hentry) hkey
  exact ⟨List.mem_singleton_self _, key, hmem, rfl⟩

theorem ObjectProps.check_reports (ignore : Naming.GlobList) : (check ignore).Reports
    [("noObjectProps", ["prop", "propsType"]), ("noObjectPropsValue", ["prop"])] := by
  intro s hs d hd
  rcases List.mem_append.mp hd with hd | hd
  · obtain ⟨c, hc, hd⟩ := List.mem_flatMap.mp hd
    obtain ⟨⟨property, type⟩, hentry, hd⟩ := List.mem_filterMap.mp hd
    obtain ⟨prop, -, hd⟩ := Option.bind_eq_some_iff.mp hd
    split_ifs at hd
    obtain rfl := Option.some.inj hd
    exact ⟨by simp [Diagnostic.form], property, hs.typedProperty_of_props hc hentry, rfl⟩
  · obtain ⟨a, ha, hd⟩ := List.mem_filterMap.mp hd
    obtain ⟨name, -, hd⟩ := Option.bind_eq_some_iff.mp hd
    obtain ⟨value, hvalue, hd⟩ := Option.bind_eq_some_iff.mp hd
    have hmem := hs.closed.get? (Subject.mem_nodes_of_attribute ha) hvalue
    split at hd
    · obtain ⟨expression, -, hd⟩ := Option.bind_eq_some_iff.mp hd
      split_ifs at hd
      obtain rfl := Option.some.inj hd
      exact ⟨by simp [Diagnostic.form], value, hmem, rfl⟩
    · cases hd

theorem ArrayProps.check_reports : check.Reports [("noArrayProps", ["prop", "propsType"])] := by
  intro s hs d hd
  obtain ⟨c, hc, hd⟩ := List.mem_flatMap.mp hd
  obtain ⟨⟨property, type⟩, hentry, rfl⟩ := List.mem_map.mp hd
  have hmem := hs.typedProperty_of_props hc (List.mem_filter.mp hentry).1
  exact ⟨List.mem_singleton_self _, property, hmem, rfl⟩

/-! ### Contracts of props -/

theorem OptionalProps.check_reports (ignore : Naming.GlobList) :
    (check ignore).Reports [("noOptionalPropWithoutDefault", ["component", "prop"])] := by
  intro s hs d hd
  obtain ⟨component, hcomponent, hd⟩ := List.mem_flatMap.mp hd
  have hfunction := (hs.namedFunction (List.mem_filter.mp hcomponent).1).2
  unfold findings at hd
  split at hd
  · cases hd
  · rename_i param hparam
    have hmem := hs.closed.all hfunction (List.mem_of_head? hparam)
    split at hd
    · cases hd
    · obtain ⟨prop, -, rfl⟩ := List.mem_map.mp hd
      exact ⟨List.mem_singleton_self _, param, hmem, rfl⟩

theorem BooleanProps.check_reports (ignore : List String) :
    (check ignore).Reports [("noBooleanCapabilityProp", ["prop", "handlerPrefix"])] := by
  intro s hs d hd
  obtain ⟨c, hc, hd⟩ := List.mem_flatMap.mp hd
  obtain ⟨⟨name, member⟩, hmember, rfl⟩ := List.mem_map.mp hd
  have hnamed : (name, member) ∈ namedMembers ignore c :=
    (List.mem_filter.mp (List.mem_filter.mp hmember).1).1
  obtain ⟨found, hfound, hkey⟩ := List.mem_filterMap.mp (List.mem_filter.mp hnamed).1
  obtain ⟨key, -, heq⟩ := Option.map_eq_some_iff.mp hkey
  obtain ⟨-, rfl⟩ := Prod.mk.inj heq
  have hmem := hs.propsContract hc found hfound
  refine ⟨List.mem_singleton_self _, ?_⟩
  dsimp only
  cases hnode : found.keyNode? with
  | none => exact ⟨found, hmem, rfl⟩
  | some node => exact ⟨node, hs.closed.keyNode? hmem hnode, rfl⟩

theorem MaxProps.check_reports (options : MaxProps.Options) :
    (check options).Reports [("maxCustomProps", ["name", "count", "threshold"])] := by
  intro s hs d hd
  obtain ⟨c, hc, rfl⟩ := List.mem_map.mp hd
  exact ⟨List.mem_singleton_self _, (hs.contract (List.mem_filter.mp hc).1).1⟩

end TsxLint
