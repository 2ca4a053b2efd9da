import TsxLint.Proofs.Data.FirstOccurrences
import TsxLint.Proofs.Data.Lookup
import TsxLint.Proofs.Rule.Findings
import TsxLint.Rule.Compound
import TsxLint.Rule.Hook
import TsxLint.Rule.Ownership

/-!
# Findings about functions and components

For each check of named functions, of what a module exports and of what components hand on, the
forms of its findings. Functions are reported at their names or as a whole, exports where the public
name is written, and props where the component binds them.
-/

namespace TsxLint

/-! ### Names of functions -/

/-- The checks that report named functions of some kind at their names. -/
theorem Subject.reportFunctions_reports (id : String) (p : NamedFunction → Bool) :
    Check.Reports (fun s => s.reportFunctions id p) [(id, ["name"])] := by
  intro s hs d hd
  obtain ⟨f, hf, rfl⟩ := List.mem_map.mp hd
  have hmem := (hs.namedFunction (List.mem_filter.mp hf).1).1
  exact ⟨List.mem_singleton_self _, f.nameNode, hmem, rfl⟩

theorem HandleName.candidate?_closed {P : Node → Prop} (h : Node.Closed P) {n m : Node} (hn : P n)
    (hm : candidate? n = some m) : P m := by
  have hname := (Option.filter_eq_some_iff.mp hm).1
  split at hname
  · exact h.get? hn hname
  · split_ifs at hname
    exact h.boundName? hn hname
  · cases hname

theorem HandleName.check_reports : check.Reports [("noHandlePrefixUtil", ["name"])] := by
  intro s hs d hd
  obtain ⟨name, hname, rfl⟩ := List.mem_map.mp hd
  obtain ⟨n, hn, hname⟩ := List.mem_filterMap.mp (List.mem_filter.mp hname).1
  exact ⟨List.mem_singleton_self _, name, candidate?_closed hs.closed hn hname, rfl⟩

namespace ContextHook

variable {P : Node → Prop} {n : Node} {entry : String × Span}

theorem exists_of_functionName (hn : P n) (hentry : entry ∈ functionName n) :
    ∃ m, P m ∧ m.span = entry.2 := by
  obtain ⟨name, -, rfl⟩ := Option.map_eq_some_iff.mp (Option.mem_toList.mp hentry)
  exact ⟨n, hn, rfl⟩

/-- An exported name is reported at the name, or at the function that bears it. -/
theorem exists_of_exportedNames (h : Node.Closed P) (hn : P n) (hentry : entry ∈ exportedNames n) :
    ∃ m, P m ∧ m.span = entry.2 := by
  unfold exportedNames at hentry
  split at hentry
  · split at hentry
    · rename_i declaration hdeclaration
      have hin := h.get? hn hdeclaration
      split at hentry
      · exact exists_of_functionName hin hentry
      · obtain ⟨name, hname, rfl⟩ := List.mem_map.mp hentry
        obtain ⟨declarator, hdeclarator, hname⟩ := List.mem_filterMap.mp hname
        exact ⟨name, h.boundName? (h.all hin hdeclarator) hname, rfl⟩
      · cases hentry
    · obtain ⟨name, hname, rfl⟩ := List.mem_map.mp hentry
      obtain ⟨specifier, hspecifier, hname⟩ := List.mem_filterMap.mp hname
      exact ⟨name, h.get? (h.all hn hspecifier) hname, rfl⟩
  · rcases List.mem_append.mp hentry with hentry | hentry
    · obtain ⟨name, hname, rfl⟩ := List.mem_map.mp hentry
      obtain ⟨expression, hexpression, hname⟩ :=
        Option.bind_eq_some_iff.mp (Option.mem_toList.mp hname)
      exact ⟨name, Node.Closed.asIdentifier? (h.get? hn hexpression) hname, rfl⟩
    · obtain ⟨declaration, hdeclaration, hentry⟩ := List.mem_flatMap.mp hentry
      split_ifs at hentry
      · exact exists_of_functionName (h.get? hn (Option.mem_toList.mp hdeclaration)) hentry
      · cases hentry
  · cases hentry

theorem check_reports : check.Reports [("noExportedContextHook", ["name"])] := by
  intro s hs d hd
  obtain ⟨⟨name, span⟩, hentry, rfl⟩ := List.mem_map.mp hd
  obtain ⟨n, hn, hentry⟩ := List.mem_flatMap.mp (List.mem_filter.mp hentry).1
  exact ⟨List.mem_singleton_self _, exists_of_exportedNames hs.closed hn hentry⟩

end ContextHook

/-! ### Families -/

theorem CompoundMarkup.check_reports :
    check.Reports [("preferMemberSyntax", ["name", "block", "part"])] := by
  intro s hs d hd
  obtain ⟨opening, hopening, hd⟩ := List.mem_filterMap.mp hd
  split at hd
  · obtain ⟨name, hname, hd⟩ := Option.bind_eq_some_iff.mp hd
    obtain ⟨parts, -, hd⟩ := Option.bind_eq_some_iff.mp hd
    obtain rfl := Option.some.inj hd
    exact ⟨List.mem_singleton_self _, name, hs.closed.plainName? hopening hname, rfl⟩
  · cases hd

namespace CompoundExport

variable {P : Node → Prop} (h : Node.Closed P) {n : Node}
include h

theorem declarators_closed {d : Node} (hn : P n) (hd : d ∈ declarators n) : P d := by
  unfold declarators at hd
  split at hd
  · rename_i declaration hdeclaration
    split at hd
    · exact h.all (h.get? hn hdeclaration) hd
    · cases hd
  · cases hd

/-- The public name of an export is a node, or stands for the whole specifier. -/
theorem exists_of_localExports {e : LocalExport} (hn : P n) (he : e ∈ localExports n) :
    ∃ m, P m ∧ m.span = e.span := by
  unfold localExports at he
  split_ifs at he
  · rcases List.mem_append.mp he with he | he
    · rcases List.mem_append.mp he with he | he
      · obtain ⟨declarator, hdeclarator, he⟩ := List.mem_filterMap.mp he
        obtain ⟨name, hname, rfl⟩ := Option.map_eq_some_iff.mp he
        have hin := declarators_closed h hn (List.mem_filter.mp hdeclarator).1
        exact ⟨name, h.boundName? hin hname, rfl⟩
      · obtain ⟨name, hname, rfl⟩ := Option.map_eq_some_iff.mp (Option.mem_toList.mp he)
        obtain ⟨function, hfunction, hname⟩ := Option.bind_eq_some_iff.mp hname
        have hin := h.get? hn (Option.filter_eq_some_iff.mp hfunction).1
        exact ⟨name, h.get? hin hname, rfl⟩
    · obtain ⟨specifier, hspecifier, rfl⟩ := List.mem_map.mp he
      have hin := h.all hn hspecifier
      unfold ofSpecifier
      cases hname : (specifier.get? .exported).or (specifier.get? .localName) with
      | none => exact ⟨specifier, hin, rfl⟩
      | some name =>
        refine ⟨name, ?_, rfl⟩
        rcases Option.or_eq_some_iff.mp hname with hname | ⟨-, hname⟩
        · exact h.get? hin hname
        · exact h.get? hin hname
  · cases he

theorem exists_of_partObjects {d : Diagnostic} (hn : P n) (hd : d ∈ partObjects n) :
    d.form = ("noRuntimeObjectExport", ["name"]) ∧ ∃ m, P m ∧ m.span = d.span := by
  unfold partObjects at hd
  split_ifs at hd
  · obtain ⟨name, hname, rfl⟩ := List.mem_map.mp hd
    obtain ⟨declarator, hdeclarator, hname⟩ := List.mem_filterMap.mp hname
    have hin := declarators_closed h hn (List.mem_filter.mp hdeclarator).1
    exact ⟨rfl, name, h.boundName? hin hname, rfl⟩
  · cases hd

omit h

variable {block : String} {exports : List LocalExport}

theorem mem_of_mem_partExports {entry : LocalExport × String}
    (hentry : entry ∈ partExports block exports) : entry.1 ∈ exports := by
  obtain ⟨e, he, hentry⟩ := List.mem_filterMap.mp hentry
  obtain ⟨part, -, rfl⟩ := Option.map_eq_some_iff.mp hentry
  exact he

theorem exists_of_partAliases {d : Diagnostic} (hd : d ∈ partAliases block exports) :
    d.form = ("requirePartAlias", ["local", "part", "block"]) ∧
      ∃ e ∈ exports, e.span = d.span := by
  obtain ⟨⟨e, part⟩, hentry, rfl⟩ := List.mem_map.mp hd
  have hmem := mem_of_mem_partExports (mem_of_mem_firstByKey (List.mem_filter.mp hentry).1)
  exact ⟨rfl, e, hmem, rfl⟩

theorem exists_of_rootAlias {d : Diagnostic} (hd : rootAlias block exports = some d) :
    (d.form = ("requireRootExport", ["block"]) ∨ d.form = ("requireRootAlias", ["block"])) ∧
      ∃ e ∈ exports, e.span = d.span := by
  obtain ⟨⟨first, part⟩, hfirst, hd⟩ := Option.bind_eq_some_iff.mp hd
  dsimp only at hd
  split at hd
  · obtain rfl := Option.some.inj hd
    exact ⟨Or.inl rfl, first, mem_of_mem_partExports (List.mem_of_head? hfirst), rfl⟩
  · rename_i root others hroots
    split_ifs at hd
    obtain rfl := Option.some.inj hd
    have hroot : root ∈ exports.filter (·.localName == block) := hroots ▸ List.mem_cons_self
    exact ⟨Or.inr rfl, root, (List.mem_filter.mp hroot).1, rfl⟩

theorem check_reports : check.Reports
    [("requirePartAlias", ["local", "part", "block"]), ("requireRootAlias", ["block"]),
      ("requireRootExport", ["block"]), ("noRuntimeObjectExport", ["name"])] := by
  intro s hs d hd
  have hexport {e : LocalExport} (he : e ∈ s.nodes.flatMap localExports) : s.Locates e.span := by
    obtain ⟨n, hn, he⟩ := List.mem_flatMap.mp he
    exact exists_of_localExports hs.closed hn he
  rcases List.mem_append.mp (List.mem_mergeSort.mp hd) with hd | hd
  · obtain ⟨n, hn, hd⟩ := List.mem_flatMap.mp hd
    obtain ⟨hform, hspan⟩ := exists_of_partObjects hs.closed hn hd
    exact ⟨by simp [hform], hspan⟩
  · split at hd
    · rcases List.mem_append.mp hd with hd | hd
      · obtain ⟨hform, e, he, hspan⟩ := exists_of_partAliases hd
        exact ⟨by simp [hform], hspan ▸ hexport he⟩
      · obtain ⟨hform, e, he, hspan⟩ := exists_of_rootAlias (Option.mem_toList.mp hd)
        refine ⟨?_, hspan ▸ hexport he⟩
        rcases hform with hform | hform <;> simp [hform]
    · cases hd

end CompoundExport

/-! ### Ownership -/

theorem Model.exists_of_forwardedProps {m : Model} {f : NamedFunction} {includeRest : Bool}
    {prop : ForwardedProp} (h : prop ∈ m.forwardedProps f includeRest) :
    prop.binding ∈ propBindings f.params includeRest := by
  obtain ⟨binding, hbinding, h⟩ := List.mem_filterMap.mp h
  split_ifs at h
  obtain ⟨symbol, -, h⟩ := Option.bind_eq_some_iff.mp h
  dsimp only at h
  split_ifs at h
  obtain ⟨uses, -, rfl⟩ := Option.map_eq_some_iff.mp h
  exact hbinding

/-- A forwarded prop is bound by a parameter of its component. -/
theorem Subject.Complete.forwardedProp {s : Subject} (h : s.Complete) {f : NamedFunction}
    (hf : f ∈ s.model.components) {includeRest : Bool} {prop : ForwardedProp}
    (hprop : prop ∈ s.model.forwardedProps f includeRest) : prop.binding.binder ∈ s.nodes := by
  have hfunction := (h.namedFunction (List.mem_filter.mp hf).1).2
  exact h.closed.propBindings (fun _ hparam => h.closed.all hfunction hparam)
    (Model.exists_of_forwardedProps hprop)

theorem mem_of_lastUnder? {α : Type} {key : String} {entries : List (String × α)} {a : α}
    (h : lastUnder? key entries = some a) : (key, a) ∈ entries :=
  List.mem_reverse.mp (mem_of_lookup h)

theorem PropDrilling.check_reports (options : PropDrilling.Options) : (check options).Reports
    [("noPropDrilling", ["prop", "component", "forwardedTo", "depth", "allowedDepth"])] := by
  intro s hs d hd
  obtain ⟨flagged, -, hd⟩ := List.mem_flatMap.mp hd
  obtain ⟨prop, hprop, rfl⟩ := List.mem_map.mp hd
  cases hlast : lastUnder? flagged.name (forwarders options s.model) with
  | none =>
    rw [hlast] at hprop
    cases hprop
  | some props =>
    rw [hlast] at hprop
    obtain ⟨component, hcomponent, heq⟩ :=
      List.mem_map.mp (List.mem_filter.mp (mem_of_lastUnder? hlast)).1
    obtain ⟨-, rfl⟩ := Prod.mk.inj heq
    have hmem := hs.forwardedProp hcomponent hprop
    exact ⟨List.mem_singleton_self _, prop.binding.binder, hmem, rfl⟩

theorem PassThrough.check_reports :
    check.Reports [("noPassThroughProp", ["prop", "component", "forwardedTo"])] := by
  intro s hs d hd
  obtain ⟨component, hcomponent, hd⟩ := List.mem_flatMap.mp hd
  obtain ⟨prop, hprop, rfl⟩ := List.mem_map.mp hd
  have hmem := hs.forwardedProp hcomponent (List.mem_filter.mp hprop).1
  exact ⟨List.mem_singleton_self _, prop.binding.binder, hmem, rfl⟩

theorem OwnerTree.check_reports (allowed : Nat) : (check allowed).Reports
    [("deepParentTree", ["component", "depth", "allowedDepth", "chain", "nextHandoff"])] := by
  intro s hs d hd
  obtain ⟨flagged, -, hd⟩ := List.mem_filterMap.mp hd
  obtain ⟨span, hspan, rfl⟩ := Option.map_eq_some_iff.mp hd
  obtain ⟨component, hcomponent, heq⟩ := List.mem_map.mp (mem_of_lastUnder? hspan)
  obtain ⟨-, rfl⟩ := Prod.mk.inj heq
  exact ⟨List.mem_singleton_self _, hs.reportSpan (List.mem_filter.mp hcomponent).1⟩

end TsxLint
