import TsxLint.Proofs.Rule.Findings
import TsxLint.Proofs.Rule.Frames
import TsxLint.Rule.InlineCall

/-!
# Findings of the core rules

For each check of a core rule, the forms of its findings, and that their spans are those of frames,
functions, calls, and the identifiers through which something is written.
-/

namespace TsxLint

/-! ### Sizes of functions -/

theorem Complexity.check_reports (options : Complexity.Options) :
    (check options).Reports [("complex", ["name", "complexity", "max"])] := by
  intro s hs d hd
  obtain ⟨frame, hframe, hd⟩ := List.mem_filterMap.mp hd
  rw [frames_eq] at hframe
  obtain ⟨n, hn, rfl⟩ := List.mem_map.mp hframe
  unfold report? at hd
  obtain ⟨opener, hopener, hd⟩ := Option.bind_eq_some_iff.mp hd
  obtain rfl := Option.some.inj hopener
  split_ifs at hd
  obtain rfl := Option.some.inj hd
  have hmem := hs.closed.postorder _ hs.root_mem n (List.mem_filter.mp hn).1
  exact ⟨List.mem_singleton_self _, n, hmem, rfl⟩

theorem MaxParams.check_reports (max : Nat) :
    (check max).Reports [("exceed", ["name", "count", "max"])] := by
  intro s hs d hd
  obtain ⟨function, hfunction, hd⟩ := List.mem_filterMap.mp hd
  dsimp only at hd
  split_ifs at hd
  obtain rfl := Option.some.inj hd
  exact ⟨List.mem_singleton_self _, function, (List.mem_filter.mp hfunction).1, rfl⟩

/-! ### Writes -/

namespace ExternalMutation

variable {P : Node → Prop} (h : Node.Closed P) {n m : Node}
include h

theorem written?_closed (hn : P n) (hm : written? n = some m) : P m := by
  unfold written? at hm
  split at hm
  · obtain ⟨target, htarget, hm⟩ := Option.bind_eq_some_iff.mp hm
    exact Node.Closed.asIdentifier? (h.get? hn htarget) hm
  · obtain ⟨argument, hargument, hm⟩ := Option.bind_eq_some_iff.mp hm
    exact Node.Closed.asIdentifier? (h.unwrapped argument (h.get? hn hargument)) hm
  · cases hm

theorem receiver?_closed (hn : P n) (hm : receiver? n = some m) : P m := by
  unfold receiver? at hm
  split at hm
  · obtain ⟨callee, hcallee, hm⟩ := Option.bind_eq_some_iff.mp hm
    split at hm
    · obtain ⟨object, hobject, hm⟩ := Option.bind_eq_some_iff.mp hm
      have hbare := h.unwrapped callee (h.get? hn hcallee)
      exact Node.Closed.asIdentifier? (h.get? hbare hobject) hm
    · cases hm
  · cases hm

end ExternalMutation

theorem ExternalMutation.check_reports : check.Reports
    [("noExternalBindingMutation", ["name"]),
      ("noExternalBindingCallRequiresReadonly", ["name"])] := by
  intro s hs d hd
  obtain ⟨n, hn, hd⟩ := List.mem_filterMap.mp hd
  unfold finding? at hd
  split at hd
  · rename_i identifier hwritten
    obtain ⟨symbol, -, rfl⟩ := Option.map_eq_some_iff.mp hd
    exact ⟨by simp [Diagnostic.form], identifier, written?_closed hs.closed hn hwritten, rfl⟩
  · obtain ⟨receiver, hreceiver, hd⟩ := Option.bind_eq_some_iff.mp hd
    obtain ⟨symbol, -, hd⟩ := Option.bind_eq_some_iff.mp hd
    split_ifs at hd
    obtain rfl := Option.some.inj hd
    exact ⟨by simp [Diagnostic.form], receiver, receiver?_closed hs.closed hn hreceiver, rfl⟩

namespace ParamReassign

variable {P : Node → Prop} (h : Node.Closed P) {n m : Node}
include h

theorem targetRoots_closed {form : TargetForm} {target : Option Node}
    (htarget : ∀ n, target = some n → P n) (hm : m ∈ targetRoots form target) : P m := by
  unfold targetRoots at hm
  split at hm
  · exact h.memberRoot? (htarget _ rfl) (Option.mem_toList.mp hm)
  · obtain ⟨expression, hexpression, hm⟩ := List.mem_filterMap.mp hm
    exact h.memberRoot? (h.patternTargets _ (htarget _ rfl) expression hexpression) hm
  · cases hm

theorem writtenRoots_closed (hn : P n) (hm : m ∈ writtenRoots n) : P m := by
  unfold writtenRoots at hm
  split at hm
  · exact targetRoots_closed h (fun _ => h.get? hn) hm
  · obtain ⟨argument, hargument, hm⟩ := Option.bind_eq_some_iff.mp (Option.mem_toList.mp hm)
    exact h.memberRoot? (h.get? hn hargument) hm
  · obtain ⟨argument, hargument, hm⟩ := Option.bind_eq_some_iff.mp (Option.mem_toList.mp hm)
    exact h.memberRoot? (h.get? hn hargument) hm
  · exact targetRoots_closed h (fun _ => h.get? hn) hm
  · cases hm

end ParamReassign

theorem ParamReassign.check_reports (props : Bool) : (check props).Reports
    [("assignmentToFunctionParam", ["name"]), ("assignmentToFunctionParamProp", ["name"])] := by
  intro s hs d hd
  rcases List.mem_append.mp (List.mem_mergeSort.mp hd) with hd | hd
  · obtain ⟨⟨symbol, index⟩, -, hd⟩ := List.mem_flatMap.mp hd
    obtain ⟨reference, -, hd⟩ := List.mem_filterMap.mp hd
    obtain ⟨n, hn, rfl⟩ := Option.map_eq_some_iff.mp hd
    obtain ⟨visit, hvisit, rfl⟩ := Option.map_eq_some_iff.mp hn
    have hmem : visit.node ∈ s.nodes :=
      List.mem_map.mpr ⟨visit, List.mem_of_find?_eq_some hvisit, rfl⟩
    exact ⟨by simp [Diagnostic.form], visit.node, hmem, rfl⟩
  · split_ifs at hd
    · obtain ⟨root, hroot, rfl⟩ := List.mem_map.mp hd
      obtain ⟨n, hn, hroot⟩ := List.mem_flatMap.mp (List.mem_filter.mp hroot).1
      exact ⟨by simp [Diagnostic.form], root, writtenRoots_closed hs.closed hn hroot, rfl⟩
    · cases hd

theorem PreferConst.initializedPatterns_closed {P : Node → Prop} (h : Node.Closed P) {n m : Node}
    (hn : P n) (hm : m ∈ initializedPatterns n) : P m := by
  unfold initializedPatterns at hm
  split at hm
  · obtain ⟨declarator, hdeclarator, hm⟩ := List.mem_filterMap.mp hm
    exact h.get? (h.all hn (List.mem_filter.mp hdeclarator).1) hm
  · exact h.get? hn (Option.mem_toList.mp hm)
  · cases hm

theorem PreferConst.check_reports : check.Reports [("useConst", ["name"])] := by
  intro s hs d hd
  obtain ⟨binder, hbinder, rfl⟩ := List.mem_map.mp hd
  obtain ⟨pattern, hpattern, hbinder⟩ := List.mem_flatMap.mp hbinder
  obtain ⟨n, hn, hpattern⟩ := List.mem_flatMap.mp hpattern
  have hmem := initializedPatterns_closed hs.closed hn hpattern
  unfold constants at hbinder
  split_ifs at hbinder
  · exact ⟨List.mem_singleton_self _, binder, hs.closed.binders pattern hmem binder hbinder, rfl⟩
  · cases hbinder

/-! ### Calls -/

theorem InlineCall.check_reports (options : InlineCall.Options) :
    (check options).Reports [("noCallInForHeader", []), ("noCallArg", [])] := by
  intro s hs d hd
  obtain ⟨visit, hvisit, hd⟩ := List.mem_filterMap.mp hd
  split at hd
  · obtain ⟨id, hid, rfl⟩ := Option.map_eq_some_iff.mp hd
    refine ⟨?_, visit.node, List.mem_map.mpr ⟨visit, hvisit, rfl⟩, rfl⟩
    unfold message? at hid
    split_ifs at hid
    all_goals
      obtain rfl := Option.some.inj hid
      simp [Diagnostic.form]
  · cases hd

end TsxLint
