import TsxLint.Proofs.Binding.EnclosingFunction
import TsxLint.Proofs.Rule.CoreFindings

/-!
# Writes to foreign bindings

References are marked as writes by a look at the nodes around them; the rule about foreign bindings
looks for writes of its own, at assignments and updates. Both find the same identifier where such a
node holds it, wrappers aside, and then both see the same function around it. The references that
are marked beyond these are the names of a pattern that is assigned to and the identifier in the
head of a loop: they are writes that the rule does not look for.

## Main definitions

* `Model.IsForeignWrite`, `Model.IsLocalWrite`: a reference that writes to a binding which the
  function around it does not own, or owns.
* `Visit.IsIndirect`: a write that is no target of an assignment of its own and no argument of an
  update.

## Main results

* `Model.written?_eq_some_iff`: which identifier an assignment or an update is found to write.
* `Model.enclosingFunction?_holder`: the function around an identifier is that around what holds it.
* `Model.foreign_writes_reported_unless_indirect`: which writes are reported.
-/

namespace TsxLint

/-! ### Identifiers inside wrappers -/

/-- Whether a node writes to the identifier that it holds, wrappers aside: an assignment that says
that its target is one, or an update. -/
def Kind.writesDirectly : Kind → Bool
  | assignmentExpression _ .identifier => true
  | kind => kind.isUpdate

/-- Whether a node is a loop over the parts of a value. -/
def Kind.isForIn : Kind → Bool
  | forInStatement .. => true
  | _ => false

/-- The visit is one to a name of a pattern, or to an identifier that a loop holds, wrappers
aside. -/
def Visit.IsIndirect (v : Visit) : Prop :=
  v.node.kind.bindsNames = true ∨ ∃ holder, v.holder? = some holder ∧ holder.kind.isForIn = true

namespace Kind

variable {kind : Kind}

theorem not_wrapper_of_writesDirectly (h : kind.writesDirectly = true) :
    kind.isWrapper = false ∧ kind.isForIn = false := by
  unfold writesDirectly at h
  split at h
  · exact ⟨rfl, rfl⟩
  · unfold isUpdate at h
    split at h
    · exact ⟨rfl, rfl⟩
    · cases h

theorem writesDirectly_or_isForIn (h : kind.targetForm? = some .identifier) :
    kind.writesDirectly = true ∨ kind.isForIn = true := by
  unfold targetForm? at h
  split at h
  · cases h
    exact Or.inl rfl
  · exact Or.inr rfl
  · cases h

theorem writesDirectly_of_isUpdate (h : kind.isUpdate = true) : kind.writesDirectly = true := by
  unfold writesDirectly
  split
  · rfl
  · exact h

theorem bindsNames_of_isIdentifier (h : kind.isIdentifier = true) : kind.bindsNames = false := by
  unfold isIdentifier at h
  split at h
  · rfl
  · cases h

theorem isFunctionLike_of_writesDirectly {n : Node} (h : n.kind.writesDirectly = true) :
    n.isFunctionLike = false := by
  unfold Node.isFunctionLike
  split
  · simp_all [writesDirectly, isUpdate]
  · simp_all [writesDirectly, isUpdate]
  · rfl

theorem isFunctionLike_of_isWrapper {n : Node} (h : n.kind.isWrapper = true) :
    n.isFunctionLike = false := by
  unfold Node.isFunctionLike
  split
  · simp_all [isWrapper]
  · simp_all [isWrapper]
  · rfl

end Kind

namespace Node

section

variable {root : Node}

mutual

/-- Between a node and what it stands for there are wrappers only. -/
theorem unwrapped_mem_paths : (n : Node) → {outer : List Node} → (n, outer) ∈ root.paths [] →
    ∃ inner, (n.unwrapped, inner ++ outer) ∈ root.paths [] ∧
      ∀ w ∈ inner, w.kind.isWrapper = true
  | ⟨role, id, kind, span, children⟩, outer, h => by
    cases hkind : kind.isWrapper with
    | false =>
      rw [unwrapped_of_not_isWrapper hkind]
      exact ⟨[], h, nofun⟩
    | true =>
      rw [unwrapped_of_isWrapper hkind]
      exact unwrappedIn_mem_paths hkind h children fun b hb => hb

theorem unwrappedIn_mem_paths {w : Node} {outer : List Node} (hw : w.kind.isWrapper = true)
    (h : (w, outer) ∈ root.paths []) : (ns : List Node) → (∀ b ∈ ns, b ∈ w.children) →
    ∃ inner, (unwrappedIn w ns, inner ++ outer) ∈ root.paths [] ∧
      ∀ w ∈ inner, w.kind.isWrapper = true
  | [], _ => ⟨[], by rwa [unwrappedIn], nofun⟩
  | n :: ns, hns => by
    rw [unwrappedIn]
    split_ifs
    · obtain ⟨inner, hinner, hwrappers⟩ :=
        unwrapped_mem_paths n (child_mem_paths root h (hns n List.mem_cons_self))
      refine ⟨inner ++ [w], by rwa [List.append_assoc], fun v hv => ?_⟩
      rcases List.mem_append.mp hv with hv | hv
      · exact hwrappers v hv
      · rwa [List.mem_singleton.mp hv]
    · exact unwrappedIn_mem_paths hw h ns fun b hb => hns b (List.mem_cons_of_mem n hb)

end

end

/-- Going outwards from what a node stands for, the first node that is no wrapper is the first one
around the node. -/
theorem find?_not_wrapper_append {inner outer : List Node}
    (hinner : ∀ w ∈ inner, w.kind.isWrapper = true) :
    (inner ++ outer).find? (fun n => !n.kind.isWrapper) =
      outer.find? fun n => !n.kind.isWrapper := by
  rw [List.find?_append, List.find?_eq_none.mpr fun w hw => by simp [hinner w hw],
    Option.none_or]

end Node

namespace Model

variable {c : Cst}

/-! ### Two ways to find a write -/

/-- An assignment or an update is found to write exactly the identifier expression that it holds,
wrappers aside, and whose reference is marked as a write. -/
theorem written?_eq_some_iff {v : Visit} (hv : v ∈ (ofCst c).visits) {n : Node}
    (hn : n ∈ (ofCst c).nodes) :
    ExternalMutation.written? n = some v.node ↔ v.node.kind.isIdentifier = true ∧
      v.holder? = some n ∧ n.kind.writesDirectly = true ∧ v.access.isWrite = true := by
  have hids := Program.ofCst_nodup c
  have hplace := place_mem_of_mem_visits hv
  obtain ⟨outer, houter⟩ := exists_place_of_mem_nodes hn
  constructor
  · intro h
    unfold ExternalMutation.written? at h
    split at h
    · rename_i operator hk
      obtain ⟨target, htarget, hidentifier⟩ := Option.bind_eq_some_iff.mp h
      obtain ⟨rfl, hkind⟩ := Node.asIdentifier?_eq_some_iff.mp hidentifier
      have hchild := Node.child_mem_paths _ houter (List.mem_of_find?_eq_some htarget)
      obtain ⟨-, hancestors⟩ := Node.eq_of_mem_paths hids hchild hplace rfl
      have hdirect : n.kind.writesDirectly = true := by rw [hk]; rfl
      have hholder : v.holder? = some n := by
        rw [Visit.holder?, ← hancestors, List.find?_cons_of_pos
          (by simp [(Kind.not_wrapper_of_writesDirectly hdirect).1])]
      refine ⟨hkind, hholder, hdirect, (Visit.access_isWrite_iff_holder v).mpr ?_⟩
      exact ⟨n, hholder, Or.inl ⟨by rw [hk]; rfl, .target, v.node, by rw [hk]; rfl, htarget, rfl⟩⟩
    · rename_i hk
      obtain ⟨argument, hargument, hidentifier⟩ := Option.bind_eq_some_iff.mp h
      obtain ⟨hunwrapped, hkind⟩ := Node.asIdentifier?_eq_some_iff.mp hidentifier
      have hchild := Node.child_mem_paths _ houter (List.mem_of_find?_eq_some hargument)
      obtain ⟨inner, hinner, hwrappers⟩ := Node.unwrapped_mem_paths argument hchild
      rw [hunwrapped] at hinner
      obtain ⟨-, hancestors⟩ := Node.eq_of_mem_paths hids hinner hplace rfl
      have hdirect : n.kind.writesDirectly = true := by rw [hk]; rfl
      have hholder : v.holder? = some n := by
        rw [Visit.holder?, ← hancestors, Node.find?_not_wrapper_append hwrappers,
          List.find?_cons_of_pos (by simp [(Kind.not_wrapper_of_writesDirectly hdirect).1])]
      refine ⟨hkind, hholder, hdirect, (Visit.access_isWrite_iff_holder v).mpr ?_⟩
      exact ⟨n, hholder, Or.inr ⟨by rw [hk]; rfl, argument, hargument, by rw [hunwrapped]⟩⟩
    · cases h
  · rintro ⟨hidentifier, hholder, hdirect, hwrite⟩
    obtain ⟨holder, hholder', hwrite⟩ := (Visit.access_isWrite_iff_holder v).mp hwrite
    obtain rfl : n = holder := Option.some.inj (hholder.symm.trans hholder')
    rcases hwrite with ⟨hform, role, m, hrole, hm, hid⟩ | ⟨hupdate, m, hm, hid⟩
    · have hchild := Node.child_mem_paths _ houter (List.mem_of_find?_eq_some hm)
      obtain ⟨rfl, -⟩ := Node.eq_of_mem_paths hids hchild hplace hid
      unfold Kind.writesDirectly at hdirect
      split at hdirect
      · rename_i operator hk
        rw [hk] at hrole
        cases hrole
        simp only [ExternalMutation.written?, hk]
        rw [hm, Option.bind_some]
        exact Node.asIdentifier?_eq_some_iff.mpr ⟨rfl, hidentifier⟩
      · have hupdate := (Kind.nameRoles?_of_targetRole? hrole).2.2.1
        rw [hdirect] at hupdate
        cases hupdate
    · have hchild := Node.child_mem_paths _ houter (List.mem_of_find?_eq_some hm)
      obtain ⟨inner, hinner, -⟩ := Node.unwrapped_mem_paths m hchild
      obtain ⟨hunwrapped, -⟩ := Node.eq_of_mem_paths hids hinner hplace hid
      unfold Kind.isUpdate at hupdate
      split at hupdate
      · rename_i operator isPrefix hk
        simp only [ExternalMutation.written?, hk]
        rw [hm, Option.bind_some]
        exact Node.asIdentifier?_eq_some_iff.mpr ⟨hunwrapped, hidentifier⟩
      · cases hupdate

/-- The function around an identifier is the one around the assignment or update that holds it. -/
theorem enclosingFunction?_holder {v : Visit} (hv : v ∈ (ofCst c).visits) {n : Node}
    (hholder : v.holder? = some n) (hdirect : n.kind.writesDirectly = true) :
    (ofCst c).enclosingFunction? n.id = (ofCst c).enclosingFunction? v.node.id := by
  have hancestors := ancestors_of_place (place_mem_of_mem_visits hv)
  obtain ⟨-, inner, outer, hsplit, hinner⟩ := List.find?_eq_some_iff_append.mp hholder
  rw [hsplit] at hancestors
  have hwrappers : inner.find? Node.isFunctionLike = none := by
    refine List.find?_eq_none.mpr fun w hw => ?_
    rw [Kind.isFunctionLike_of_isWrapper (by simpa using hinner w hw)]
    exact Bool.false_ne_true
  rw [enclosingFunction?, enclosingFunction?, (isTree_ofCst c).ancestors_of_eq_append hancestors,
    hancestors, List.find?_append, hwrappers, Option.none_or,
    List.find?_cons_of_neg (by simp [Kind.isFunctionLike_of_writesDirectly hdirect])]

/-! ### Foreign writes -/

/-- A reference that is marked as a write, inside of a function to which its symbol is foreign: a
parameter, or declared elsewhere. -/
structure IsForeignWrite (m : Model) (r : Reference) : Prop where
  isWrite : r.access.isWrite = true
  isForeign : ∃ f k, m.enclosingFunction? r.node = some f ∧ r.symbol = some k ∧
    (m.functionState f.id).classify k ≠ .localName

/-- A reference that is marked as a write, inside of a function of which its symbol is a local. -/
structure IsLocalWrite (m : Model) (r : Reference) : Prop where
  isWrite : r.access.isWrite = true
  isLocal : ∃ f k, m.enclosingFunction? r.node = some f ∧ r.symbol = some k ∧
    (m.functionState f.id).classify k = .localName

theorem IsLocalWrite.not_isForeignWrite {m : Model} {r : Reference} (h : m.IsLocalWrite r) :
    ¬ m.IsForeignWrite r := by
  rintro ⟨-, f, k, hf, hk, hforeign⟩
  obtain ⟨f', k', hf', hk', hlocal⟩ := h.isLocal
  obtain rfl := Option.some.inj (hf.symm.trans hf')
  obtain rfl := Option.some.inj (hk.symm.trans hk')
  exact hforeign hlocal

/-- The visit to an identifier expression that is written makes a reference that says so. -/
theorem exists_reference_of_isIdentifier {v : Visit} (hv : v ∈ (ofCst c).visits)
    (hidentifier : v.node.kind.isIdentifier = true) :
    ∃ r ∈ (ofCst c).references, r.node = v.node.id ∧ r.name = v.node.label ∧
      r.access = v.access := by
  unfold Kind.isIdentifier at hidentifier
  split at hidentifier
  · rename_i name hk
    have huse : v.use? [] = some (name, v.access) := by simp only [Visit.use?, hk]
    obtain ⟨r, hr, hnode, hname, haccess⟩ := exists_mem_of_use? hv huse
    refine ⟨r, hr, hnode, hname.trans ?_, haccess⟩
    rw [Node.label, Node.nameText?, hk]
    rfl
  · cases hidentifier

theorem resolve?_of_mem {r : Reference} (hr : r ∈ (ofCst c).references) :
    (ofCst c).resolve? r.node = r.symbol := by
  obtain ⟨i, hi⟩ := List.getElem?_of_mem hr
  rw [resolve?, referenceAt?_of_getElem? hi, Option.bind_some]

theorem foreignSymbol?_ne_none_iff_classify {m : Model} {position : Nat} {identifier : Node} :
    m.foreignSymbol? position identifier ≠ none ↔ ∃ f k, m.enclosingFunction? position = some f ∧
      m.resolve? identifier.id = some k ∧ (m.functionState f.id).classify k ≠ .localName := by
  rw [foreignSymbol?]
  cases m.enclosingFunction? position with
  | none => simp
  | some f =>
    cases m.resolve? identifier.id with
    | none => simp
    | some k =>
      by_cases hlocal : (m.functionState f.id).classify k = .localName
      · simp [provenance, hlocal]
      · simp [provenance, hlocal]

/-- The reference of an identifier that an assignment or update holds writes to a foreign binding
exactly if the rule finds the symbol to be foreign. -/
theorem isForeignWrite_iff {v : Visit} (hv : v ∈ (ofCst c).visits) {n : Node}
    (hn : n ∈ (ofCst c).nodes) (hwritten : ExternalMutation.written? n = some v.node)
    {r : Reference} (hr : r ∈ (ofCst c).references) (hnode : r.node = v.node.id) :
    (ofCst c).IsForeignWrite r ↔
      r.access.isWrite = true ∧ (ofCst c).foreignSymbol? n.id v.node ≠ none := by
  obtain ⟨-, hholder, hdirect, -⟩ := (written?_eq_some_iff hv hn).mp hwritten
  rw [foreignSymbol?_ne_none_iff_classify, enclosingFunction?_holder hv hholder hdirect, ← hnode,
    resolve?_of_mem hr]
  exact ⟨fun h => ⟨h.isWrite, h.isForeign⟩, fun h => ⟨h.1, h.2⟩⟩

/-- A mutation is reported at an identifier that some node is found to write and whose symbol is
foreign. -/
theorem mem_mutations_iff {s : Subject} {d : Diagnostic} :
    d ∈ ExternalMutation.check s ∧ d.id = "noExternalBindingMutation" ↔
      ∃ n ∈ s.nodes, ∃ identifier, ExternalMutation.written? n = some identifier ∧
        s.model.foreignSymbol? n.id identifier ≠ none ∧
        d = ⟨identifier.span, "noExternalBindingMutation", [("name", identifier.label)]⟩ := by
  rw [ExternalMutation.check, List.mem_filterMap]
  constructor
  · rintro ⟨⟨n, hn, hd⟩, hid⟩
    unfold ExternalMutation.finding? at hd
    split at hd
    · rename_i identifier hwritten
      obtain ⟨symbol, hsymbol, rfl⟩ := Option.map_eq_some_iff.mp hd
      exact ⟨n, hn, identifier, hwritten, by simp [hsymbol], rfl⟩
    · obtain ⟨receiver, -, hd⟩ := Option.bind_eq_some_iff.mp hd
      obtain ⟨symbol, -, hd⟩ := Option.bind_eq_some_iff.mp hd
      split_ifs at hd
      obtain rfl := Option.some.inj hd
      simp at hid
  · rintro ⟨n, hn, identifier, hwritten, hforeign, rfl⟩
    obtain ⟨symbol, hsymbol⟩ := Option.ne_none_iff_exists'.mp hforeign
    refine ⟨⟨n, hn, ?_⟩, rfl⟩
    rw [ExternalMutation.finding?, hwritten]
    simp [hsymbol]

/-- Of the references that are marked as writes, those are found by the rule that are not
indirect. -/
theorem exists_written?_iff {v : Visit} (hv : v ∈ (ofCst c).visits) {r : Reference}
    (hr : r ∈ (ofCst c).references) (hnode : r.node = v.node.id)
    (hwrite : r.access.isWrite = true) :
    (∃ n ∈ (ofCst c).nodes, ExternalMutation.written? n = some v.node) ↔ ¬ v.IsIndirect := by
  obtain ⟨v', hv', hid, -, huse, -⟩ := exists_visit_of_mem hr
  obtain rfl : v' = v := List.inj_on_of_nodup_map (visits_nodup c) hv' hv (hid.trans hnode)
  rcases Visit.isWrite_of_use? huse hwrite with ⟨hidentifier, haccess⟩ | ⟨hk, -⟩
  · obtain ⟨holder, hholder, hwrites⟩ := (Visit.access_isWrite_iff_holder v').mp haccess
    obtain ⟨outer, houter⟩ := Node.exists_mem_paths_of_mem (place_mem_of_mem_visits hv)
      (Visit.mem_ancestors_of_holder? hholder).1
    have hmem := mem_nodes_of_place houter
    constructor
    · rintro ⟨n, hn, hwritten⟩ (hbinds | ⟨loop, hloop, hforIn⟩)
      · rw [Kind.bindsNames_of_isIdentifier hidentifier] at hbinds
        cases hbinds
      · obtain ⟨-, hn', hdirect, -⟩ := (written?_eq_some_iff hv hn).mp hwritten
        obtain rfl := Option.some.inj (hn'.symm.trans hloop)
        rw [(Kind.not_wrapper_of_writesDirectly hdirect).2] at hforIn
        cases hforIn
    · intro hdirect
      refine ⟨holder, hmem, (written?_eq_some_iff hv hmem).mpr
        ⟨hidentifier, hholder, ?_, haccess⟩⟩
      rcases hwrites with ⟨hform, -⟩ | ⟨hupdate, -⟩
      · refine (Kind.writesDirectly_or_isForIn hform).resolve_right fun hforIn => ?_
        exact hdirect (Or.inr ⟨holder, hholder, hforIn⟩)
      · exact Kind.writesDirectly_of_isUpdate hupdate
  · constructor
    · rintro ⟨n, hn, hwritten⟩
      have hidentifier := ((written?_eq_some_iff hv hn).mp hwritten).1
      rw [hk] at hidentifier
      cases hidentifier
    · exact fun hdirect => absurd (Or.inl (by rw [hk]; rfl)) hdirect

/-- **Foreign writes are reported unless they are indirect.** In a lowered file, a mutation is
reported exactly at the references that are marked as writes, inside of a function to which their
symbol is foreign, and that are neither names of a pattern nor held by a loop. So a reference that
writes to a local of the function around it is not reported: what is reported at its span belongs to
another reference with this span. -/
theorem foreign_writes_reported_unless_indirect (c : Cst) (s : Subject) (hs : s.model = ofCst c) :
    (∀ d, d ∈ ExternalMutation.check s ∧ d.id = "noExternalBindingMutation" ↔
      ∃ r ∈ (ofCst c).references, ∃ v ∈ (ofCst c).visits, r.node = v.node.id ∧
        (ofCst c).IsForeignWrite r ∧ ¬ v.IsIndirect ∧
        d = ⟨v.node.span, "noExternalBindingMutation", [("name", r.name)]⟩) ∧
    ∀ r ∈ (ofCst c).references, (ofCst c).IsLocalWrite r → ∀ v ∈ (ofCst c).visits,
      r.node = v.node.id → ∀ d ∈ ExternalMutation.check s, d.id = "noExternalBindingMutation" →
        d.span = v.node.span →
        ∃ r' ∈ (ofCst c).references, r' ≠ r ∧ (ofCst c).IsForeignWrite r' ∧
          ∃ v' ∈ (ofCst c).visits, r'.node = v'.node.id ∧ v'.node.span = v.node.span := by
  have hreported (d : Diagnostic) :
      d ∈ ExternalMutation.check s ∧ d.id = "noExternalBindingMutation" ↔
        ∃ r ∈ (ofCst c).references, ∃ v ∈ (ofCst c).visits, r.node = v.node.id ∧
          (ofCst c).IsForeignWrite r ∧ ¬ v.IsIndirect ∧
          d = ⟨v.node.span, "noExternalBindingMutation", [("name", r.name)]⟩ := by
    rw [mem_mutations_iff, Subject.nodes, hs]
    constructor
    · rintro ⟨n, hn, identifier, hwritten, hforeign, rfl⟩
      have hmem := ExternalMutation.written?_closed nodes_closed hn hwritten
      obtain ⟨v, hv, rfl⟩ := List.mem_map.mp hmem
      obtain ⟨hidentifier, hholder, hdirect, haccess⟩ := (written?_eq_some_iff hv hn).mp hwritten
      obtain ⟨r, hr, hnode, hname, haccess'⟩ := exists_reference_of_isIdentifier hv hidentifier
      have hwrite : r.access.isWrite = true := haccess' ▸ haccess
      refine ⟨r, hr, v, hv, hnode, ?_, ?_, by rw [hname]⟩
      · exact (isForeignWrite_iff hv hn hwritten hr hnode).mpr ⟨hwrite, hforeign⟩
      · exact (exists_written?_iff hv hr hnode hwrite).mp ⟨n, hn, hwritten⟩
    · rintro ⟨r, hr, v, hv, hnode, hforeign, hdirect, rfl⟩
      obtain ⟨n, hn, hwritten⟩ := (exists_written?_iff hv hr hnode hforeign.isWrite).mpr hdirect
      obtain ⟨hidentifier, -⟩ := (written?_eq_some_iff hv hn).mp hwritten
      obtain ⟨r', hr', hnode', hname, -⟩ := exists_reference_of_isIdentifier hv hidentifier
      obtain rfl : r' = r :=
        List.inj_on_of_nodup_map (references_nodup c) hr' hr (hnode'.trans hnode.symm)
      have hsymbol := ((isForeignWrite_iff hv hn hwritten hr hnode).mp hforeign).2
      exact ⟨n, hn, v.node, hwritten, hsymbol, by rw [hname]⟩
  refine ⟨hreported, fun r hr hlocal v hv hnode d hd hid hspan => ?_⟩
  obtain ⟨r', hr', v', hv', hnode', hforeign, -, rfl⟩ := (hreported d).mp ⟨hd, hid⟩
  refine ⟨r', hr', ?_, hforeign, v', hv', hnode', hspan⟩
  rintro rfl
  exact hlocal.not_isForeignWrite hforeign

/-- The tree of a function such as `function f(a) { [a] = [1]; }`, most tokens left out, with the
target of the assignment, which starts at 16 and ends at `stop`. -/
private def assigningFunction (target : Cst) (stop : Nat) : Cst :=
  ⟨"program", true, "", ⟨0, stop + 9⟩, "", [
    ⟨"function_declaration", true, "", ⟨0, stop + 9⟩, "", [
      ⟨"identifier", true, "name", ⟨9, 10⟩, "f", []⟩,
      ⟨"formal_parameters", true, "parameters", ⟨10, 13⟩, "(a)", [
        ⟨"required_parameter", true, "", ⟨11, 12⟩, "a", [
          ⟨"identifier", true, "pattern", ⟨11, 12⟩, "a", []⟩]⟩]⟩,
      ⟨"statement_block", true, "body", ⟨14, stop + 9⟩, "", [
        ⟨"expression_statement", true, "", ⟨16, stop + 7⟩, "", [
          ⟨"assignment_expression", true, "", ⟨16, stop + 6⟩, "", [
            target,
            ⟨"array", true, "right", ⟨stop + 3, stop + 6⟩, "[1]", [
              ⟨"number", true, "", ⟨stop + 4, stop + 5⟩, "1", []⟩]⟩]⟩]⟩]⟩]⟩]⟩

/-- The file of `function f(a) { a = [1]; }`. -/
private def assigningFile : Subject :=
  .ofFile ⟨"a.ts", "", .ts,
    ofCst (assigningFunction ⟨"identifier", true, "left", ⟨16, 17⟩, "a", []⟩ 17), ⟨[0]⟩⟩ none

/-- The file of `function f(a) { [a] = [1]; }`. -/
private def destructuringFile : Subject :=
  .ofFile ⟨"a.ts", "", .ts, ofCst (assigningFunction
    ⟨"array_pattern", true, "left", ⟨16, 19⟩, "[a]", [
      ⟨"identifier", true, "", ⟨17, 18⟩, "a", []⟩]⟩ 19), ⟨[0]⟩⟩ none

/-- Each mutation that is reported in this file is a foreign write. -/
theorem mutation_of_assigned_parameter :
    (ExternalMutation.check assigningFile).length = 1 ∧
    ∀ d ∈ ExternalMutation.check assigningFile, d.id = "noExternalBindingMutation" ∧
      ∃ r ∈ assigningFile.model.references, assigningFile.model.IsForeignWrite r ∧
        d.data = [("name", r.name)] := by
  have hcheck : ExternalMutation.check assigningFile =
      [⟨⟨16, 17⟩, "noExternalBindingMutation", [("name", "a")]⟩] := by
    decide +kernel
  refine ⟨by rw [hcheck]; rfl, fun d hd => ?_⟩
  have hid : d.id = "noExternalBindingMutation" := by
    rw [hcheck] at hd
    rw [List.mem_singleton.mp hd]
  obtain ⟨r, hr, -, -, -, hforeign, -, rfl⟩ :=
    ((foreign_writes_reported_unless_indirect _ assigningFile rfl).1 d).mp ⟨hd, hid⟩
  exact ⟨rfl, r, hr, hforeign, rfl⟩

/-- A parameter that is the element of a pattern is written, from inside of its function, and this
is not reported. -/
theorem destructured_parameter_is_not_reported :
    (∃ r ∈ destructuringFile.model.references, destructuringFile.model.IsForeignWrite r ∧
      (destructuringFile.model.node? r.node).map Node.span = some ⟨17, 18⟩) ∧
    ExternalMutation.check destructuringFile = [] := by
  obtain ⟨r, hr, hwrite, hspan, f, hf, k, hk, hforeign⟩ :
      ∃ r ∈ destructuringFile.model.references, r.access.isWrite = true ∧
        (destructuringFile.model.node? r.node).map Node.span = some ⟨17, 18⟩ ∧
        ∃ f ∈ destructuringFile.model.enclosingFunction? r.node, ∃ k ∈ r.symbol,
          (destructuringFile.model.functionState f.id).classify k ≠ .localName := by
    decide +kernel
  exact ⟨⟨r, hr, ⟨hwrite, f, k, hf, hk, hforeign⟩, hspan⟩, by decide +kernel⟩

end Model

end TsxLint
