import TsxLint.Binding.Model
import TsxLint.Proofs.Binding.Walk
import TsxLint.Proofs.Data.Lookup

/-!
# Name resolution

The second pass of a survey looks each reference up in the tables that the walk has left, and files
it under the symbol that it finds. Since no table changes any more, the order of the references does
not matter and a name may be used before it is declared: in the model of a lowered file a reference
stands for exactly what its name stands for in the scope of its node.

## Main definitions

* `Survey.ResolvedUpTo`: a survey in which the references below some place are resolved.

## Main results

* `SymbolTable.climb_eq_lookup`: climbing from scope to scope is looking up.
* `Survey.resolveAll_resolved`: what the second pass leaves.
* `Model.visit?_of_mem`: a node of a lowered file is visited once.
* `Model.referencesTo_eq_filter`: the references to a symbol are listed in visiting order.
* `Model.references_resolve_lexically`: references, lookups and the lists of the symbols agree.
-/

namespace TsxLint

/-! ### The second pass -/

namespace SymbolTable

/-- Climbing from scope to scope is looking up. -/
theorem climb_eq_lookup (t : SymbolTable) (scope : Nat) (name : String) :
    t.climb scope name = t.lookup true scope name := by
  induction scope using Nat.strongRecOn with
  | _ scope ih =>
    rw [climb, lookup, ScopeTree.outward, ScopeTree.parent?]
    cases hs : t.scopes[scope]? with
    | none => simp [find?, hs]
    | some s =>
      have hfind : t.find? true scope name = s.find? true name := by
        rw [find?, hs, Option.bind_some]
      cases hf : s.find? true name with
      | some symbol =>
        cases hp : s.parent with
        | none => simp [hfind, hf, hp]
        | some parent =>
          by_cases hlt : parent < scope
          · simp [hfind, hf, hp, hlt]
          · simp [hfind, hf, hp, hlt]
      | none =>
        cases hp : s.parent with
        | none => simp [hfind, hf, hp]
        | some parent =>
          by_cases hlt : parent < scope
          · simp [hfind, hf, hp, hlt, ih parent hlt, lookup]
          · simp [hfind, hf, hp, hlt]

/-- What a name stands for depends on the scopes only. -/
theorem lookup_congr {t t' : SymbolTable} (h : t'.scopes = t.scopes) (isValue : Bool) (scope : Nat)
    (name : String) : t'.lookup isValue scope name = t.lookup isValue scope name := by
  simp only [lookup, find?, h]

end SymbolTable

namespace Survey

/-- The symbol that the reference in some place is to be resolved to. -/
def target? (s : Survey) (index : Nat) : Option Nat :=
  s.references[index]?.bind fun r => s.table.lookup true r.scope r.name

/-- `t` is `s` with the references below place `n` resolved and filed under their symbols. -/
structure ResolvedUpTo (s : Survey) (n : Nat) (t : Survey) : Prop where
  visits : t.visits = s.visits
  referenceOf : t.referenceOf = s.referenceOf
  scopes : t.table.scopes = s.table.scopes
  references : ∀ i, t.references[i]? = s.references[i]?.map fun (r : Reference) =>
    if i < n then { r with symbol := s.target? i } else r
  symbols : ∀ k, t.table.symbols[k]? = s.table.symbols[k]?.map fun (y : Symbol) =>
    { y with references := y.references ++ (List.range n).filter fun i => s.target? i = some k }

namespace ResolvedUpTo

variable {s t : Survey} {n : Nat}

theorem zero (s : Survey) : s.ResolvedUpTo 0 s where
  visits := rfl
  referenceOf := rfl
  scopes := rfl
  references i := by simp
  symbols k := by simp

/-- Resolving the next reference. -/
theorem step (h : s.ResolvedUpTo n t) (hs : ∀ r ∈ s.references, r.symbol = none)
    (hn : n < s.references.length) : s.ResolvedUpTo (n + 1) (t.resolve n) := by
  have hr : s.references[n]? = some s.references[n] := List.getElem?_eq_getElem hn
  have htr : t.references[n]? = some s.references[n] := by simp [h.references, hr]
  have htarget : t.table.climb s.references[n].scope s.references[n].name = s.target? n := by
    rw [SymbolTable.climb_eq_lookup, SymbolTable.lookup_congr h.scopes, target?, hr,
      Option.bind_some]
  have hold (i : Nat) (hi : i ≠ n) : (i < n + 1) = (i < n) := by
    rw [eq_iff_iff]
    omega
  rw [resolve, htr]
  simp only [htarget]
  cases hk : s.target? n with
  | none =>
    refine ⟨h.visits, h.referenceOf, h.scopes, fun i => ?_, fun k => ?_⟩
    · rw [h.references]
      by_cases hi : i = n
      · subst hi
        have hnone : s.references[i].symbol = none := hs _ (List.getElem_mem hn)
        rw [hr]
        simp only [Option.map_some, Nat.lt_irrefl, if_false, Nat.lt_succ_self, if_true, hk, ← hnone]
      · simp only [hold i hi]
    · rw [h.symbols]
      simp [List.range_succ, hk]
  | some k₀ =>
    refine ⟨h.visits, h.referenceOf, h.scopes, fun i => ?_, fun k => ?_⟩
    · by_cases hi : i = n
      · subst hi
        have hlt : i < t.references.length := (List.getElem?_eq_some_iff.mp htr).1
        rw [List.getElem?_set_self hlt, hr]
        simp [hk]
      · rw [List.getElem?_set_ne (Ne.symm hi), h.references]
        simp only [hold i hi]
    · simp only [SymbolTable.addReference, List.getElem?_modify, h.symbols, List.range_succ,
        List.filter_append, Option.map_eq_map, Option.map_map]
      congr 1
      funext y
      by_cases hkk : k₀ = k
      · simp [hkk, hk]
      · simp [hkk, hk]

end ResolvedUpTo

/-- The second pass resolves every reference. -/
theorem resolveAll_resolved {s : Survey} (hs : ∀ r ∈ s.references, r.symbol = none) :
    s.ResolvedUpTo s.references.length s.resolveAll := by
  have hrun : ∀ n ≤ s.references.length, s.ResolvedUpTo n ((List.range n).foldl resolve s) := by
    intro n
    induction n with
    | zero => exact fun _ => .zero s
    | succ n ih =>
      intro hn
      rw [List.range_succ, List.foldl_append]
      exact (ih (Nat.le_of_succ_le hn)).step hs hn
  exact hrun _ (Nat.le_refl _)

end Survey

/-! ### Models of lowered files -/

/-- In a list whose keys are distinct, a member is the first with its key. -/
private theorem find?_of_nodup {α : Type} {key : α → Nat} {l : List α} {a : α}
    (hl : (l.map key).Nodup) (ha : a ∈ l) : l.find? (fun b => key b == key a) = some a := by
  induction l with
  | nil => simp at ha
  | cons b l ih =>
    rw [List.map_cons, List.nodup_cons] at hl
    rcases List.mem_cons.mp ha with rfl | ha
    · simp
    · have hne : key b ≠ key a := fun h => hl.1 (h ▸ List.mem_map_of_mem ha)
      rw [List.find?_cons_of_neg (by simpa using hne), ih hl.2 ha]

/-- The members of a list are those in its places, in order. -/
theorem filterMap_getElem?_range {α : Type} (l : List α) :
    (List.range l.length).filterMap (fun i => l[i]?) = l := by
  induction l with
  | nil => rfl
  | cons a l ih =>
    have hhead : (a :: l)[0]? = some a := rfl
    rw [List.length_cons, List.range_succ_eq_map, List.filterMap_cons_some hhead,
      List.filterMap_map]
    exact congrArg (a :: ·) ih

/-- The keys of what some members of a list give stand as those of the members do. -/
theorem sublist_map_filterMap {α β γ : Type} {f : α → Option β} {g : β → γ} {key : α → γ}
    (hkey : ∀ a b, f a = some b → g b = key a) (l : List α) :
    ((l.filterMap f).map g).Sublist (l.map key) := by
  induction l with
  | nil => exact .slnil
  | cons a l ih =>
    cases hb : f a with
    | none => simpa [hb] using ih.cons (key a)
    | some b =>
      rw [List.filterMap_cons_some hb, List.map_cons, List.map_cons, hkey a b hb]
      exact ih.cons_cons (key a)

namespace Model

variable (c : Cst)

/-- The walk through a lowered file, before its references are resolved. -/
def walked : Survey := Survey.empty.walk (Program.ofCst c).root

/-- The model of a lowered file. -/
def ofCst : Model := ofProgram (Program.ofCst c)

theorem walked_formed : (walked c).Formed := Survey.Formed.empty.walk _

theorem walked_symbol_eq_none : ∀ r ∈ (walked c).references, r.symbol = none := by
  intro r hr
  rw [(walked_formed c).references] at hr
  obtain ⟨v, -, hv⟩ := List.mem_filterMap.mp hr
  exact (Visit.exists_of_reference? hv).2.2.1

/-- The model of a lowered file is what the second pass makes of the walk. -/
theorem ofCst_resolved : (walked c).ResolvedUpTo (walked c).references.length
    (walked c).resolveAll :=
  Survey.resolveAll_resolved (walked_symbol_eq_none c)

theorem visits_ofCst : (ofCst c).visits = (walked c).visits := (ofCst_resolved c).visits

/-- The nodes of a lowered file are visited in order, each with the nodes around it. -/
theorem places_ofCst :
    (ofCst c).visits.map Visit.place = (Program.ofCst c).root.paths [] := by
  rw [visits_ofCst]
  exact (Survey.empty.walk_visits _).1

/-- Every node of a lowered file is visited once. -/
theorem visits_nodup : ((ofCst c).visits.map fun v => v.node.id).Nodup := by
  have hids : ((ofCst c).visits.map fun v => v.node.id) =
      (((Program.ofCst c).root.paths []).map Prod.fst).map Node.id := by
    rw [← places_ofCst, List.map_map, List.map_map]
    rfl
  rw [hids, Node.map_fst_paths]
  exact Program.ofCst_nodup c

variable {c}

theorem place_mem_of_mem_visits {v : Visit} (hv : v ∈ (ofCst c).visits) :
    v.place ∈ (Program.ofCst c).root.paths [] := by
  rw [← places_ofCst]
  exact List.mem_map_of_mem hv

theorem visit?_of_mem {v : Visit} (hv : v ∈ (ofCst c).visits) :
    (ofCst c).visit? v.node.id = some v :=
  find?_of_nodup (visits_nodup c) hv

variable (c)

theorem lookup_ofCst (scope : Nat) (name : String) :
    (ofCst c).lookup scope name = (walked c).table.lookup true scope name :=
  SymbolTable.lookup_congr (ofCst_resolved c).scopes true scope name

/-- The references of a lowered file are those that its visits make, each resolved by lookup. -/
theorem references_ofCst :
    (ofCst c).references = ((ofCst c).visits.filterMap (Visit.reference? [])).map
      fun (r : Reference) => { r with symbol := (ofCst c).lookup r.scope r.name } := by
  rw [visits_ofCst, ← (walked_formed c).references]
  refine List.ext_getElem? fun i => ?_
  rw [List.getElem?_map]
  refine ((ofCst_resolved c).references i).trans ?_
  cases hr : (walked c).references[i]? with
  | none => rfl
  | some r =>
    have hi : i < (walked c).references.length := (List.getElem?_eq_some_iff.mp hr).1
    have ht : (walked c).target? i = (ofCst c).lookup r.scope r.name := by
      rw [lookup_ofCst, Survey.target?, hr, Option.bind_some]
    simp only [Option.map_some, hi, if_true, ht]

/-- No two references of a lowered file are made at one node. -/
theorem references_nodup : ((ofCst c).references.map Reference.node).Nodup := by
  rw [references_ofCst, List.map_map]
  exact (sublist_map_filterMap (fun v r hr => (Visit.exists_of_reference? hr).1)
    (ofCst c).visits).nodup (visits_nodup c)

variable {c}

variable (c) in
/-- Each reference of a lowered file is filed under the number of its node. -/
theorem referenceOf_ofCst :
    (ofCst c).referenceOf = ((ofCst c).references.map Reference.node).zipIdx.reverse := by
  have hnodes : (walked c).references.map Reference.node =
      (ofCst c).references.map Reference.node := by
    rw [references_ofCst, List.map_map, (walked_formed c).references, visits_ofCst]
    rfl
  rw [← hnodes, ← (walked_formed c).referenceOf]
  exact (ofCst_resolved c).referenceOf

/-- The reference made at a node is found under its number. -/
theorem referenceAt?_of_getElem? {i : Nat} {r : Reference}
    (hr : (ofCst c).references[i]? = some r) :
    (ofCst c).referenceAt? r.node = some r := by
  have hmem : (r.node, i) ∈ (ofCst c).referenceOf := by
    rw [referenceOf_ofCst, List.mem_reverse, List.mem_zipIdx_iff_getElem?, List.getElem?_map, hr]
    rfl
  have hkeys : ((ofCst c).referenceOf.map Prod.fst).Nodup := by
    rw [referenceOf_ofCst, List.map_reverse, List.nodup_reverse]
    simpa [List.zipIdx_map_fst] using references_nodup c
  rw [referenceAt?, lookup_of_nodup hkeys hmem, Option.bind_some, hr]

/-- What is found under the number of a node is the reference made there. -/
theorem mem_of_referenceAt? {id : Nat} {r : Reference} (h : (ofCst c).referenceAt? id = some r) :
    r ∈ (ofCst c).references ∧ r.node = id := by
  obtain ⟨i, hi, hr⟩ := Option.bind_eq_some_iff.mp h
  have hmem : (id, i) ∈ (ofCst c).referenceOf := by
    obtain ⟨before, after, heq, -⟩ := List.lookup_eq_some_iff.mp hi
    simp [heq]
  rw [referenceOf_ofCst, List.mem_reverse, List.mem_zipIdx_iff_getElem?, List.getElem?_map,
    hr] at hmem
  exact ⟨List.mem_of_getElem? hr, Option.some.inj hmem⟩

/-- The list of a symbol holds the places of the references to it, in order. -/
theorem references_of_symbol {k : Nat} {y : Symbol} (hy : (ofCst c).symbols[k]? = some y) :
    y.references = (List.range (ofCst c).references.length).filter fun i =>
      (ofCst c).references[i]?.bind Reference.symbol = some k := by
  have hlen : (walked c).references.length = (ofCst c).references.length := by
    rw [references_ofCst, List.length_map, (walked_formed c).references, visits_ofCst]
  have htarget (i : Nat) :
      (ofCst c).references[i]?.bind Reference.symbol = (walked c).target? i := by
    rw [references_ofCst, List.getElem?_map, visits_ofCst, ← (walked_formed c).references,
      Survey.target?]
    cases (walked c).references[i]? with
    | none => rfl
    | some r => exact lookup_ofCst c r.scope r.name
  have hsym := ((ofCst_resolved c).symbols k).symm.trans hy
  obtain ⟨y', hy', rfl⟩ := Option.map_eq_some_iff.mp hsym
  have hempty : y'.references = [] := (walked_formed c).table.unused y' (List.mem_of_getElem? hy')
  simp only [hempty, List.nil_append, hlen, htarget]

/-- What a name stands for is a value. -/
theorem isValue_of_lookup {scope : Nat} {name : String} {k : Nat}
    (hl : (ofCst c).lookup scope name = some k) :
    ∃ y, (ofCst c).symbols[k]? = some y ∧ y.kind.isValue = true := by
  rw [lookup_ofCst] at hl
  obtain ⟨y, hy, -, hkind⟩ := (walked_formed c).table.exists_of_lookup hl
  have hsym := (ofCst_resolved c).symbols k
  rw [hy, Option.map_some] at hsym
  exact ⟨_, hsym, hkind⟩

/-- A reference of a lowered file is made by a visit and resolved in the scope of that visit. -/
theorem exists_visit_of_mem {r : Reference} (hr : r ∈ (ofCst c).references) :
    ∃ v ∈ (ofCst c).visits, v.node.id = r.node ∧ v.scope = r.scope ∧
      v.use? [] = some (r.name, r.access) ∧ r.symbol = (ofCst c).lookup r.scope r.name := by
  rw [references_ofCst] at hr
  obtain ⟨r', hr', rfl⟩ := List.mem_map.mp hr
  obtain ⟨v, hv, hvr⟩ := List.mem_filterMap.mp hr'
  obtain ⟨hnode, hscope, -, huse⟩ := Visit.exists_of_reference? hvr
  exact ⟨v, hv, hnode.symm, hscope.symm, huse, rfl⟩

/-- A visit that uses a name makes a reference. -/
theorem exists_mem_of_use? {v : Visit} (hv : v ∈ (ofCst c).visits) {name : String} {access : Access}
    (hu : v.use? [] = some (name, access)) :
    ∃ r ∈ (ofCst c).references, r.node = v.node.id ∧ r.name = name ∧ r.access = access := by
  have hvr : v.reference? [] = some ⟨v.node.id, name, v.scope, access, none⟩ := by
    rw [Visit.reference?, hu, Option.map_some]
  refine ⟨⟨v.node.id, name, v.scope, access, (ofCst c).lookup v.scope name⟩, ?_, rfl, rfl, rfl⟩
  rw [references_ofCst]
  exact List.mem_map.mpr ⟨_, List.mem_filterMap.mpr ⟨v, hv, hvr⟩, rfl⟩

theorem mem_references_of_symbol {k : Nat} {y : Symbol} (hy : (ofCst c).symbols[k]? = some y)
    (i : Nat) :
    i ∈ y.references ↔ ∃ r, (ofCst c).references[i]? = some r ∧ r.symbol = some k := by
  rw [references_of_symbol hy, List.mem_filter, List.mem_range, decide_eq_true_eq,
    Option.bind_eq_some_iff]
  constructor
  · exact fun h => h.2
  · rintro ⟨r, hr, hk⟩
    exact ⟨(List.getElem?_eq_some_iff.mp hr).1, r, hr, hk⟩

/-- A reference is in the list of the symbol that it stands for, and in no other. -/
theorem mem_referenceIndices {i : Nat} {r : Reference} (hr : (ofCst c).references[i]? = some r)
    (k : Nat) : i ∈ (ofCst c).referenceIndices k ↔ r.symbol = some k := by
  rw [referenceIndices]
  cases hy : (ofCst c).symbols[k]? with
  | some y => simp [mem_references_of_symbol hy i, hr]
  | none =>
    simp only [Option.map_none, Option.getD_none, List.not_mem_nil, false_iff]
    intro hk
    obtain ⟨v, -, -, -, -, hlookup⟩ := exists_visit_of_mem (List.mem_of_getElem? hr)
    obtain ⟨y, hy', -⟩ := isValue_of_lookup (hlookup.symm.trans hk)
    rw [hy] at hy'
    cases hy'

/-- The places of the references to a symbol, read off the references. -/
theorem referenceIndices_eq_filter (k : Nat) :
    (ofCst c).referenceIndices k = (List.range (ofCst c).references.length).filter fun i =>
      (ofCst c).references[i]?.any (·.symbol == some k) := by
  cases hy : (ofCst c).symbols[k]? with
  | some y =>
    rw [referenceIndices, hy, Option.map_some, Option.getD_some, references_of_symbol hy]
    refine List.filter_congr fun i _ => ?_
    cases hr : (ofCst c).references[i]? with
    | none => simp
    | some r => simp [beq_eq_decide]
  | none =>
    have hempty : (ofCst c).referenceIndices k = [] := by
      rw [referenceIndices, hy, Option.map_none, Option.getD_none]
    rw [hempty, eq_comm, List.filter_eq_nil_iff]
    intro i hi
    have hr := List.getElem?_eq_getElem (List.mem_range.mp hi)
    rw [hr, Option.any_some, beq_iff_eq, ← mem_referenceIndices hr, hempty]
    exact List.not_mem_nil

/-- The references to a symbol are listed in visiting order. -/
theorem referencesTo_eq_filter (k : Nat) :
    (ofCst c).referencesTo k = (ofCst c).references.filter (·.symbol == some k) := by
  conv_rhs => rw [← filterMap_getElem?_range (ofCst c).references, List.filter_filterMap]
  rw [referencesTo, referenceIndices_eq_filter, List.filterMap_filter]
  refine congrArg (fun f => List.filterMap f _) (funext fun i => ?_)
  cases (ofCst c).references[i]? <;> rfl

theorem mem_referencesTo {r : Reference} {k : Nat} :
    r ∈ (ofCst c).referencesTo k ↔ r ∈ (ofCst c).references ∧ r.symbol = some k := by
  rw [referencesTo_eq_filter, List.mem_filter, beq_iff_eq]

/-- **Name resolution is lexical lookup.** In the model of a lowered file there is one reference for
every node that uses a name, and no other. Its scope is that of its node, and its symbol is what the
name stands for there, a value in every case. The list of a symbol holds the places of the
references to it in increasing order, so that a resolved reference is in the list of one symbol and
an unresolved one in none. -/
theorem references_resolve_lexically (c : Cst) :
    (∀ id name, (∃ r ∈ (ofCst c).references, r.node = id ∧ r.name = name) ↔
      ∃ v ∈ (ofCst c).visits, v.node.id = id ∧ v.Uses name) ∧
    (∀ r ∈ (ofCst c).references,
      r.scope = (ofCst c).scopeOf r.node ∧
      r.symbol = (ofCst c).lookup ((ofCst c).scopeOf r.node) r.name ∧
      (ofCst c).referenceAt? r.node = some r ∧
      (ofCst c).resolve? r.node = r.symbol ∧
      ∀ k, r.symbol = some k → ∃ y, (ofCst c).symbols[k]? = some y ∧ y.kind ≠ .type) ∧
    (∀ (k : Nat) (y : Symbol), (ofCst c).symbols[k]? = some y →
      y.references.Pairwise (· < ·) ∧
      ∀ i, i ∈ y.references ↔ ∃ r, (ofCst c).references[i]? = some r ∧ r.symbol = some k) ∧
    (∀ (i : Nat) (r : Reference), (ofCst c).references[i]? = some r →
      (r.symbol.isSome → ∃! k, i ∈ (ofCst c).referenceIndices k) ∧
      (r.symbol = none → ∀ k, i ∉ (ofCst c).referenceIndices k)) := by
  refine ⟨fun id name => ⟨?_, ?_⟩, ?_, ?_, ?_⟩
  · rintro ⟨r, hr, rfl, rfl⟩
    obtain ⟨v, hv, hnode, -, huse, -⟩ := exists_visit_of_mem hr
    exact ⟨v, hv, hnode, (v.uses_iff [] r.name).mpr ⟨_, huse⟩⟩
  · rintro ⟨v, hv, rfl, huses⟩
    obtain ⟨access, huse⟩ := (v.uses_iff [] name).mp huses
    obtain ⟨r, hr, hnode, hname, -⟩ := exists_mem_of_use? hv huse
    exact ⟨r, hr, hnode, hname⟩
  · intro r hr
    obtain ⟨i, hi⟩ := List.getElem?_of_mem hr
    have hat := referenceAt?_of_getElem? hi
    obtain ⟨v, hv, hnode, hscope, -, hlookup⟩ := exists_visit_of_mem hr
    have hof : (ofCst c).scopeOf r.node = r.scope := by
      rw [scopeOf, ← hnode, visit?_of_mem hv, ← hscope]
      rfl
    refine ⟨hof.symm, by rw [hof, hlookup], hat, by rw [resolve?, hat, Option.bind_some], ?_⟩
    intro k hk
    obtain ⟨y, hy, hvalue⟩ := isValue_of_lookup (hlookup.symm.trans hk)
    refine ⟨y, hy, fun htype => ?_⟩
    rw [htype] at hvalue
    exact absurd hvalue (by decide)
  · intro k y hy
    refine ⟨?_, mem_references_of_symbol hy⟩
    rw [references_of_symbol hy]
    exact List.pairwise_lt_range.filter _
  · intro i r hr
    refine ⟨fun hsome => ?_, fun hnone k hk => ?_⟩
    · obtain ⟨k, hk⟩ := Option.isSome_iff_exists.mp hsome
      refine ⟨k, (mem_referenceIndices hr k).mpr hk, fun k' hk' => ?_⟩
      exact Option.some.inj (((mem_referenceIndices hr k').mp hk').symm.trans hk)
    · rw [mem_referenceIndices hr, hnone] at hk
      cases hk

end Model

end TsxLint
