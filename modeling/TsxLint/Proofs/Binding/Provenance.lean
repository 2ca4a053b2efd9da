import TsxLint.Binding.Provenance
import TsxLint.Proofs.Binding.Symbols

/-!
# Provenance is a partition

A function claims the symbols of the scopes from which the way outwards meets its own scope before
that of any other function. So it claims a symbol exactly if its scope is the nearest function scope
from the scope of the symbol outwards, and no two functions claim the same symbol.

## Main definitions

* `ScopeTree.functionScope?`: the nearest function scope from a scope outwards.
* `Model.Owns`: a function owns the symbols that it is the nearest function around.
* `Model.ProvenanceIsPartition`: the provenance of the values of a model is a partition.

## Main results

* `ScopeTree.belongsTo_iff`: a scope belongs to the function whose scope is nearest.
* `Model.provenance_is_partition`: at most one function claims a symbol.
-/

namespace TsxLint

namespace ScopeTree

/-- The nearest scope of a function from a scope outwards. -/
def functionScope? (scopes : ScopeTree) (scope : Nat) : Option Nat :=
  (scopes.outward scope).find? fun s => (scopes[s]?).any (·.kind == .function)

variable {scopes : ScopeTree} {scope functionScope : Nat} {s f : Scope}

theorem functionScope?_of_kind (hs : scopes[scope]? = some s) (hkind : s.kind = .function) :
    scopes.functionScope? scope = some scope := by
  obtain ⟨outer, houter⟩ := List.head?_eq_some_iff.mp (scopes.head?_outward scope)
  rw [functionScope?, houter, List.find?_cons_of_pos (by simp [hs, hkind])]

theorem functionScope?_of_parent (hs : scopes[scope]? = some s) (hkind : s.kind ≠ .function)
    {parent : Nat} (hparent : s.parent = some parent) (hlt : parent < scope) :
    scopes.functionScope? scope = scopes.functionScope? parent := by
  have hp : scopes.parent? scope = some parent := by rw [parent?, hs, Option.bind_some, hparent]
  rw [functionScope?, outward_of_parent? hp hlt, List.find?_cons_of_neg (by simp [hs, hkind]),
    functionScope?]

theorem functionScope?_of_stop (hkind : (scopes[scope]?).any (·.kind == .function) = false)
    (hstop : ∀ parent ∈ scopes.parent? scope, ¬ parent < scope) :
    scopes.functionScope? scope = none := by
  rcases scopes.outward_cases scope with hone | ⟨parent, hparent, hlt, -⟩
  · rw [functionScope?, hone, List.find?_cons_of_neg (by simp [hkind]), List.find?_nil]
  · exact absurd hlt (hstop parent hparent)

/-- Going outwards until a function is met finds the nearest one. -/
theorem belongsTo_iff (hf : scopes[functionScope]? = some f) (hfunction : f.kind = .function)
    (scope : Nat) :
    scopes.belongsTo functionScope scope = true ↔
      scopes.functionScope? scope = some functionScope := by
  induction scope using Nat.strongRecOn with
  | _ scope ih =>
    rw [belongsTo]
    split_ifs with heq
    · rw [heq, functionScope?_of_kind hf hfunction]
      exact iff_of_true rfl rfl
    split
    · rename_i hs
      rw [functionScope?_of_stop (by simp [hs]) (by simp [parent?, hs])]
      simp
    · rename_i s hs
      split_ifs with hkind
      · rw [functionScope?_of_kind hs hkind]
        simpa using heq
      split
      · rename_i parent hparent
        split_ifs with hlt
        · rw [functionScope?_of_parent hs hkind hparent hlt]
          exact ih parent hlt
        · rw [functionScope?_of_stop (by simp [hs, hkind])
            (by simpa [parent?, hs, hparent] using hlt)]
          simp
      · rename_i hparent
        rw [functionScope?_of_stop (by simp [hs, hkind]) (by simp [parent?, hs, hparent])]
        simp

end ScopeTree

namespace Model

/-- A function owns a symbol if its scope is the nearest function scope from the scope of the symbol
outwards. -/
def Owns (m : Model) (function : Nat) (y : Symbol) : Prop :=
  ∃ scope, m.scopeOwnedBy? function = some scope ∧ m.scopes.functionScope? y.scope = some scope

/-- The provenance of the values of a model, seen from its functions, is a partition. -/
structure ProvenanceIsPartition (m : Model) : Prop where
  /-- A function claims the symbols that it owns and no others. -/
  claims : ∀ f ∈ m.nodes, f.isFunctionLike = true → ∀ (k : Nat) (y : Symbol),
    m.symbols[k]? = some y → y.kind.isValue = true →
      ((m.functionState f.id).classify k ≠ .external ↔ m.Owns f.id y)
  /-- Of those the parameters are its parameters, and the others are its locals. -/
  kinds : ∀ f ∈ m.nodes, f.isFunctionLike = true → ∀ (k : Nat) (y : Symbol),
    m.symbols[k]? = some y → y.kind.isValue = true → m.Owns f.id y →
      (m.functionState f.id).classify k = if y.kind = .param then .parameter else .localName
  /-- No two functions claim a symbol. -/
  unique : ∀ f ∈ m.nodes, f.isFunctionLike = true → ∀ g ∈ m.nodes, g.isFunctionLike = true →
    ∀ (k : Nat) (y : Symbol), m.symbols[k]? = some y → y.kind.isValue = true →
      (m.functionState f.id).classify k ≠ .external →
      (m.functionState g.id).classify k ≠ .external → f = g
  /-- A symbol that was declared outside of all functions is external to each of them. -/
  outside : ∀ (k : Nat) (y : Symbol), m.symbols[k]? = some y → y.kind.isValue = true →
    m.scopes.functionScope? y.scope = none → ∀ f ∈ m.nodes, f.isFunctionLike = true →
      (m.functionState f.id).classify k = .external
  /-- Symbols of the module, imports among them, were declared outside of all functions. -/
  outermost : ∀ y ∈ m.symbols, y.scope = 0 ∨ y.kind = .importName →
    m.scopes.functionScope? y.scope = none

variable {c : Cst} {f : Node} {k : Nat} {y : Symbol}

/-- A function has a scope, which is one of functions. -/
theorem exists_functionScope (hf : f ∈ (ofCst c).nodes) (hfunction : f.isFunctionLike = true) :
    ∃ scope s, (ofCst c).scopeOwnedBy? f.id = some scope ∧ (ofCst c).scopes[scope]? = some s ∧
      s.kind = .function := by
  have hkind := Node.scopeKind?_of_isFunctionLike hfunction
  have hsome := isSome_scopeOwnedBy? hf
  rw [Node.opensScope, hkind, Option.isSome_some, Option.isSome_iff_exists] at hsome
  obtain ⟨scope, hscope⟩ := hsome
  obtain ⟨s, hs, howner⟩ := scopeOwnedBy?_ofCst_eq_some_iff.mp hscope
  obtain ⟨n, hn, hid, hn'⟩ := (scopesMirrorNodes_ofCst c).owner s (List.mem_of_getElem? hs)
  obtain rfl := List.inj_on_of_nodup_map (isTree_ofCst c).nodup hn hf (hid.trans howner)
  exact ⟨scope, s, hscope, hs, Option.some.inj (hn'.symm.trans hkind)⟩

section

variable (hf : f ∈ (ofCst c).nodes) (hfunction : f.isFunctionLike = true)
  (hy : (ofCst c).symbols[k]? = some y)

include hf hfunction hy

/-- The locals of a function are the values that it owns. -/
theorem mem_locals_iff (hvalue : y.kind.isValue = true) :
    k ∈ ((ofCst c).functionState f.id).locals ↔ (ofCst c).Owns f.id y := by
  obtain ⟨scope, s, hscope, hs, hkind⟩ := exists_functionScope hf hfunction
  have hmem : k ∈ ((ofCst c).functionState f.id).locals ↔
      ∃ j, (j < (ofCst c).scopes.length ∧ (ofCst c).scopes.belongsTo scope j = true) ∧
        k ∈ (ofCst c).bindingsOf j := by
    simp [functionState, hscope]
  have howns : (ofCst c).Owns f.id y ↔ (ofCst c).scopes.belongsTo scope y.scope = true := by
    simp [Owns, hscope, ScopeTree.belongsTo_iff hs hkind]
  rw [hmem, howns]
  constructor
  · rintro ⟨j, ⟨-, hj⟩, hk⟩
    obtain ⟨y', hy', rfl, -⟩ := (symbolsMatchTables_ofCst c).mem_bindingsOf_iff.mp hk
    obtain rfl := Option.some.inj (hy.symm.trans hy')
    exact hj
  · intro hbelongs
    exact ⟨y.scope, ⟨(indicesInRange_ofCst c).symbolScope y (List.mem_of_getElem? hy), hbelongs⟩,
      (symbolsMatchTables_ofCst c).mem_bindingsOf_iff.mpr ⟨y, hy, rfl, hvalue⟩⟩

/-- The parameters of a function are the parameters among its locals. -/
theorem mem_params_iff : k ∈ ((ofCst c).functionState f.id).params ↔
    k ∈ ((ofCst c).functionState f.id).locals ∧ y.kind = .param := by
  obtain ⟨scope, s, hscope, -, -⟩ := exists_functionScope hf hfunction
  simp [functionState, hscope, hy]

theorem classify_eq : ((ofCst c).functionState f.id).classify k =
    if k ∈ ((ofCst c).functionState f.id).locals then
      if y.kind = .param then .parameter else .localName
    else .external := by
  simp only [FunctionState.classify, List.contains_iff_mem, mem_params_iff hf hfunction hy]
  by_cases hlocal : k ∈ ((ofCst c).functionState f.id).locals
  · simp only [hlocal, true_and, if_true]
  · simp only [hlocal, false_and, if_false]

theorem classify_ne_external_iff (hvalue : y.kind.isValue = true) :
    ((ofCst c).functionState f.id).classify k ≠ .external ↔ (ofCst c).Owns f.id y := by
  rw [← mem_locals_iff hf hfunction hy hvalue, classify_eq hf hfunction hy]
  split_ifs with hlocal hparam
  · simp [hlocal]
  · simp [hlocal]
  · simp [hlocal]

end

/-- The first scope lies in no function. -/
theorem functionScope?_zero : (ofCst c).scopes.functionScope? 0 = none := by
  obtain ⟨s, hs, hkind, -, hparent⟩ := (scopesMirrorNodes_ofCst c).first
  exact ScopeTree.functionScope?_of_stop (by simp [hs, hkind])
    (by simp [ScopeTree.parent?, hs, hparent])

/-- Imports go to the first scope. -/
theorem scope_of_import (hy : y ∈ (ofCst c).symbols) (hkind : y.kind = .importName) :
    y.scope = 0 := by
  obtain ⟨v, -, -, hu⟩ := exists_binderUse_of_symbol hy
  obtain ⟨owner, outer, -, -, htarget, -⟩ := Visit.owner_of_binderUse hu
  rw [hkind] at htarget
  exact htarget.eq_zero

/-- **Provenance is a partition.** In the model of a lowered file a function claims a value, as a
parameter or as a local, exactly if the first scope of a function from the scope of the symbol
outwards is its own; it is then a parameter if the symbol is of that kind, and else a local. So at
most one function claims a symbol, and what is declared outside of all functions, as are the names
of the module and all imports, is external to each of them. -/
theorem provenance_is_partition (c : Cst) : (ofCst c).ProvenanceIsPartition where
  claims := fun f hf hfunction k y hy hvalue => classify_ne_external_iff hf hfunction hy hvalue
  kinds := by
    intro f hf hfunction k y hy hvalue howns
    rw [classify_eq hf hfunction hy, if_pos ((mem_locals_iff hf hfunction hy hvalue).mpr howns)]
  unique := by
    intro f hf hfunction g hg hfunction' k y hy hvalue hclaims hclaims'
    obtain ⟨scope, hscope, hnear⟩ := (classify_ne_external_iff hf hfunction hy hvalue).mp hclaims
    obtain ⟨scope', hscope', hnear'⟩ :=
      (classify_ne_external_iff hg hfunction' hy hvalue).mp hclaims'
    obtain rfl := Option.some.inj (hnear.symm.trans hnear')
    obtain ⟨s, hs, hid⟩ := scopeOwnedBy?_ofCst_eq_some_iff.mp hscope
    obtain ⟨s', hs', hid'⟩ := scopeOwnedBy?_ofCst_eq_some_iff.mp hscope'
    obtain rfl := Option.some.inj (hs.symm.trans hs')
    exact List.inj_on_of_nodup_map (isTree_ofCst c).nodup hf hg (hid.symm.trans hid')
  outside := by
    intro k y hy hvalue hnone f hf hfunction
    by_contra hclaims
    obtain ⟨scope, -, hnear⟩ := (classify_ne_external_iff hf hfunction hy hvalue).mp hclaims
    rw [hnone] at hnear
    cases hnear
  outermost := by
    rintro y hy (hscope | hkind)
    · rw [hscope, functionScope?_zero]
    · rw [scope_of_import hy hkind, functionScope?_zero]

end Model

end TsxLint
