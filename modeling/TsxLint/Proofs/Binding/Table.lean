import TsxLint.Binding.Symbol
import Mathlib.Data.List.Basic

/-!
# Tables of scopes and symbols

What the operations on a `SymbolTable` do to what is found in it. Opening a scope adds nothing to
find; declaring a name adds at most that name, in its scope and its namespace. So whatever is found
under a name in a scope is a symbol of that name, scope and namespace, whichever declarations were
made and in whichever order.

## Main definitions

* `SymbolTable.Formed`: what is found in a table is what its symbols say, and nothing refers to
  them.

## Main results

* `SymbolTable.Formed.openScope`, `SymbolTable.Formed.addVisit`: both operations of a walk keep a
  table formed.
* `SymbolTable.Formed.exists_of_lookup`: a name stands for a symbol of its own namespace.
-/

namespace TsxLint

theorem Scope.find?_bind (s : Scope) (isValue : Bool) (name : String) (symbol : Nat)
    (isValue' : Bool) (name' : String) :
    (s.bind isValue name symbol).find? isValue' name' =
      (s.find? isValue' name').or
        (if isValue' = isValue ∧ name' = name then some symbol else none) := by
  have hone : [(name, symbol)].lookup name' = if name' = name then some symbol else none := by
    by_cases h : name' = name
    · simp [h]
    · rw [List.lookup_cons, beq_eq_false_iff_ne.mpr h, if_neg h]
      rfl
  cases isValue <;> cases isValue' <;>
    simp [bind, find?, List.lookup_append, hone]

namespace SymbolTable

/-- An opened scope declares nothing yet. -/
theorem find?_openScope (t : SymbolTable) (kind : ScopeKind) (current owner : Nat)
    (isValue : Bool) (scope : Nat) (name : String) :
    (t.openScope kind current owner).find? isValue scope name = t.find? isValue scope name := by
  unfold find? openScope
  rw [List.getElem?_append]
  split
  · rfl
  · rename_i h
    rw [List.getElem?_eq_none (Nat.le_of_not_lt h)]
    cases scope - t.scopes.length with
    | zero => simp [Scope.find?]
    | succ k => rfl

/-- A declaration of a known name shares its symbol. -/
theorem declare_of_known {t : SymbolTable} {symbol : Symbol} {known : Nat}
    (hk : t.find? symbol.kind.isValue symbol.scope symbol.name = some known) :
    t.declare symbol = { t with bindings := (symbol.binding, known) :: t.bindings } := by
  rw [declare, hk]

/-- A declaration of a new name adds a symbol to the list and to the table of its scope. -/
theorem declare_of_new {t : SymbolTable} {symbol : Symbol}
    (hn : t.find? symbol.kind.isValue symbol.scope symbol.name = none) :
    t.declare symbol =
      ⟨t.scopes.modify symbol.scope
          (·.bind symbol.kind.isValue symbol.name t.symbols.length),
        t.symbols ++ [symbol], (symbol.binding, t.symbols.length) :: t.bindings⟩ := by
  rw [declare, hn]

/-- A new declaration is found under its own name, scope and namespace, and nowhere else. -/
theorem find?_declare_new {t : SymbolTable} {symbol : Symbol}
    (hn : t.find? symbol.kind.isValue symbol.scope symbol.name = none)
    {isValue : Bool} {scope : Nat} {name : String} {k : Nat}
    (hf : (t.declare symbol).find? isValue scope name = some k) :
    t.find? isValue scope name = some k ∨
      (k = t.symbols.length ∧ symbol.name = name ∧ symbol.scope = scope ∧
        symbol.kind.isValue = isValue) := by
  rw [declare_of_new hn] at hf
  obtain ⟨changed, hget, hf⟩ := Option.bind_eq_some_iff.mp hf
  rw [List.getElem?_modify] at hget
  obtain ⟨s, hs, rfl⟩ := Option.map_eq_some_iff.mp hget
  split_ifs at hf with hscope
  · rw [Scope.find?_bind, Option.or_eq_some_iff] at hf
    rcases hf with hf | ⟨-, hf⟩
    · exact Or.inl (Option.bind_eq_some_iff.mpr ⟨s, hs, hf⟩)
    · split_ifs at hf with hname
      exact Or.inr ⟨(Option.some.inj hf).symm, hname.2.symm, hscope, hname.1.symm⟩
  · exact Or.inl (Option.bind_eq_some_iff.mpr ⟨s, hs, hf⟩)

/-- What is found under a name in a scope is a symbol of that name, scope and namespace; no symbol
has references yet. -/
structure Formed (t : SymbolTable) : Prop where
  found : ∀ {isValue scope name k}, t.find? isValue scope name = some k →
    ∃ s, t.symbols[k]? = some s ∧ s.name = name ∧ s.scope = scope ∧ s.kind.isValue = isValue
  unused : ∀ s ∈ t.symbols, s.references = []

namespace Formed

theorem empty : SymbolTable.empty.Formed :=
  ⟨by simp [SymbolTable.empty, find?], by simp [SymbolTable.empty]⟩

variable {t : SymbolTable} (ht : t.Formed)

include ht

theorem openScope (kind : ScopeKind) (current owner : Nat) :
    (t.openScope kind current owner).Formed := by
  refine ⟨?_, ht.unused⟩
  intro isValue scope name k hf
  rw [find?_openScope] at hf
  exact ht.found hf

theorem declare {symbol : Symbol} (hs : symbol.references = []) : (t.declare symbol).Formed := by
  cases hk : t.find? symbol.kind.isValue symbol.scope symbol.name with
  | some known =>
    rw [declare_of_known hk]
    exact ⟨ht.found, ht.unused⟩
  | none =>
    have hsymbols : (t.declare symbol).symbols = t.symbols ++ [symbol] := by
      rw [declare_of_new hk]
    refine ⟨?_, ?_⟩
    · intro isValue scope name k hf
      rw [hsymbols]
      rcases find?_declare_new hk hf with hold | ⟨rfl, hname, hscope, hkind⟩
      · obtain ⟨s, hget, hs⟩ := ht.found hold
        have hlt : k < t.symbols.length := (List.getElem?_eq_some_iff.mp hget).1
        exact ⟨s, by rw [List.getElem?_append_left hlt, hget], hs⟩
      · exact ⟨symbol, by simp, hname, hscope, hkind⟩
    · intro s hmem
      rw [hsymbols, List.mem_append, List.mem_singleton] at hmem
      rcases hmem with hmem | rfl
      · exact ht.unused s hmem
      · exact hs

theorem addVisit (v : Visit) : (t.addVisit v).Formed := by
  unfold SymbolTable.addVisit
  split
  · split
    · exact ht.declare rfl
    · exact ht
  · exact ht

/-- A name stands for a symbol of its own namespace. -/
theorem exists_of_lookup {isValue : Bool} {scope : Nat} {name : String} {k : Nat}
    (hl : t.lookup isValue scope name = some k) :
    ∃ s, t.symbols[k]? = some s ∧ s.name = name ∧ s.kind.isValue = isValue := by
  obtain ⟨outer, -, hf⟩ := List.exists_of_findSome?_eq_some hl
  obtain ⟨s, hget, hname, -, hkind⟩ := ht.found hf
  exact ⟨s, hget, hname, hkind⟩

end Formed

end SymbolTable

end TsxLint
