import TsxLint.Proofs.Binding.Symbols

/-!
# Shadowing

A name stands for what the nearest scope outwards declares under it, so a declaration in a nested
scope hides one further out. The uses of a name that a parameter binds are thus the references to
that name from which the scope of the function is the nearest one that declares it, and no others.

## Main definitions

* `Model.declaringScope?`: the nearest scope outwards that declares a name.

## Main results

* `Model.lookup_eq`: a name stands for what its declaring scope holds under it.
* `Model.references_of_param`: the references to a name of a parameter.
-/

namespace TsxLint

theorem findSome?_eq_bind_find? {α β : Type} (f : α → Option β) (l : List α) :
    l.findSome? f = (l.find? fun a => (f a).isSome).bind f := by
  induction l with
  | nil => rfl
  | cons a l ih =>
    cases ha : f a with
    | none => simp [ha, ih]
    | some b => simp [ha]

namespace Model

/-- The nearest scope outwards that declares a name as a value. -/
def declaringScope? (m : Model) (scope : Nat) (name : String) : Option Nat :=
  (m.scopes.outward scope).find? fun s => (m.scopes[s]?.bind (·.find? true name)).isSome

/-- A name stands for what its declaring scope holds under it. -/
theorem lookup_eq (m : Model) (scope : Nat) (name : String) :
    m.lookup scope name =
      (m.declaringScope? scope name).bind fun s => m.scopes[s]?.bind (·.find? true name) :=
  findSome?_eq_bind_find? _ _

variable {c : Cst}

/-- A reference stands for a symbol exactly if it names the symbol and the scope of the symbol is
the nearest one that declares the name. -/
theorem symbol_eq_some_iff {r : Reference} (hr : r ∈ (ofCst c).references) {k scope : Nat}
    {name : String} (hk : (walked c).table.find? true scope name = some k) :
    r.symbol = some k ↔
      r.name = name ∧ (ofCst c).declaringScope? r.scope r.name = some scope := by
  obtain ⟨v, -, -, -, -, hsymbol⟩ := exists_visit_of_mem hr
  rw [hsymbol, lookup_eq, Option.bind_eq_some_iff]
  simp only [← find?_walked]
  constructor
  · rintro ⟨scope', hscope', hk'⟩
    obtain ⟨y, hy, rfl, rfl, -⟩ := exists_symbol_of_find? hk
    obtain ⟨y', hy', hname, rfl, -⟩ := exists_symbol_of_find? hk'
    obtain rfl := Option.some.inj (hy.symm.trans hy')
    exact ⟨hname.symm, hscope'⟩
  · rintro ⟨rfl, hscope⟩
    exact ⟨scope, hscope, hk⟩

/-- **Nested declarations hide names of parameters.** What an identifier in a parameter of a
function declares sits in the scope of the function, and the references to it are those to its name
from which that scope is the nearest one that declares the name. -/
theorem references_of_param {v : Visit} (hv : v ∈ (ofCst c).visits) {name : String}
    (hk : v.node.kind = .bindingIdentifier name) {owner function : Node} {outer : List Node}
    (ho : v.owners = owner :: function :: outer) (hp : owner.kind.isParam = true)
    (hf : function.isFunctionLike = true) :
    ∃ k scope, (ofCst c).symbolForBinding? v.node.id = some k ∧
      (ofCst c).scopeOwnedBy? function.id = some scope ∧
      (ofCst c).referencesTo k = (ofCst c).references.filter fun r =>
        r.name == name && (ofCst c).declaringScope? r.scope r.name == some scope := by
  obtain ⟨-, -, inner, rest, hsplit, hinner⟩ := parent?_of_isParam hv ho hp
  have huse : v.binderUse (ofCst c).scopes = .declares .param v.scope owner.id :=
    Visit.binderUse_of_isParam ho hp hf
  have hdeclared := Visit.declared?_eq_some_iff.mpr ⟨name, _, _, _, hk, huse, rfl⟩
  obtain ⟨k, hbinding, hfind⟩ := symbolForBinding?_of_declared? hv hdeclared
  refine ⟨k, v.scope, hbinding, scopeOwnedBy?_of_isParam hv hsplit hinner hp hf, ?_⟩
  rw [referencesTo_eq_filter]
  refine List.filter_congr fun r hr => ?_
  rw [Bool.eq_iff_iff, beq_iff_eq, Bool.and_eq_true, beq_iff_eq, beq_iff_eq]
  exact symbol_eq_some_iff hr hfind

end Model

end TsxLint
