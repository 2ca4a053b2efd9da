import TsxLint.Proofs.Binding.Declarations

/-!
# The symbols of a file

In the model of a lowered file the symbols and the tables of the scopes say the same: a symbol is
found under its own name in the table of its own scope, and what is found there is that symbol. The
identifiers that declare a name lead to its symbol, a `var` lives in a scope that such declarations
are hoisted to, and a parameter lives in the scope of its function.

## Main definitions

* `Model.SymbolsMatchTables`: the symbols of a model and the tables of its scopes match.
* `Model.IndicesInRange`: every number of a scope, a symbol or a reference that a model stores is
  one of a scope, a symbol or a reference.
* `Model.DeclarationsInPlace`: declaring identifiers lead to symbols, and hoisting is respected.

## Main results

* `Model.SymbolsMatchTables.mem_bindingsOf_iff`: the values declared directly in a scope.
* `Model.symbols_match_scopes`: all this holds of lowered files.
-/

namespace TsxLint

/-! ### Kinds -/

namespace Kind

variable {kind : Kind}

theorem isPatternPart_of_takesParams (h : kind.takesParams = true) :
    kind.isPatternPart = false := by
  cases kind <;> first | rfl | cases h

theorem scopeKind?_of_isPatternPart (h : kind.isPatternPart = true) : kind.scopeKind? = none := by
  cases kind <;> first | rfl | cases h

theorem scopeKind?_of_isParam (h : kind.isParam = true) : kind.scopeKind? = none := by
  cases kind <;> first | rfl | cases h

end Kind

/-- A function opens a scope of its own. -/
theorem Node.scopeKind?_of_isFunctionLike {n : Node} (h : n.isFunctionLike = true) :
    n.kind.scopeKind? = some .function := by
  unfold isFunctionLike at h
  split at h
  · rename_i hk
    rw [hk, Kind.scopeKind?]
  · rename_i hk
    rw [hk, Kind.scopeKind?]
  · cases h

/-! ### The second pass -/

namespace Survey

theorem resolve_bindings (s : Survey) (index : Nat) :
    (s.resolve index).table.bindings = s.table.bindings := by
  unfold resolve
  split
  · rfl
  · split <;> rfl

/-- Resolving references leaves the symbols of the identifiers as they are. -/
theorem resolveAll_bindings (s : Survey) : s.resolveAll.table.bindings = s.table.bindings := by
  have hrun (indices : List Nat) (s : Survey) :
      (indices.foldl resolve s).table.bindings = s.table.bindings := by
    induction indices generalizing s with
    | nil => rfl
    | cons index indices ih => rw [List.foldl_cons, ih, resolve_bindings]
  exact hrun _ s

end Survey

namespace Model

/-! ### Models whose symbols match their scopes -/

/-- The symbols of a model and the tables of its scopes match. -/
structure SymbolsMatchTables (m : Model) : Prop where
  /-- What a scope holds under a name is a symbol of that name, scope and namespace. -/
  found : ∀ (scope : Nat) (s : Scope), m.scopes[scope]? = some s →
    ∀ isValue name k, s.find? isValue name = some k →
      ∃ y, m.symbols[k]? = some y ∧ y.name = name ∧ y.scope = scope ∧ y.kind.isValue = isValue
  /-- A symbol is held by its own scope under its own name, in its own namespace. -/
  listed : ∀ (k : Nat) (y : Symbol), m.symbols[k]? = some y →
    ∃ s, m.scopes[y.scope]? = some s ∧ s.find? y.kind.isValue y.name = some k
  /-- No scope holds a name twice in one namespace. -/
  distinct : ∀ s ∈ m.scopes, s.Distinct

namespace SymbolsMatchTables

variable {m : Model} (h : m.SymbolsMatchTables)
include h

/-- Symbols of one name, scope and namespace are the same. -/
theorem eq_of_same {k k' : Nat} {y y' : Symbol} (hy : m.symbols[k]? = some y)
    (hy' : m.symbols[k']? = some y') (hname : y.name = y'.name) (hscope : y.scope = y'.scope)
    (hkind : y.kind.isValue = y'.kind.isValue) : k = k' := by
  obtain ⟨s, hs, hk⟩ := h.listed k y hy
  obtain ⟨s', hs', hk'⟩ := h.listed k' y' hy'
  rw [hscope, hs'] at hs
  obtain rfl := Option.some.inj hs
  rw [hname, hkind, hk'] at hk
  exact (Option.some.inj hk).symm

/-- An entry of a table is found under its name. -/
theorem find?_of_mem {s : Scope} (hs : s ∈ m.scopes) (isValue : Bool) {name : String} {k : Nat}
    (he : (name, k) ∈ if isValue then s.values else s.types) : s.find? isValue name = some k := by
  cases isValue with
  | false => exact lookup_of_nodup (h.distinct s hs).2 he
  | true => exact lookup_of_nodup (h.distinct s hs).1 he

/-- The values declared directly in a scope are the value symbols of that scope. -/
theorem mem_bindingsOf_iff {scope k : Nat} : k ∈ m.bindingsOf scope ↔
    ∃ y, m.symbols[k]? = some y ∧ y.scope = scope ∧ y.kind.isValue = true := by
  constructor
  · intro hk
    rw [bindingsOf] at hk
    cases hs : m.scopes[scope]? with
    | none => simp [hs] at hk
    | some s =>
      rw [hs, Option.map_some, Option.getD_some] at hk
      obtain ⟨⟨name, k'⟩, he, rfl⟩ := List.mem_map.mp hk
      have hfind := h.find?_of_mem (List.mem_of_getElem? hs) true he
      obtain ⟨y, hy, -, hscope, hkind⟩ := h.found scope s hs true name _ hfind
      exact ⟨y, hy, hscope, hkind⟩
  · rintro ⟨y, hy, rfl, hkind⟩
    obtain ⟨s, hs, hfind⟩ := h.listed k y hy
    rw [hkind, Scope.find?, if_pos rfl] at hfind
    obtain ⟨before, after, heq, -⟩ := List.lookup_eq_some_iff.mp hfind
    rw [bindingsOf, hs, Option.map_some, Option.getD_some, heq]
    simp

end SymbolsMatchTables

/-- Every number of a scope, a symbol or a reference that a model stores is in range. -/
structure IndicesInRange (m : Model) : Prop where
  visit : ∀ v ∈ m.visits, v.scope < m.scopes.length
  parent : ∀ s ∈ m.scopes, ∀ p ∈ s.parent, p < m.scopes.length
  values : ∀ s ∈ m.scopes, ∀ e ∈ s.values, e.2 < m.symbols.length
  types : ∀ s ∈ m.scopes, ∀ e ∈ s.types, e.2 < m.symbols.length
  symbolScope : ∀ y ∈ m.symbols, y.scope < m.scopes.length
  symbolReferences : ∀ y ∈ m.symbols, ∀ i ∈ y.references, i < m.references.length
  binding : ∀ e ∈ m.table.bindings, e.2 < m.symbols.length
  referenceScope : ∀ r ∈ m.references, r.scope < m.scopes.length
  referenceSymbol : ∀ r ∈ m.references, ∀ k ∈ r.symbol, k < m.symbols.length
  referenceOf : ∀ e ∈ m.referenceOf, e.2 < m.references.length

/-- Declaring identifiers lead to their symbols, and symbols live in the scopes for their kinds. -/
structure DeclarationsInPlace (m : Model) : Prop where
  /-- An identifier that declares a name leads to a symbol of that name. -/
  declares : ∀ v ∈ m.visits, ∀ name, v.Declares name →
    ∃ k y, m.symbolForBinding? v.node.id = some k ∧ m.symbols[k]? = some y ∧ y.name = name
  /-- The identifier that a symbol was first declared by leads back to it. -/
  binding : ∀ (k : Nat) (y : Symbol), m.symbols[k]? = some y →
    m.symbolForBinding? y.binding = some k
  /-- A `var` lives in the scope of the module, a function or a static block: the nearest such scope
  from its identifier outwards. -/
  var : ∀ y ∈ m.symbols, y.kind = .var → y.scope = m.scopes.varScope (m.scopeOf y.binding) ∧
    ∃ s, m.scopes[y.scope]? = some s ∧ (s.kind = .module ∨ s.kind = .function)
  /-- A parameter lives in the scope of the function whose parameter it is. -/
  param : ∀ y ∈ m.symbols, y.kind = .param →
    ∃ p f, m.node? y.declaration = some p ∧ p.kind.isParam = true ∧ m.parent? p.id = some f ∧
      f.isFunctionLike = true ∧ m.scopeOwnedBy? f.id = some y.scope

/-! ### Lowered files -/

variable {c : Cst}

variable (c) in
/-- The tables that the walk through a lowered file leaves hold what its visits declare. -/
theorem walked_declared : (walked c).Declared :=
  walked_induction c .empty (fun _ n hopen hs => hs.enter n hopen)
    fun _ n _ hstack hne hs => hs.leave n (hs.mirrors.leave hstack hne)

variable (c) in
theorem bindings_ofCst : (ofCst c).table.bindings = (walked c).table.bindings :=
  (walked c).resolveAll_bindings

/-- What a scope of a lowered file holds is what the walk has left in it. -/
theorem find?_walked {isValue : Bool} {scope : Nat} {name : String} :
    (walked c).table.find? isValue scope name =
      (ofCst c).scopes[scope]?.bind (·.find? isValue name) := by
  rw [scopes_ofCst]
  rfl

/-- The symbols of a lowered file are those that the walk has declared, with references. -/
theorem symbols_walked (k : Nat) : (walked c).table.symbols[k]? =
    (ofCst c).symbols[k]?.map fun (y : Symbol) => { y with references := [] } := by
  have hsymbols : (ofCst c).symbols[k]? = _ := (ofCst_resolved c).symbols k
  rw [hsymbols, Option.map_map]
  cases hy : (walked c).table.symbols[k]? with
  | none => rfl
  | some y =>
    have hunused := (walked_formed c).table.unused y (List.mem_of_getElem? hy)
    simp [← hunused]

/-- The symbol that is found under a name. -/
theorem exists_symbol_of_find? {isValue : Bool} {scope : Nat} {name : String} {k : Nat}
    (hk : (walked c).table.find? isValue scope name = some k) :
    ∃ y, (ofCst c).symbols[k]? = some y ∧ y.name = name ∧ y.scope = scope ∧
      y.kind.isValue = isValue := by
  obtain ⟨y', hy', hname, hscope, hkind⟩ := (walked_formed c).table.found hk
  rw [symbols_walked] at hy'
  obtain ⟨y, hy, rfl⟩ := Option.map_eq_some_iff.mp hy'
  exact ⟨y, hy, hname, hscope, hkind⟩

/-- A symbol is found under its name. -/
theorem find?_of_symbol {k : Nat} {y : Symbol} (hy : (ofCst c).symbols[k]? = some y) :
    (walked c).table.find? y.kind.isValue y.scope y.name = some k :=
  (walked_declared c).holds.listed k { y with references := [] }
    (by rw [symbols_walked, hy, Option.map_some])

/-- A symbol was declared by a visit. -/
theorem exists_visit_of_symbol {y : Symbol} (hy : y ∈ (ofCst c).symbols) :
    ∃ v ∈ (ofCst c).visits,
      v.declared? (ofCst c).scopes = some { y with references := [] } := by
  obtain ⟨k, hk⟩ := List.getElem?_of_mem hy
  have hwalked := symbols_walked (c := c) k
  rw [hk, Option.map_some] at hwalked
  have hmem := (walked_declared c).holds.origin _ (List.mem_of_getElem? hwalked)
  obtain ⟨v, hv, hdeclared⟩ := List.mem_filterMap.mp hmem
  exact ⟨v, by rwa [visits_ofCst], by rwa [scopes_ofCst]⟩

/-- The identifier of a symbol declares it. -/
theorem exists_binderUse_of_symbol {y : Symbol} (hy : y ∈ (ofCst c).symbols) :
    ∃ v ∈ (ofCst c).visits, v.node.id = y.binding ∧
      v.binderUse (ofCst c).scopes = .declares y.kind y.scope y.declaration := by
  obtain ⟨v, hv, hdeclared⟩ := exists_visit_of_symbol hy
  obtain ⟨name, kind, scope, declaration, -, hu, heq⟩ := Visit.declared?_eq_some_iff.mp hdeclared
  obtain ⟨-, rfl, rfl, hbinding, rfl, -, -⟩ := Symbol.mk.inj heq
  exact ⟨v, hv, hbinding.symm, hu⟩

variable (c) in
theorem symbolsMatchTables_ofCst : (ofCst c).SymbolsMatchTables where
  found := by
    intro scope s hs isValue name k hk
    refine exists_symbol_of_find? ?_
    rw [find?_walked, hs, Option.bind_some, hk]
  listed := by
    intro k y hy
    have hfind := find?_of_symbol hy
    rw [find?_walked] at hfind
    exact Option.bind_eq_some_iff.mp hfind
  distinct := by
    rw [scopes_ofCst]
    exact (walked_declared c).holds.distinct

/-! ### Identifiers -/

variable (c) in
/-- No identifier declares twice. -/
theorem bindings_nodup : ((ofCst c).table.bindings.map Prod.fst).Nodup := by
  rw [bindings_ofCst, (walked_declared c).holds.keys, List.nodup_reverse, ← visits_ofCst]
  refine (sublist_map_filterMap (fun v y hy => ?_) (ofCst c).visits).nodup (visits_nodup c)
  obtain ⟨name, kind, scope, declaration, -, -, rfl⟩ := Visit.declared?_eq_some_iff.mp hy
  rfl

/-- What an identifier declares is found under its number. -/
theorem symbolForBinding?_of_declared? {v : Visit} (hv : v ∈ (ofCst c).visits) {y : Symbol}
    (hy : v.declared? (ofCst c).scopes = some y) :
    ∃ k, (ofCst c).symbolForBinding? v.node.id = some k ∧
      (walked c).table.find? y.kind.isValue y.scope y.name = some k := by
  rw [visits_ofCst] at hv
  rw [scopes_ofCst] at hy
  obtain ⟨k, hmem, hk⟩ := (walked_declared c).holds.bound y (List.mem_filterMap.mpr ⟨v, hv, hy⟩)
  rw [← bindings_ofCst] at hmem
  obtain ⟨name, kind, scope, declaration, -, -, rfl⟩ := Visit.declared?_eq_some_iff.mp hy
  exact ⟨k, lookup_of_nodup (bindings_nodup c) hmem, hk⟩

/-- The number beside an identifier is that of a symbol. -/
theorem exists_symbol_of_mem_bindings {e : Nat × Nat} (he : e ∈ (ofCst c).table.bindings) :
    ∃ y, (ofCst c).symbols[e.2]? = some y := by
  have hkey : e.1 ∈ (ofCst c).table.bindings.map Prod.fst := List.mem_map_of_mem he
  have hfound := lookup_of_nodup (bindings_nodup c) he
  rw [bindings_ofCst, (walked_declared c).holds.keys, List.mem_reverse] at hkey
  obtain ⟨y, hy, hid⟩ := List.mem_map.mp hkey
  obtain ⟨k, hmem, hk⟩ := (walked_declared c).holds.bound y hy
  rw [← bindings_ofCst] at hmem
  rw [← hid, lookup_of_nodup (bindings_nodup c) hmem] at hfound
  obtain ⟨y', hy', -⟩ := exists_symbol_of_find? hk
  exact ⟨y', Option.some.inj hfound ▸ hy'⟩

/-! ### Where symbols live -/

/-- A visited node sits in one of the scopes. -/
theorem scope_lt_of_mem {v : Visit} (hv : v ∈ (ofCst c).visits) :
    v.scope < (ofCst c).scopes.length := by
  by_cases hne : v.ancestors = []
  · obtain ⟨s, hs, -⟩ := (scopesMirrorNodes_ofCst c).first
    rw [(walked_mirrors c).outermost v (by rwa [← visits_ofCst]) hne]
    exact (List.getElem?_eq_some_iff.mp hs).1
  · rw [scopes_ofCst]
    exact (walked_mirrors c).scope_lt (by rwa [← visits_ofCst]) hne

/-- From every scope outwards there is one that `var` declarations are hoisted to. -/
theorem isVarScope_varScope {scope : Nat} (hscope : scope < (ofCst c).scopes.length) :
    ∃ s, (ofCst c).scopes[(ofCst c).scopes.varScope scope]? = some s ∧
      s.kind.isVarScope = true := by
  obtain ⟨first, hfirst, hmodule, -, -⟩ := (scopesMirrorNodes_ofCst c).first
  have hlast := ((scopesMirrorNodes_ofCst c).rooted.outward_spec hscope).2
  rw [ScopeTree.varScope]
  cases hfind : ((ofCst c).scopes.outward scope).find? fun s =>
      ((ofCst c).scopes[s]?).any (·.kind.isVarScope) with
  | none =>
    have hnot := List.find?_eq_none.mp hfind 0 (List.mem_of_getLast? hlast)
    simp [hfirst, hmodule, ScopeKind.isVarScope] at hnot
  | some target =>
    have hvar := List.find?_some hfind
    rw [Option.any_eq_true] at hvar
    exact hvar

/-- Around a name of a parameter are the parts of its pattern, the parameter, and directly around
that the function. -/
theorem parent?_of_isParam {v : Visit} (hv : v ∈ (ofCst c).visits) {owner function : Node}
    {outer : List Node} (ho : v.owners = owner :: function :: outer)
    (hp : owner.kind.isParam = true) :
    (ofCst c).node? owner.id = some owner ∧ (ofCst c).parent? owner.id = some function ∧
      ∃ inner rest, v.ancestors = inner ++ owner :: function :: rest ∧
        ∀ p ∈ inner, p.kind.isPatternPart = true := by
  have htree := isTree_ofCst c
  have hancestors : (ofCst c).ancestors v.node.id = v.ancestors := ancestors_of_place
    (place_mem_of_mem_visits hv)
  obtain ⟨inner, around, hsplit, hinner, -, haround⟩ := List.filter_eq_cons_iff.mp ho
  have howner : owner ∈ (ofCst c).nodes := htree.mem_nodes_of_mem_ancestors
    (List.mem_map_of_mem hv) (by rw [hancestors, hsplit]; simp)
  have hround : (ofCst c).ancestors owner.id = around :=
    htree.ancestors_of_eq_append (hancestors.trans hsplit)
  -- A parameter is held by a node that takes some, which is no part of a pattern.
  obtain ⟨q, rest, rfl⟩ : ∃ q rest, around = q :: rest := by
    refine List.exists_cons_of_ne_nil ?_
    rintro rfl
    cases haround
  have hparent : (ofCst c).parent? owner.id = some q := by
    rw [parent?, hround, List.head?_cons]
  obtain ⟨hq, hchild⟩ := (htree.parent?_eq_some_iff owner howner q).mp hparent
  have htakes : q.kind.takesParams = true := by
    rw [nodes_ofCst] at hq
    exact Program.ofCst_holdsParams c q hq owner hchild hp
  obtain rfl : q = function := by
    rw [List.filter_cons_of_pos (by simp [Kind.isPatternPart_of_takesParams htakes])] at haround
    exact (List.cons.inj haround).1
  refine ⟨(htree.node?_eq_some_iff _ _).mpr ⟨howner, rfl⟩, hparent, inner, rest, hsplit, ?_⟩
  simpa using hinner

/-- The names of a parameter sit in the scope of its function: no part of a pattern opens one. -/
theorem scopeOwnedBy?_of_isParam {v : Visit} (hv : v ∈ (ofCst c).visits) {owner function : Node}
    {inner rest : List Node} (hsplit : v.ancestors = inner ++ owner :: function :: rest)
    (hinner : ∀ p ∈ inner, p.kind.isPatternPart = true)
    (hp : owner.kind.isParam = true) (hf : function.isFunctionLike = true) :
    (ofCst c).scopeOwnedBy? function.id = some v.scope := by
  have hopens : v.ancestors.find? Node.opensScope = some function := by
    refine List.find?_eq_some_iff_append.mpr
      ⟨by rw [Node.opensScope, Node.scopeKind?_of_isFunctionLike hf, Option.isSome_some],
        inner ++ [owner], rest, by simp [hsplit], fun p hmem => ?_⟩
    rw [List.mem_append, List.mem_singleton] at hmem
    rcases hmem with hmem | rfl
    · simp [Node.opensScope, Kind.scopeKind?_of_isPatternPart (hinner p hmem)]
    · simp [Node.opensScope, Kind.scopeKind?_of_isParam hp]
  obtain ⟨p, f, hfind, hframe, hid⟩ := (walked_mirrors c).visit v (by rwa [← visits_ofCst])
    (by simp [hsplit])
  obtain rfl := Option.some.inj (hopens.symm.trans hfind)
  rw [← scopes_ofCst, ScopeTree.getElem?_frames] at hframe
  obtain ⟨s, hs, rfl⟩ := Option.map_eq_some_iff.mp hframe
  exact scopeOwnedBy?_ofCst_eq_some_iff.mpr ⟨s, hs, hid⟩

variable (c) in
theorem indicesInRange_ofCst : (ofCst c).IndicesInRange where
  visit := fun v hv => scope_lt_of_mem hv
  parent := by
    intro s hs p hp
    obtain ⟨k, hk⟩ := List.getElem?_of_mem hs
    obtain ⟨v, hv, -, -, hparent⟩ := exists_visit_of_scope hk
    rw [hparent] at hp
    split_ifs at hp
    · cases hp
    · exact Option.some.inj hp ▸ scope_lt_of_mem hv
  values := by
    intro s hs e he
    obtain ⟨k, hk⟩ := List.getElem?_of_mem hs
    have hmatch := symbolsMatchTables_ofCst c
    obtain ⟨y, hy, -⟩ := hmatch.found k s hk true e.1 e.2 (hmatch.find?_of_mem hs true he)
    exact (List.getElem?_eq_some_iff.mp hy).1
  types := by
    intro s hs e he
    obtain ⟨k, hk⟩ := List.getElem?_of_mem hs
    have hmatch := symbolsMatchTables_ofCst c
    obtain ⟨y, hy, -⟩ := hmatch.found k s hk false e.1 e.2 (hmatch.find?_of_mem hs false he)
    exact (List.getElem?_eq_some_iff.mp hy).1
  symbolScope := by
    intro y hy
    obtain ⟨k, hk⟩ := List.getElem?_of_mem hy
    obtain ⟨s, hs, -⟩ := (symbolsMatchTables_ofCst c).listed k y hk
    exact (List.getElem?_eq_some_iff.mp hs).1
  symbolReferences := by
    intro y hy i hi
    obtain ⟨k, hk⟩ := List.getElem?_of_mem hy
    rw [references_of_symbol hk, List.mem_filter, List.mem_range] at hi
    exact hi.1
  binding := by
    intro e he
    obtain ⟨y, hy⟩ := exists_symbol_of_mem_bindings he
    exact (List.getElem?_eq_some_iff.mp hy).1
  referenceScope := by
    intro r hr
    obtain ⟨v, hv, -, hscope, -⟩ := exists_visit_of_mem hr
    exact hscope ▸ scope_lt_of_mem hv
  referenceSymbol := by
    intro r hr k hk
    obtain ⟨v, -, -, -, -, hsymbol⟩ := exists_visit_of_mem hr
    rw [hsymbol] at hk
    obtain ⟨y, hy, -⟩ := isValue_of_lookup hk
    exact (List.getElem?_eq_some_iff.mp hy).1
  referenceOf := by
    intro e he
    rw [referenceOf_ofCst, List.mem_reverse] at he
    simpa using List.snd_lt_of_mem_zipIdx he

variable (c) in
theorem declarationsInPlace_ofCst : (ofCst c).DeclarationsInPlace where
  declares := by
    intro v hv name hname
    obtain ⟨y, hy, rfl⟩ := (v.declares_iff (ofCst c).scopes name).mp hname
    obtain ⟨k, hbinding, hk⟩ := symbolForBinding?_of_declared? hv hy
    obtain ⟨y', hy', hname, -⟩ := exists_symbol_of_find? hk
    exact ⟨k, y', hbinding, hy', hname⟩
  binding := by
    intro k y hy
    obtain ⟨v, hv, hdeclared⟩ := exists_visit_of_symbol (List.mem_of_getElem? hy)
    obtain ⟨k', hbinding, hk'⟩ := symbolForBinding?_of_declared? hv hdeclared
    obtain rfl := Option.some.inj ((find?_of_symbol hy).symm.trans hk')
    obtain ⟨name, kind, scope, declaration, -, -, heq⟩ := Visit.declared?_eq_some_iff.mp hdeclared
    rw [← hbinding]
    exact congrArg _ (congrArg Symbol.binding heq)
  var := by
    intro y hy hkind
    obtain ⟨v, hv, hid, hu⟩ := exists_binderUse_of_symbol hy
    obtain ⟨owner, outer, -, -, htarget, -⟩ := Visit.owner_of_binderUse hu
    rw [hkind] at htarget
    have hscope := htarget.eq_varScope
    obtain ⟨s, hs, hvar⟩ := isVarScope_varScope (scope_lt_of_mem hv)
    rw [← hid, scopeOf_of_mem hv]
    refine ⟨hscope, s, by rwa [hscope], ?_⟩
    cases hk : s.kind <;> simp [hk, ScopeKind.isVarScope] at hvar ⊢
  param := by
    intro y hy hkind
    obtain ⟨v, hv, hid, hu⟩ := exists_binderUse_of_symbol hy
    obtain ⟨owner, outer, ho, hdeclaration, htarget, hparam⟩ := Visit.owner_of_binderUse hu
    rw [hkind] at htarget
    obtain ⟨-, hp, function, rest, rfl, hf⟩ | ⟨hne, -⟩ := hparam
    · obtain ⟨hnode, hparent, inner, rest, hsplit, hinner⟩ := parent?_of_isParam hv ho hp
      rw [← hdeclaration, htarget.eq_of_param]
      exact ⟨owner, function, hnode, hp, hparent, hf,
        scopeOwnedBy?_of_isParam hv hsplit hinner hp hf⟩
    · exact absurd hkind hne

/-- **Symbols and scopes match.** In the model of a lowered file what a scope holds under a name is
a symbol of that name, scope and namespace, and every symbol is held so; no scope holds two symbols
of one name in one namespace. All stored numbers of scopes, symbols and references are in range. An
identifier that declares a name leads to a symbol of that name, and the identifier of a symbol to
the symbol itself. A `var` lives in the nearest scope of the module, a function or a static block,
and a parameter in the scope of the function that directly holds it. -/
theorem symbols_match_scopes (c : Cst) :
    (ofCst c).SymbolsMatchTables ∧
    (∀ (k k' : Nat) (y y' : Symbol), (ofCst c).symbols[k]? = some y →
      (ofCst c).symbols[k']? = some y' → y.name = y'.name → y.scope = y'.scope →
      y.kind.isValue = y'.kind.isValue → k = k') ∧
    (ofCst c).IndicesInRange ∧ (ofCst c).DeclarationsInPlace :=
  have hmatch := symbolsMatchTables_ofCst c
  ⟨hmatch, fun _ _ _ _ hy hy' hname hscope hkind => hmatch.eq_of_same hy hy' hname hscope hkind,
    indicesInRange_ofCst c, declarationsInPlace_ofCst c⟩

end Model

end TsxLint
