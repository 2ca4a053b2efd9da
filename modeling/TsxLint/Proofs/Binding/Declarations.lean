import TsxLint.Proofs.Binding.ScopeTree
import TsxLint.Proofs.Lowering.Forms

/-!
# Declarations

One routine declares every name. It is told the kind of the declaration and the scope that the name
goes to: the current scope, the one around it, the first one, or the nearest one that `var`
declarations are hoisted to. A name that its scope holds already shares the symbol. Whatever a walk
has declared so far, each symbol is found under its own name in the table of its own scope, and no
scope holds a name twice.

## Main definitions

* `ScopeTree.Target`: the scope that a declaration goes to.
* `Visit.Declares`, `Visit.declared?`: the visits that declare a name, and the symbols they declare.
* `SymbolTable.Holds`: tables that hold some declarations.

## Main results

* `Visit.declares_iff`: which identifiers declare a name.
* `SymbolTable.Holds.declare`: a declaration is added to those that the tables hold.
* `Survey.Declared.enter`: the tables of a survey hold what its visits declare.
-/

namespace TsxLint

/-! ### Scopes during a walk -/

namespace ScopeTree

variable {scopes : ScopeTree}

theorem le_of_mem_outward {k j : Nat} (hj : j ∈ scopes.outward k) : j ≤ k := by
  induction k using Nat.strongRecOn with
  | _ k ih =>
    rcases scopes.outward_cases k with heq | ⟨p, -, hlt, heq⟩
    · rw [heq, List.mem_singleton] at hj
      exact Nat.le_of_eq hj
    · rw [heq, List.mem_cons] at hj
      rcases hj with rfl | hj
      · exact Nat.le_refl j
      · exact Nat.le_trans (ih p hlt hj) (Nat.le_of_lt hlt)

/-- Where a declaration made in a scope goes: to the scope itself, for the name of a function or a
class also to the scope around it, for a `var` to the nearest scope that they are hoisted to, and
for an import to the first scope. -/
inductive Target (scopes : ScopeTree) (scope : Nat) : DeclKind → Nat → Prop
  | inside {kind : DeclKind} (hvar : kind ≠ .var) (himport : kind ≠ .importName) :
      Target scopes scope kind scope
  | around {kind : DeclKind} (hkind : kind = .function ∨ kind = .classLike) :
      Target scopes scope kind ((scopes.parent? scope).getD scope)
  | hoisted : Target scopes scope .var (scopes.varScope scope)
  | outermost : Target scopes scope .importName 0

theorem Target.eq_varScope {scope target : Nat} (ht : scopes.Target scope .var target) :
    target = scopes.varScope scope := by
  cases ht with
  | inside hvar himport => exact absurd rfl hvar
  | around hkind => simp at hkind
  | hoisted => rfl

theorem Target.eq_of_param {scope target : Nat} (ht : scopes.Target scope .param target) :
    target = scope := by
  cases ht with
  | inside hvar himport => rfl
  | around hkind => simp at hkind

theorem Target.eq_zero {scope target : Nat} (ht : scopes.Target scope .importName target) :
    target = 0 := by
  cases ht with
  | inside hvar himport => exact absurd rfl himport
  | around hkind => simp at hkind
  | outermost => rfl

/-- What is declared in a scope goes to an earlier scope or to that one. -/
theorem Target.le {scope target : Nat} {kind : DeclKind} (ht : scopes.Target scope kind target)
    (hparent : ∀ p ∈ scopes.parent? scope, p < scope) : target ≤ scope := by
  cases ht with
  | inside hvar himport => exact Nat.le_refl scope
  | around hkind =>
    cases hp : scopes.parent? scope with
    | none => exact Nat.le_refl scope
    | some p => exact Nat.le_of_lt (hparent p hp)
  | hoisted =>
    rw [varScope]
    cases hfind : (scopes.outward scope).find? fun s => (scopes[s]?).any (·.kind.isVarScope) with
    | none => exact Nat.zero_le scope
    | some target => exact le_of_mem_outward (List.mem_of_find?_eq_some hfind)
  | outermost => exact Nat.zero_le scope

section

variable {scopes' : ScopeTree} (h : scopes.frames <+: scopes'.frames)

include h

theorem getElem?_frames_of_prefix {k : Nat} (hk : k < scopes.length) :
    scopes'.frames[k]? = scopes.frames[k]? := by
  obtain ⟨later, hlater⟩ := h
  rw [← hlater, List.getElem?_append_left (by simpa using hk)]

theorem parent?_of_prefix {k : Nat} (hk : k < scopes.length) :
    scopes'.parent? k = scopes.parent? k := by
  rw [parent?_eq_frames, parent?_eq_frames, getElem?_frames_of_prefix h hk]

theorem outward_of_prefix {k : Nat} (hk : k < scopes.length) :
    scopes'.outward k = scopes.outward k := by
  induction k using Nat.strongRecOn with
  | _ k ih =>
    rw [outward, outward, parent?_of_prefix h hk]
    cases scopes.parent? k with
    | none => rfl
    | some p =>
      by_cases hlt : p < k
      · simp only [hlt, if_true, ih p hlt (Nat.lt_trans hlt hk)]
      · simp only [hlt, if_false]

theorem varScope_of_prefix {k : Nat} (hk : k < scopes.length) :
    scopes'.varScope k = scopes.varScope k := by
  rw [varScope, varScope, outward_of_prefix h hk]
  congr 1
  refine List.find?_congr fun j hj => ?_
  have hframe := getElem?_frames_of_prefix h (Nat.lt_of_le_of_lt (le_of_mem_outward hj) hk)
  rw [getElem?_frames, getElem?_frames] at hframe
  have hkinds := congrArg (fun f => (f : Option Frame).any (·.kind.isVarScope)) hframe
  simpa [Option.any_map, Function.comp_def, Scope.frame] using hkinds

end

end ScopeTree

/-! ### What a visit declares -/

/-- Whether a node declares the names that it binds. Parameters do so in functions only. -/
def Kind.isDeclaring : Kind → Bool
  | variableDeclarator | function .. | classLike _ | importSpecifier _ | catchClause => true
  | interfaceDeclaration | typeAliasDeclaration | forInStatement _ _ (.declares _) => true
  | _ => false

namespace Visit

/-- The nodes around a visit that are no parts of patterns. -/
def owners (v : Visit) : List Node := v.ancestors.filter fun n => !n.kind.isPatternPart

/-- The visit is to an identifier that declares a name: in a variable declarator, a function, a
class, an import, a catch clause, an interface, a type alias or the head of a loop, or in a
parameter of a function. -/
inductive Declares (v : Visit) : String → Prop
  | owned {name : String} {owner : Node} {outer : List Node}
      (hk : v.node.kind = .bindingIdentifier name) (ho : v.owners = owner :: outer)
      (hd : owner.kind.isDeclaring = true) : Declares v name
  | param {name : String} {owner function : Node} {outer : List Node}
      (hk : v.node.kind = .bindingIdentifier name) (ho : v.owners = owner :: function :: outer)
      (hp : owner.kind.isParam = true) (hf : function.isFunctionLike = true) : Declares v name

/-- The symbol that a visit declares. -/
def declared? (scopes : ScopeTree) (v : Visit) : Option Symbol :=
  match v.node.kind, v.binderUse scopes with
  | .bindingIdentifier name, .declares kind scope declaration =>
    some ⟨name, kind, scope, v.node.id, declaration, v.node.span, []⟩
  | _, _ => none

variable {scopes : ScopeTree} {v : Visit}

theorem binderUse_of_owners_eq_nil (h : v.owners = []) : v.binderUse scopes = .none := by
  rw [owners] at h
  rw [binderUse, h]

theorem ancestors_ne_nil {owner : Node} {outer : List Node} (h : v.owners = owner :: outer) :
    v.ancestors ≠ [] := by
  intro hnil
  simp [owners, hnil] at h

/-- A variable goes to the scope for its keyword. -/
theorem target_variableTarget (scopes : ScopeTree) (scope : Nat) (keyword : VariableKind) :
    scopes.Target scope (variableTarget scopes scope keyword).1
      (variableTarget scopes scope keyword).2 ∧
      (variableTarget scopes scope keyword).1 ≠ .param := by
  cases keyword with
  | var =>
    simp only [variableTarget]
    exact ⟨.hoisted, by decide⟩
  | letVar =>
    simp only [variableTarget]
    exact ⟨.inside (by decide) (by decide), by decide⟩
  | constVar =>
    simp only [variableTarget]
    exact ⟨.inside (by decide) (by decide), by decide⟩

/-- What is known of a declaration: the node that declares the name is the nearest one around it
that is no part of a pattern; the name goes to the scope for its kind; and the node is a parameter
of a function, or one that declares whatever it binds. -/
theorem owner_of_binderUse {kind : DeclKind} {scope declaration : Nat}
    (h : v.binderUse scopes = .declares kind scope declaration) :
    ∃ owner outer, v.owners = owner :: outer ∧ owner.id = declaration ∧
      scopes.Target v.scope kind scope ∧
      (kind = .param ∧ owner.kind.isParam = true ∧
          (∃ function rest, outer = function :: rest ∧ function.isFunctionLike = true) ∨
        kind ≠ .param ∧ owner.kind.isDeclaring = true) := by
  cases howners : v.owners with
  | nil => simp [binderUse_of_owners_eq_nil howners] at h
  | cons owner outer =>
    refine ⟨owner, outer, rfl, ?_⟩
    rw [owners] at howners
    simp only [binderUse, howners] at h
    split at h
    case h_1 hk | h_9 hk =>
      cases h
      obtain ⟨htarget, hne⟩ := target_variableTarget scopes v.scope _
      exact ⟨rfl, htarget, .inr ⟨hne, by rw [hk]; rfl⟩⟩
    case h_2 hk =>
      split_ifs at h with hany
      cases h
      obtain ⟨function, hhead, hf⟩ := (Option.any_eq_true _ _).mp hany
      obtain ⟨rest, rfl⟩ := List.head?_eq_some_iff.mp hhead
      exact ⟨rfl, .inside (by decide) (by decide),
        .inl ⟨rfl, by rw [hk]; rfl, function, rest, rfl, hf⟩⟩
    case h_3 hk | h_4 hk =>
      cases h
      refine ⟨rfl, ?_, .inr ⟨by decide, by rw [hk]; rfl⟩⟩
      split_ifs
      · exact .around (by simp)
      · exact .inside (by decide) (by decide)
    case h_5 hk =>
      cases h
      exact ⟨rfl, .outermost, .inr ⟨by decide, by rw [hk]; rfl⟩⟩
    case h_6 hk | h_7 hk | h_8 hk =>
      cases h
      exact ⟨rfl, .inside (by decide) (by decide), .inr ⟨by decide, by rw [hk]; rfl⟩⟩
    all_goals cases h

theorem exists_binderUse_of_isDeclaring (scopes : ScopeTree) {owner : Node} {outer : List Node}
    (ho : v.owners = owner :: outer) (hd : owner.kind.isDeclaring = true) :
    ∃ kind scope, v.binderUse scopes = .declares kind scope owner.id := by
  rw [owners] at ho
  unfold Kind.isDeclaring at hd
  split at hd
  case h_9 => cases hd
  all_goals
    rename_i hk
    simp only [binderUse, ho, hk]
    exact ⟨_, _, rfl⟩

theorem binderUse_of_isParam {owner function : Node} {outer : List Node}
    (ho : v.owners = owner :: function :: outer) (hp : owner.kind.isParam = true)
    (hf : function.isFunctionLike = true) :
    v.binderUse scopes = .declares .param v.scope owner.id := by
  rw [owners] at ho
  unfold Kind.isParam at hp
  split at hp
  · rename_i hk
    simp [binderUse, ho, hk, hf]
  · cases hp

theorem declared?_eq_some_iff {y : Symbol} : v.declared? scopes = some y ↔
    ∃ name kind scope declaration, v.node.kind = .bindingIdentifier name ∧
      v.binderUse scopes = .declares kind scope declaration ∧
      y = ⟨name, kind, scope, v.node.id, declaration, v.node.span, []⟩ := by
  unfold declared?
  constructor
  · intro h
    split at h
    · rename_i name kind scope declaration hk hu
      exact ⟨name, kind, scope, declaration, hk, hu, (Option.some.inj h).symm⟩
    · cases h
  · rintro ⟨name, kind, scope, declaration, hk, hu, rfl⟩
    simp only [hk, hu]

/-- Which visits declare a name does not depend on the scopes that are open. -/
theorem declares_iff (scopes : ScopeTree) (v : Visit) (name : String) :
    v.Declares name ↔ ∃ y, v.declared? scopes = some y ∧ y.name = name := by
  simp only [declared?_eq_some_iff]
  constructor
  · rintro (⟨hk, ho, hd⟩ | ⟨hk, ho, hp, hf⟩)
    · obtain ⟨kind, scope, hu⟩ := exists_binderUse_of_isDeclaring scopes ho hd
      exact ⟨_, ⟨name, kind, scope, _, hk, hu, rfl⟩, rfl⟩
    · exact ⟨_, ⟨name, _, _, _, hk, binderUse_of_isParam ho hp hf, rfl⟩, rfl⟩
  · rintro ⟨_, ⟨name', kind, scope, declaration, hk, hu, rfl⟩, rfl⟩
    obtain ⟨owner, outer, ho, -, -, ⟨-, hp, function, rest, rfl, hf⟩ | ⟨-, hd⟩⟩ :=
      owner_of_binderUse hu
    · exact .param hk ho hp hf
    · exact .owned hk ho hd

/-- What a visit declares is settled when it is made: scopes that are opened later do not matter. -/
theorem declared?_of_prefix {scopes' : ScopeTree} (h : scopes.frames <+: scopes'.frames)
    (hv : v.ancestors ≠ [] → v.scope < scopes.length) :
    v.declared? scopes' = v.declared? scopes := by
  have huse : v.binderUse scopes' = v.binderUse scopes := by
    cases howners : v.owners with
    | nil => rw [binderUse_of_owners_eq_nil howners, binderUse_of_owners_eq_nil howners]
    | cons owner outer =>
      have hscope := hv (ancestors_ne_nil howners)
      have hvariable : variableTarget scopes' v.scope = variableTarget scopes v.scope := by
        funext keyword
        cases keyword <;> simp [variableTarget, ScopeTree.varScope_of_prefix h hscope]
      simp only [binderUse, hvariable, ScopeTree.parent?_of_prefix h hscope]
  rw [declared?, declared?, huse]

end Visit

/-! ### Tables that hold declarations -/

namespace Scope

/-- A scope that holds a name once. -/
def Distinct (s : Scope) : Prop := (s.values.map Prod.fst).Nodup ∧ (s.types.map Prod.fst).Nodup

theorem Distinct.bind {s : Scope} (hs : s.Distinct) {isValue : Bool} {name : String}
    (hnew : s.find? isValue name = none) (symbol : Nat) :
    (s.bind isValue name symbol).Distinct := by
  have hadd {entries : List (String × Nat)} (hentries : (entries.map Prod.fst).Nodup)
      (hnone : entries.lookup name = none) :
      ((entries ++ [(name, symbol)]).map Prod.fst).Nodup := by
    rw [List.map_append, List.map_singleton, List.nodup_append]
    refine ⟨hentries, List.nodup_singleton name, ?_⟩
    rintro _ hmem _ hname rfl
    obtain ⟨e, he, rfl⟩ := List.mem_map.mp hmem
    have hne := List.lookup_eq_none_iff.mp hnone e he
    rw [List.mem_singleton.mp hname] at hne
    simp at hne
  cases isValue with
  | false => exact ⟨hs.1, hadd hs.2 hnew⟩
  | true => exact ⟨hadd hs.1 hnew, hs.2⟩

end Scope

namespace SymbolTable

variable {t : SymbolTable}

theorem addVisit_eq (t : SymbolTable) (v : Visit) :
    t.addVisit v = (v.declared? t.scopes).elim t t.declare := by
  unfold addVisit Visit.declared?
  cases v.node.kind <;> cases v.binderUse t.scopes <;> rfl

/-- What was found stays found. -/
theorem find?_declare_of_some (symbol : Symbol) {isValue : Bool} {scope : Nat} {name : String}
    {k : Nat} (hf : t.find? isValue scope name = some k) :
    (t.declare symbol).find? isValue scope name = some k := by
  cases hk : t.find? symbol.kind.isValue symbol.scope symbol.name with
  | some known => rwa [declare_of_known hk]
  | none =>
    obtain ⟨s, hs, hf⟩ := Option.bind_eq_some_iff.mp hf
    rw [declare_of_new hk, find?, List.getElem?_modify, hs, Option.map_eq_map, Option.map_some,
      Option.bind_some]
    split_ifs
    · rw [Scope.find?_bind, hf, Option.some_or]
    · exact hf

/-- A declaration of a new name is found under it. -/
theorem find?_declare_self {symbol : Symbol}
    (hn : t.find? symbol.kind.isValue symbol.scope symbol.name = none)
    (hscope : symbol.scope < t.scopes.length) :
    (t.declare symbol).find? symbol.kind.isValue symbol.scope symbol.name =
      some t.symbols.length := by
  have hs := List.getElem?_eq_getElem hscope
  have hold := hn
  rw [find?, hs, Option.bind_some] at hold
  rw [declare_of_new hn, find?, List.getElem?_modify, hs, Option.map_eq_map, Option.map_some,
    Option.bind_some, if_pos rfl, Scope.find?_bind, hold]
  simp

/-- Beside the identifier of a declaration stands the symbol that is found under its name. -/
theorem exists_bindings_declare {symbol : Symbol} (hscope : symbol.scope < t.scopes.length) :
    ∃ k, (t.declare symbol).bindings = (symbol.binding, k) :: t.bindings ∧
      (t.declare symbol).find? symbol.kind.isValue symbol.scope symbol.name = some k := by
  cases hk : t.find? symbol.kind.isValue symbol.scope symbol.name with
  | some known => exact ⟨known, by rw [declare_of_known hk], find?_declare_of_some symbol hk⟩
  | none => exact ⟨_, by rw [declare_of_new hk], find?_declare_self hk hscope⟩

/-- A symbol was there before, or it is the declared one and is found under its name. -/
theorem getElem?_symbols_declare {symbol y : Symbol} (hscope : symbol.scope < t.scopes.length)
    {k : Nat} (hy : (t.declare symbol).symbols[k]? = some y) : t.symbols[k]? = some y ∨
      y = symbol ∧ (t.declare symbol).find? y.kind.isValue y.scope y.name = some k := by
  cases hk : t.find? symbol.kind.isValue symbol.scope symbol.name with
  | some known =>
    rw [declare_of_known hk] at hy
    exact Or.inl hy
  | none =>
    have hsymbols : (t.declare symbol).symbols = t.symbols ++ [symbol] := by rw [declare_of_new hk]
    rw [hsymbols, List.getElem?_append] at hy
    split_ifs at hy with hlt
    · exact Or.inl hy
    · rw [List.getElem?_singleton] at hy
      split_ifs at hy with hzero
      obtain rfl : k = t.symbols.length := by omega
      obtain rfl := Option.some.inj hy
      exact Or.inr ⟨rfl, find?_declare_self hk hscope⟩

/-- A declaration gives no scope a name twice. -/
theorem distinct_declare (ht : ∀ s ∈ t.scopes, s.Distinct) (symbol : Symbol) :
    ∀ s ∈ (t.declare symbol).scopes, s.Distinct := by
  cases hk : t.find? symbol.kind.isValue symbol.scope symbol.name with
  | some known => rwa [declare_of_known hk]
  | none =>
    intro s hs
    rw [declare_of_new hk] at hs
    obtain ⟨k, hget⟩ := List.getElem?_of_mem hs
    rw [List.getElem?_modify] at hget
    obtain ⟨s', hs', rfl⟩ := Option.map_eq_some_iff.mp hget
    have hdistinct := ht s' (List.mem_of_getElem? hs')
    split_ifs with hscope
    · subst hscope
      rw [find?, hs', Option.bind_some] at hk
      exact hdistinct.bind hk _
    · exact hdistinct

/-- The tables hold some declarations. What is found under a name in a scope is a symbol of that
name, scope and namespace, and every symbol is found so; no scope holds a name twice; every symbol
is one of the declarations; and beside the identifier of each declaration stands the symbol that is
found under its name. -/
structure Holds (t : SymbolTable) (ys : List Symbol) : Prop where
  formed : t.Formed
  listed : ∀ (k : Nat) (y : Symbol), t.symbols[k]? = some y →
    t.find? y.kind.isValue y.scope y.name = some k
  distinct : ∀ s ∈ t.scopes, s.Distinct
  origin : ∀ y ∈ t.symbols, y ∈ ys
  keys : t.bindings.map Prod.fst = (ys.map Symbol.binding).reverse
  bound : ∀ y ∈ ys, ∃ k, (y.binding, k) ∈ t.bindings ∧
    t.find? y.kind.isValue y.scope y.name = some k

namespace Holds

theorem empty : SymbolTable.empty.Holds [] :=
  ⟨.empty, by simp [SymbolTable.empty], by simp [SymbolTable.empty], by simp [SymbolTable.empty],
    rfl, by simp⟩

variable {ys : List Symbol} (h : t.Holds ys)
include h

theorem openScope (kind : ScopeKind) (current owner : Nat) :
    (t.openScope kind current owner).Holds ys := by
  refine ⟨h.formed.openScope kind current owner, fun k y hy => ?_, fun s hs => ?_, h.origin, h.keys,
    fun y hy => ?_⟩
  · rw [find?_openScope]
    exact h.listed k y hy
  · rcases List.mem_append.mp hs with hs | hs
    · exact h.distinct s hs
    · rw [List.mem_singleton.mp hs]
      exact ⟨List.nodup_nil, List.nodup_nil⟩
  · obtain ⟨k, hmem, hk⟩ := h.bound y hy
    exact ⟨k, hmem, by rwa [find?_openScope]⟩

theorem declare {y : Symbol} (hrefs : y.references = []) (hscope : y.scope < t.scopes.length) :
    (t.declare y).Holds (ys ++ [y]) := by
  obtain ⟨k, hbindings, hk⟩ := exists_bindings_declare hscope
  refine ⟨h.formed.declare hrefs, fun k y' hy' => ?_, distinct_declare h.distinct y,
    fun y' hy' => ?_, ?_, fun y' hy' => ?_⟩
  · rcases getElem?_symbols_declare hscope hy' with hold | ⟨-, hnew⟩
    · exact find?_declare_of_some y (h.listed k y' hold)
    · exact hnew
  · obtain ⟨k, hk⟩ := List.getElem?_of_mem hy'
    rcases getElem?_symbols_declare hscope hk with hold | ⟨rfl, -⟩
    · exact List.mem_append_left _ (h.origin y' (List.mem_of_getElem? hold))
    · exact List.mem_append_right _ List.mem_cons_self
  · simp [hbindings, h.keys]
  · rw [hbindings]
    rcases List.mem_append.mp hy' with hy' | hy'
    · obtain ⟨k', hmem, hk'⟩ := h.bound y' hy'
      exact ⟨k', List.mem_cons_of_mem _ hmem, find?_declare_of_some y hk'⟩
    · rw [List.mem_singleton.mp hy']
      exact ⟨k, List.mem_cons_self, hk⟩

theorem addVisit {v : Visit} (hv : ∀ y ∈ v.declared? t.scopes, y.scope < t.scopes.length) :
    (t.addVisit v).Holds (ys ++ (v.declared? t.scopes).toList) := by
  rw [addVisit_eq]
  cases hy : v.declared? t.scopes with
  | none => simpa using h
  | some y =>
    obtain ⟨name, kind, scope, declaration, -, -, rfl⟩ := Visit.declared?_eq_some_iff.mp hy
    exact h.declare rfl (hv _ hy)

end Holds

end SymbolTable

/-! ### Walks -/

namespace Survey

theorem holds_openScope {s : Survey} {ys : List Symbol} (h : s.table.Holds ys) (n : Node) :
    (s.openScope n).table.Holds ys := by
  unfold openScope
  split
  · exact h
  · exact h.openScope _ _ _

theorem holds_enter {s : Survey} {n : Node} {ys : List Symbol}
    (h : (s.table.addVisit (s.visitTo n)).Holds ys) : (s.enter n).table.Holds ys := by
  refine holds_openScope ?_ n
  rwa [record_eq]

/-- The tables of a survey hold what its visits declare. -/
structure Declared (s : Survey) : Prop where
  mirrors : s.Mirrors
  holds : s.table.Holds (s.visits.filterMap (Visit.declared? s.table.scopes))

/-- A visited node sits in one of the scopes, the root aside. -/
theorem Mirrors.scope_lt {s : Survey} (h : s.Mirrors) {v : Visit} (hv : v ∈ s.visits)
    (hne : v.ancestors ≠ []) : v.scope < s.table.scopes.length := by
  obtain ⟨p, f, -, hf, -⟩ := h.visit v hv hne
  simpa using (List.getElem?_eq_some_iff.mp hf).1

/-- What is declared inside of a node goes to one of the scopes. -/
theorem Mirrors.declared?_scope_lt {s : Survey} (h : s.Mirrors) {v : Visit} {y : Symbol}
    (hy : v.declared? s.table.scopes = some y)
    (hv : v.ancestors ≠ [] → v.scope < s.table.scopes.length) :
    y.scope < s.table.scopes.length := by
  obtain ⟨name, kind, scope, declaration, -, hu, rfl⟩ := Visit.declared?_eq_some_iff.mp hy
  obtain ⟨owner, outer, howners, -, htarget, -⟩ := Visit.owner_of_binderUse hu
  refine Nat.lt_of_le_of_lt (htarget.le fun p hp => ?_) (hv (Visit.ancestors_ne_nil howners))
  rw [ScopeTree.parent?_eq_frames] at hp
  obtain ⟨f, hf, hp⟩ := Option.bind_eq_some_iff.mp hp
  exact h.parent_lt _ f hf p hp

namespace Declared

theorem empty : Survey.empty.Declared := ⟨.empty, .empty⟩

variable {s : Survey} (h : s.Declared)
include h

theorem enter (n : Node) (hopen : s.nodeStack ≠ [] → ∃ p ∈ s.nodeStack, p.opensScope = true) :
    (s.enter n).Declared := by
  have hscope : ∀ v ∈ (s.enter n).visits, v.ancestors ≠ [] → v.scope < s.table.scopes.length := by
    intro v hv hne
    rw [enter_visits_eq, List.mem_append, List.mem_singleton] at hv
    rcases hv with hv | rfl
    · exact h.mirrors.scope_lt hv hne
    · obtain ⟨p, f, -, hf, -⟩ := h.mirrors.nearest_currentScope (hopen hne)
      simpa [visitTo] using (List.getElem?_eq_some_iff.mp hf).1
  refine ⟨h.mirrors.enter n hopen, ?_⟩
  -- Scopes are opened after the visit is recorded, so they do not change what it declares.
  have hsame : (s.enter n).visits.filterMap (Visit.declared? (s.enter n).table.scopes) =
      (s.enter n).visits.filterMap (Visit.declared? s.table.scopes) := by
    refine List.filterMap_congr fun v hv => Visit.declared?_of_prefix ?_ (hscope v hv)
    rw [enter_frames]
    exact List.prefix_append _ _
  have hdeclared : (s.table.addVisit (s.visitTo n)).Holds
      ((s.enter n).visits.filterMap (Visit.declared? s.table.scopes)) := by
    have hlast : [s.visitTo n].filterMap (Visit.declared? s.table.scopes) =
        ((s.visitTo n).declared? s.table.scopes).toList := by
      cases hy : (s.visitTo n).declared? s.table.scopes <;> simp [hy]
    rw [enter_visits_eq, List.filterMap_append, hlast]
    refine h.holds.addVisit fun y hy => h.mirrors.declared?_scope_lt hy (hscope _ ?_)
    rw [enter_visits_eq]
    exact List.mem_append_right _ List.mem_cons_self
  rw [hsame]
  exact holds_enter hdeclared

theorem leave (n : Node) (hmirrors : (s.leave n).Mirrors) : (s.leave n).Declared :=
  ⟨hmirrors, h.holds⟩

end Declared

end Survey

end TsxLint
