import Mathlib.Data.List.TakeWhile
import TsxLint.Proofs.Binding.Provenance
import TsxLint.Rule.Mutation

/-!
# The function around a name

There are two ways to say which function a name belongs to. Going outwards from its scope one meets
the scope of a function; going outwards from the node that opened its scope one meets a function or
an arrow function. The scopes mirror the nodes, so both ways meet the same node, with one exception:
a static block opens a scope like that of a function and is not a function. A name that is declared
in a static block therefore belongs to none of the functions around the block.

Which names a function may write to follows from this: its own names, less its parameters and less
those of the static blocks inside it.

## Main definitions

* `Model.pathOf`, `Model.functionAt?`: the nearest function at or above a node.
* `Model.inStaticBlock`: a static block is met before any function.
* `Model.Declares`: the function declares the symbol.
* `Model.IsForeign`: the identifier stands for a symbol that the function around a node does not
  own.

## Main results

* `Model.functionScope?_eq_some_iff`: the scope of a function is met where the function is.
* `Model.owns_iff`: the two ways agree unless a static block is nearer.
* `Model.functions_agree_unless_static_block`: what that means for provenance and for writes.
-/

namespace TsxLint

namespace Node

/-- Whether a node is a static block of a class. -/
def isStaticBlock (n : Node) : Bool :=
  match n.kind with
  | .staticBlock => true
  | _ => false

/-- Whether a node opens the scope of a function. -/
def opensFunctionScope (n : Node) : Bool := n.kind.scopeKind? == some .function

variable {n : Node}

theorem opensFunctionScope_iff : n.opensFunctionScope = true ↔ n.kind.scopeKind? = some .function :=
  beq_iff_eq

/-- Functions, arrow functions and static blocks open the scope of a function. -/
theorem opensFunctionScope_eq (n : Node) :
    n.opensFunctionScope = (n.isFunctionLike || n.isStaticBlock) := by
  obtain ⟨role, id, kind, span, children⟩ := n
  cases kind <;> rfl

/-- The first function is the first node that opens the scope of one, unless a static block comes
earlier. -/
theorem find?_opensFunctionScope_eq_some_iff {f : Node} (hf : f.isFunctionLike = true)
    (path : List Node) : path.find? opensFunctionScope = some f ↔
      path.find? isFunctionLike = some f ∧
        (path.takeWhile fun n => !n.isFunctionLike).any isStaticBlock = false := by
  induction path with
  | nil => simp
  | cons n path ih =>
    cases hn : n.isFunctionLike with
    | true =>
      have hopens : n.opensFunctionScope = true := by rw [opensFunctionScope_eq, hn, Bool.true_or]
      simp [hn, hopens]
    | false =>
      cases hblock : n.isStaticBlock with
      | true =>
        have hopens : n.opensFunctionScope = true := by
          rw [opensFunctionScope_eq, hblock, Bool.or_true]
        have hne : n ≠ f := by
          rintro rfl
          rw [hf] at hn
          cases hn
        simp [hn, hopens, hblock, hne]
      | false =>
        have hopens : n.opensFunctionScope = false := by
          rw [opensFunctionScope_eq, hn, hblock, Bool.or_false]
        simpa [hn, hopens, hblock] using ih

end Node

namespace Model

/-- A node and the nodes around it, the nearest first. -/
def pathOf (m : Model) (id : Nat) : List Node := (m.node? id).toList ++ m.ancestors id

/-- The nearest function or arrow function at or above a node. -/
def functionAt? (m : Model) (id : Nat) : Option Node := (m.pathOf id).find? Node.isFunctionLike

/-- Whether a static block stands at or above a node, below any function. -/
def inStaticBlock (m : Model) (id : Nat) : Bool :=
  ((m.pathOf id).takeWhile fun n => !n.isFunctionLike).any Node.isStaticBlock

/-- A function declares a symbol if it is the nearest one at or above the node that opened the scope
of the symbol, and no static block is nearer. -/
def Declares (m : Model) (f : Node) (y : Symbol) : Prop :=
  ∃ s, m.scopes[y.scope]? = some s ∧ m.functionAt? s.owner = some f ∧
    m.inStaticBlock s.owner = false

/-- Seen from a node inside of a function, an identifier is foreign if it stands for a parameter, or
for a symbol that the function does not declare. -/
def IsForeign (m : Model) (n identifier : Node) : Prop :=
  ∃ f k y, m.enclosingFunction? n.id = some f ∧ m.resolve? identifier.id = some k ∧
    m.symbols[k]? = some y ∧ (y.kind = .param ∨ ¬ m.Declares f y)

variable {c : Cst}

theorem pathOf_of_mem {n : Node} (hn : n ∈ (ofCst c).nodes) :
    (ofCst c).pathOf n.id = n :: (ofCst c).ancestors n.id := by
  rw [pathOf, ((isTree_ofCst c).node?_eq_some_iff n.id n).mpr ⟨hn, rfl⟩]
  rfl

theorem mem_nodes_of_mem_pathOf {n p : Node} (hn : n ∈ (ofCst c).nodes)
    (hp : p ∈ (ofCst c).pathOf n.id) : p ∈ (ofCst c).nodes := by
  rw [pathOf_of_mem hn] at hp
  rcases List.mem_cons.mp hp with rfl | hp
  · exact hn
  · exact (isTree_ofCst c).mem_nodes_of_mem_ancestors hn hp

/-- Above a node that opens no scope of a function, the next node that has a scope decides. -/
theorem find?_pathOf_of_nearest {n p : Node} (hn : n ∈ (ofCst c).nodes)
    (hopens : n.opensFunctionScope = false)
    (hp : ((ofCst c).ancestors n.id).find? (fun p => ((ofCst c).scopeOwnedBy? p.id).isSome) =
      some p) :
    ((ofCst c).pathOf n.id).find? Node.opensFunctionScope =
      ((ofCst c).pathOf p.id).find? Node.opensFunctionScope := by
  have htree := isTree_ofCst c
  obtain ⟨-, inner, outer, hsplit, hinner⟩ := List.find?_eq_some_iff_append.mp hp
  have hmem : p ∈ (ofCst c).ancestors n.id := by simp [hsplit]
  have hpmem := htree.mem_nodes_of_mem_ancestors hn hmem
  -- The nodes in between have no scope at all.
  have hbetween : inner.find? Node.opensFunctionScope = none := by
    refine List.find?_eq_none.mpr fun q hq hqopens => ?_
    have hqmem := htree.mem_nodes_of_mem_ancestors hn
      (hsplit ▸ List.mem_append_left (p :: outer) hq)
    have hqscope := isSome_scopeOwnedBy? hqmem
    rw [Node.opensScope, Node.opensFunctionScope_iff.mp hqopens] at hqscope
    simpa [hqscope] using hinner q hq
  rw [pathOf_of_mem hn, pathOf_of_mem hpmem, htree.ancestors_of_eq_append hsplit, hsplit,
    List.find?_cons_of_neg (by simp [hopens]), List.find?_append, hbetween, Option.none_or]

/-- The first scope is that of the root. -/
theorem scopeOwnedBy?_eq_zero_iff {n : Node} (hn : n ∈ (ofCst c).nodes) :
    (ofCst c).scopeOwnedBy? n.id = some 0 ↔ n = (ofCst c).program.root := by
  have hmirror := scopesMirrorNodes_ofCst c
  obtain ⟨s, hs, -, hroot, -⟩ := hmirror.first
  rw [hmirror.scopeOwnedBy?_eq_some_iff]
  constructor
  · rintro ⟨s', hs', howner⟩
    obtain rfl := Option.some.inj (hs.symm.trans hs')
    have hmem : (ofCst c).program.root ∈ (ofCst c).nodes := by
      rw [(isTree_ofCst c).nodes]
      exact Node.mem_preorder_self _
    exact List.inj_on_of_nodup_map (isTree_ofCst c).nodup hn hmem (howner.symm.trans hroot)
  · rintro rfl
    exact ⟨s, hs, hroot⟩

/-- Going outwards from a scope, the scope of a function is met first where the node that opened it
is met first, going outwards from the node that opened the scope. -/
theorem functionScope?_eq_some_iff {k : Nat} {s : Scope} (hs : (ofCst c).scopes[k]? = some s)
    (j : Nat) : (ofCst c).scopes.functionScope? k = some j ↔
      ∃ f, ((ofCst c).pathOf s.owner).find? Node.opensFunctionScope = some f ∧
        (ofCst c).scopeOwnedBy? f.id = some j := by
  have htree := isTree_ofCst c
  have hmirror := scopesMirrorNodes_ofCst c
  -- The scope around a scope is an earlier one.
  induction k using Nat.strongRecOn generalizing s with
  | _ k ih =>
    obtain ⟨n, hn, howner, hkind⟩ := hmirror.owner s (List.mem_of_getElem? hs)
    have howned := (hmirror.scopeOwnedBy?_eq_some_iff n.id k).mpr ⟨s, hs, howner.symm⟩
    rw [← howner]
    by_cases hfunction : s.kind = .function
    · have hopens : n.opensFunctionScope = true := by
        rw [Node.opensFunctionScope_iff, hkind, hfunction]
      rw [ScopeTree.functionScope?_of_kind hs hfunction, pathOf_of_mem hn,
        List.find?_cons_of_pos hopens]
      simp [howned]
    · have hopens : n.opensFunctionScope = false := by
        simp [Node.opensFunctionScope, hkind, hfunction]
      by_cases hzero : k = 0
      · subst hzero
        have hnone := (htree.parent?_eq_none_iff n hn).mpr
          ((scopeOwnedBy?_eq_zero_iff hn).mp howned)
        rw [functionScope?_zero, pathOf_of_mem hn, List.head?_eq_none_iff.mp hnone,
          List.find?_cons_of_neg (by simp [hopens])]
        simp
      · have hroot : n ≠ (ofCst c).program.root := by
          intro hroot
          have hfirst := (scopeOwnedBy?_eq_zero_iff hn).mpr hroot
          exact hzero (Option.some.inj (howned.symm.trans hfirst))
        obtain ⟨hparent, hlt⟩ := hmirror.parent k s hs hzero
        rw [← howner] at hparent hlt
        obtain ⟨p, hp, hpscope⟩ := hmirror.nearest n hn hroot
        obtain ⟨around, haround, hpowner⟩ := (hmirror.scopeOwnedBy?_eq_some_iff p.id _).mp hpscope
        have houter := ih _ hlt haround
        rw [hpowner] at houter
        rw [ScopeTree.functionScope?_of_parent hs hfunction hparent hlt,
          find?_pathOf_of_nearest hn hopens hp]
        exact houter

/-- A function owns the symbols whose scope was opened by a node that it is around, unless a static
block is nearer to that node. -/
theorem owns_iff {f : Node} (hf : f ∈ (ofCst c).nodes) (hfunction : f.isFunctionLike = true)
    {y : Symbol} {s : Scope} (hs : (ofCst c).scopes[y.scope]? = some s) :
    (ofCst c).Owns f.id y ↔
      (ofCst c).functionAt? s.owner = some f ∧ (ofCst c).inStaticBlock s.owner = false := by
  rw [functionAt?, inStaticBlock, ← Node.find?_opensFunctionScope_eq_some_iff hfunction]
  obtain ⟨n, hn, howner, -⟩ := (scopesMirrorNodes_ofCst c).owner s (List.mem_of_getElem? hs)
  constructor
  · rintro ⟨scope, hscope, hnear⟩
    obtain ⟨g, hg, hgscope⟩ := (functionScope?_eq_some_iff hs scope).mp hnear
    have hgmem : g ∈ (ofCst c).nodes :=
      mem_nodes_of_mem_pathOf hn (howner ▸ List.mem_of_find?_eq_some hg)
    obtain ⟨t, ht, hid⟩ := scopeOwnedBy?_ofCst_eq_some_iff.mp hscope
    obtain ⟨t', ht', hid'⟩ := scopeOwnedBy?_ofCst_eq_some_iff.mp hgscope
    obtain rfl := Option.some.inj (ht.symm.trans ht')
    rwa [List.inj_on_of_nodup_map (isTree_ofCst c).nodup hf hgmem (hid.symm.trans hid')]
  · intro hfind
    obtain ⟨scope, -, hscope, -, -⟩ := exists_functionScope hf hfunction
    exact ⟨scope, hscope, (functionScope?_eq_some_iff hs scope).mpr ⟨f, hfind, hscope⟩⟩

section

variable {f : Node} (hf : f ∈ (ofCst c).nodes) (hfunction : f.isFunctionLike = true) {k : Nat}
  {y : Symbol} (hy : (ofCst c).symbols[k]? = some y) (hvalue : y.kind.isValue = true)

include hf hfunction hy hvalue

/-- A function claims the symbols that it declares. -/
theorem classify_ne_external_iff_declares :
    ((ofCst c).functionState f.id).classify k ≠ .external ↔ (ofCst c).Declares f y := by
  obtain ⟨s, hs, -⟩ := (symbolsMatchTables_ofCst c).listed k y hy
  rw [classify_ne_external_iff hf hfunction hy hvalue, owns_iff hf hfunction hs]
  constructor
  · intro howns
    exact ⟨s, hs, howns⟩
  · rintro ⟨s', hs', howns⟩
    obtain rfl := Option.some.inj (hs.symm.trans hs')
    exact howns

/-- The locals of a function are the symbols that it declares, its parameters aside. -/
theorem provenance_eq_localName_iff :
    (ofCst c).provenance f.id k = .localName ↔ y.kind ≠ .param ∧ (ofCst c).Declares f y := by
  rw [← classify_ne_external_iff_declares hf hfunction hy hvalue, provenance,
    classify_eq hf hfunction hy]
  by_cases hparam : y.kind = .param
  · simp only [hparam, if_true, ne_eq, not_true_eq_false, false_and, iff_false]
    split_ifs <;> simp
  · simp only [hparam, if_false, ne_eq, not_false_eq_true, true_and]
    split_ifs <;> simp

end

/-- What a reference stands for is a value. -/
theorem isValue_of_resolve? {id k : Nat} (hk : (ofCst c).resolve? id = some k) :
    ∃ y, (ofCst c).symbols[k]? = some y ∧ y.kind.isValue = true := by
  obtain ⟨r, hr, hsymbol⟩ := Option.bind_eq_some_iff.mp hk
  obtain ⟨v, -, -, -, -, hlookup⟩ := exists_visit_of_mem (mem_of_referenceAt? hr).1
  exact isValue_of_lookup (hlookup.symm.trans hsymbol)

/-- The foreign symbols are those that the function around a node does not declare, and the
parameters. -/
theorem foreignSymbol?_ne_none_iff {n : Node} (hn : n ∈ (ofCst c).nodes) (identifier : Node) :
    (ofCst c).foreignSymbol? n.id identifier ≠ none ↔ (ofCst c).IsForeign n identifier := by
  rw [foreignSymbol?, IsForeign]
  cases henclosing : (ofCst c).enclosingFunction? n.id with
  | none => simp
  | some f =>
    have hf := (isTree_ofCst c).mem_nodes_of_mem_ancestors hn
      (List.mem_of_find?_eq_some henclosing)
    have hfunction : f.isFunctionLike = true := List.find?_some henclosing
    cases hk : (ofCst c).resolve? identifier.id with
    | none => simp
    | some k =>
      obtain ⟨y, hy, hvalue⟩ := isValue_of_resolve? hk
      have hlocal := provenance_eq_localName_iff hf hfunction hy hvalue
      by_cases howned : (ofCst c).provenance f.id k = .localName
      · obtain ⟨hkind, hdeclares⟩ := hlocal.mp howned
        simp [howned, hy, hkind, hdeclares]
      · have hforeign : y.kind = .param ∨ ¬ (ofCst c).Declares f y := by
          by_contra hown
          rw [not_or, not_not] at hown
          exact howned (hlocal.mpr hown)
        simpa [howned, hy] using hforeign

/-- A write is reported if what it writes to is foreign. -/
theorem finding?_ne_none_iff {s : Subject} (hs : s.model = ofCst c) {n identifier : Node}
    (hn : n ∈ (ofCst c).nodes) (hwritten : ExternalMutation.written? n = some identifier) :
    ExternalMutation.finding? s n ≠ none ↔ (ofCst c).IsForeign n identifier := by
  rw [← foreignSymbol?_ne_none_iff hn, ExternalMutation.finding?, hwritten, hs]
  simp

/-- **The two ways to the function around a name agree outside of static blocks.** In the model of a
lowered file a function claims a value, as a parameter or as a local, exactly if it is the nearest
function or arrow function at or above the node that opened the scope of the symbol, and no static
block is nearer to that node. So a write is reported as one to a foreign binding exactly if it is
inside of a function and what it writes to is a parameter, is declared elsewhere than in the nearest
function around it, or is declared in a static block of that function. -/
theorem functions_agree_unless_static_block (c : Cst) :
    (∀ f ∈ (ofCst c).nodes, f.isFunctionLike = true → ∀ (k : Nat) (y : Symbol),
      (ofCst c).symbols[k]? = some y → y.kind.isValue = true →
      ∃ s, (ofCst c).scopes[y.scope]? = some s ∧
        (((ofCst c).functionState f.id).classify k ≠ .external ↔
          (ofCst c).functionAt? s.owner = some f ∧ (ofCst c).inStaticBlock s.owner = false)) ∧
    (∀ s : Subject, s.model = ofCst c →
      (∀ d, d ∈ ExternalMutation.check s ↔
        ∃ n ∈ (ofCst c).nodes, ExternalMutation.finding? s n = some d) ∧
      ∀ n ∈ (ofCst c).nodes, ∀ identifier, ExternalMutation.written? n = some identifier →
        (ExternalMutation.finding? s n ≠ none ↔ (ofCst c).IsForeign n identifier)) := by
  refine ⟨fun f hf hfunction k y hy hvalue => ?_, fun s hs => ⟨fun d => ?_, ?_⟩⟩
  · obtain ⟨s, hs, -⟩ := (symbolsMatchTables_ofCst c).listed k y hy
    refine ⟨s, hs, ?_⟩
    rw [classify_ne_external_iff hf hfunction hy hvalue, owns_iff hf hfunction hs]
  · rw [ExternalMutation.check, Subject.nodes, hs, List.mem_filterMap]
  · exact fun n hn identifier hwritten => finding?_ne_none_iff hs hn hwritten

/-- The tree of `function f() { class A { static { let x = 1; x = 2; } } }`, most tokens left out. -/
private def staticBlockAssignment : Cst :=
  ⟨"program", true, "", ⟨0, 57⟩, "", [
    ⟨"function_declaration", true, "", ⟨0, 57⟩, "", [
      ⟨"identifier", true, "name", ⟨9, 10⟩, "f", []⟩,
      ⟨"formal_parameters", true, "parameters", ⟨10, 12⟩, "()", []⟩,
      ⟨"statement_block", true, "body", ⟨13, 57⟩, "", [
        ⟨"class_declaration", true, "", ⟨15, 55⟩, "", [
          ⟨"type_identifier", true, "name", ⟨21, 22⟩, "A", []⟩,
          ⟨"class_body", true, "body", ⟨23, 55⟩, "", [
            ⟨"class_static_block", true, "", ⟨25, 53⟩, "", [
              ⟨"statement_block", true, "body", ⟨32, 53⟩, "", [
                ⟨"lexical_declaration", true, "", ⟨34, 44⟩, "let x = 1;", [
                  ⟨"let", false, "kind", ⟨34, 37⟩, "let", []⟩,
                  ⟨"variable_declarator", true, "", ⟨38, 43⟩, "x = 1", [
                    ⟨"identifier", true, "name", ⟨38, 39⟩, "x", []⟩,
                    ⟨"number", true, "value", ⟨42, 43⟩, "1", []⟩]⟩]⟩,
                ⟨"expression_statement", true, "", ⟨45, 51⟩, "x = 2;", [
                  ⟨"assignment_expression", true, "", ⟨45, 50⟩, "x = 2", [
                    ⟨"identifier", true, "left", ⟨45, 46⟩, "x", []⟩,
                    ⟨"number", true, "right", ⟨49, 50⟩, "2", []⟩]⟩]⟩]⟩]⟩]⟩]⟩]⟩]⟩]⟩

/-- A name that a static block declares is foreign to the block itself: the nearest function around
the node that opened its scope is the one around the write, and yet does not claim it, so that the
write is reported. -/
theorem static_block_name_is_foreign :
    (ofCst staticBlockAssignment).symbols[2]?.map (fun y => (y.name, y.kind, y.scope)) =
      some ("x", .letVar, 3) ∧
    ((ofCst staticBlockAssignment).scopes[3]?.bind fun s =>
      (ofCst staticBlockAssignment).functionAt? s.owner).map Node.id = some 1 ∧
    ((ofCst staticBlockAssignment).functionState 1).classify 2 = .external ∧
    ExternalMutation.check (.ofFile ⟨"a.ts", "", .ts, ofCst staticBlockAssignment, ⟨[0]⟩⟩ none) =
      [⟨⟨45, 46⟩, "noExternalBindingMutation", [("name", "x")]⟩] := by
  decide +kernel

end Model

end TsxLint
