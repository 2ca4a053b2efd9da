import TsxLint.Proofs.Binding.NodeTable
import TsxLint.Proofs.Data.Lookup
import TsxLint.Proofs.Lowering.TypeParts
import TsxLint.Proofs.Type.Composition

/-!
# Props contracts

Every interface and every alias named `*Props` gives one props contract. An interface contributes
its own members. An alias contributes those of all object types that its right-hand side is made of,
also where it leads back to the alias itself. The contracts come in the order in which the
declarations are visited; declarations can stand inside patterns, in the bodies of functions that
are default values, so this need not be the order in which they are written.

## Main definitions

* `Node.declaresProps`: the declarations named `*Props`.
* `Model.IsPropsContract`: what the contract of a declaration is.

## Main results

* `Node.exists_propsContract?`: a declaration named `*Props` has its contract.
* `Model.propsContracts_are_compositions`: the contracts of a file, one by one.
* `Model.contract_of_early_rest_comes_last`: a file whose contracts are not in source order.
-/

namespace TsxLint

/-- Whether a node is an interface or an alias that is named `*Props`. -/
def Node.declaresProps (n : Node) : Bool :=
  match n.kind with
  | .interfaceDeclaration | .typeAliasDeclaration => (n.nameAt? .name).any Naming.isPropsName
  | _ => false

/-- The contract of a declaration. An interface contributes its members, and an alias the members of
the object types that its right-hand side is made of. -/
structure Model.IsPropsContract (m : Model) (n : Node) (contract : Contract) : Prop where
  name : n.get? .name = some contract.nameNode
  isProps : contract.isProps = true
  span : contract.span = n.span
  interface : n.kind = .interfaceDeclaration → contract.members = n.all .member
  composed : n.kind = .typeAliasDeclaration → ∃ type, n.all .type = [type] ∧
    ∀ member, member ∈ contract.members ↔
      ∃ literal, Relation.ReflTransGen (AliasTable.ofModel m).MadeOf type literal ∧
        literal.kind = .typeLiteral ∧ member ∈ literal.all .member
  /-- Where the right-hand side is an object type, it is the contract that any name would give. -/
  plain : ∀ type, n.kind = .typeAliasDeclaration → n.all .type = [type] →
    type.kind = .typeLiteral → n.contract? = some contract ∧ contract ∈ m.contracts

/-! ### Declarations -/

theorem Node.get?_of_all {n part : Node} {role : Role} (h : n.all role = [part]) :
    n.get? role = some part := by
  rw [get?, ← List.head?_filter]
  exact congrArg List.head? h

/-- An object type contributes its own members only. -/
theorem AliasTable.literalMembers_of_literal {t : AliasTable} {guard : Guard} {n : Node}
    (hkind : n.kind = .typeLiteral) : t.literalMembers guard n = n.all .member := by
  have hstop : (Walk.mk true false).parts? n.kind = none := by
    rw [hkind]
    rfl
  have hname : n.localTypeName? = none := by rw [Node.localTypeName?, hkind]
  rw [literalMembers, reach]
  split
  · rename_i hparts
    rw [hstop] at hparts
    cases hparts
  · simp [hname, hkind]

namespace Node

variable {t : AliasTable} {n name type : Node}

theorem declaresProps_of_name {text : String}
    (hkind : n.kind = .interfaceDeclaration ∨ n.kind = .typeAliasDeclaration)
    (hname : n.get? .name = some name) (htext : name.kind = .bindingIdentifier text) :
    n.declaresProps = Naming.isPropsName name.label := by
  have htext' : name.nameText? = some text := by rw [nameText?, htext]
  rcases hkind with hkind | hkind <;>
    simp [declaresProps, hkind, nameAt?, hname, label, htext']

theorem propsContract?_of_interface (hkind : n.kind = .interfaceDeclaration)
    (hname : n.get? .name = some name) :
    n.propsContract? t =
      if Naming.isPropsName name.label then some ⟨name, n.span, n.all .member⟩ else none := by
  rw [propsContract?, hkind, hname]
  rfl

theorem propsContract?_of_alias (hkind : n.kind = .typeAliasDeclaration)
    (hname : n.get? .name = some name) (htype : n.get? .type = some type) :
    n.propsContract? t =
      if Naming.isPropsName name.label then
        some ⟨name, n.span, t.literalMembers (Guard.empty.enter name.label).2 type⟩
      else none := by
  rw [propsContract?, hkind, hname, htype]
  rfl

/-- Only the declarations named `*Props` give props contracts. -/
theorem propsContract?_eq_none (hparts : n.HasTypeParts) (hn : n.declaresProps = false) :
    n.propsContract? t = none := by
  by_cases hkind : n.kind = .interfaceDeclaration ∨ n.kind = .typeAliasDeclaration
  · obtain ⟨name, text, hname, htext⟩ := hparts.name hkind
    have hother : ¬ Naming.isPropsName name.label = true := by
      rw [← declaresProps_of_name hkind hname htext, hn]
      exact Bool.false_ne_true
    rcases hkind with hkind | hkind
    · rw [propsContract?_of_interface hkind hname, if_neg hother]
    · obtain ⟨type, htype⟩ := hparts.type (Or.inl hkind)
      rw [propsContract?_of_alias hkind hname (get?_of_all htype), if_neg hother]
  · unfold propsContract?
    split
    · exact absurd (Or.inl ‹_›) hkind
    · exact absurd (Or.inr ‹_›) hkind
    · rfl

/-- In a file whose alias names are unique, the table has the right-hand side of every alias. -/
theorem alias?_of_mem {m : Model}
    (hunique : ((AliasTable.ofModel m).aliases.map Prod.fst).Nodup) (hmem : n ∈ m.nodes)
    {text : String} (hkind : n.kind = .typeAliasDeclaration) (hname : n.get? .name = some name)
    (htext : name.kind = .bindingIdentifier text) (htype : n.get? .type = some type) :
    (AliasTable.ofModel m).alias? name.label = some type := by
  have htext' : name.nameText? = some text := by rw [nameText?, htext]
  have hentry : AliasTable.aliasOf? n = some (name.label, type) := by
    simp [AliasTable.aliasOf?, hkind, nameAt?, hname, htype, label, htext']
  exact lookup_of_nodup hunique (List.mem_filterMap.mpr ⟨n, hmem, hentry⟩)

/-- A declaration named `*Props` has its contract. -/
theorem exists_propsContract? {m : Model}
    (hunique : ((AliasTable.ofModel m).aliases.map Prod.fst).Nodup) (hmem : n ∈ m.nodes)
    (hparts : n.HasTypeParts) (hn : n.declaresProps = true) :
    ∃ contract, n.propsContract? (AliasTable.ofModel m) = some contract ∧
      m.IsPropsContract n contract := by
  have hkind : n.kind = .interfaceDeclaration ∨ n.kind = .typeAliasDeclaration := by
    unfold declaresProps at hn
    split at hn
    · exact Or.inl ‹_›
    · exact Or.inr ‹_›
    · cases hn
  obtain ⟨name, text, hname, htext⟩ := hparts.name hkind
  have hprops : Naming.isPropsName name.label = true := by
    rw [← declaresProps_of_name hkind hname htext, hn]
  rcases hkind with hkind | hkind
  · refine ⟨_, by rw [propsContract?_of_interface hkind hname, if_pos hprops], ?_⟩
    refine ⟨hname, hprops, rfl, fun _ => rfl, fun h => ?_, fun _ h => ?_⟩ <;>
      cases hkind.symm.trans h
  · obtain ⟨type, htype⟩ := hparts.type (Or.inl hkind)
    refine ⟨_, by rw [propsContract?_of_alias hkind hname (get?_of_all htype), if_pos hprops], ?_⟩
    refine ⟨hname, hprops, rfl, fun h => ?_, fun _ => ?_, ?_⟩
    · cases hkind.symm.trans h
    · have halias := alias?_of_mem hunique hmem hkind hname htext (get?_of_all htype)
      exact ⟨type, htype, fun member => AliasTable.mem_literalMembers_of_alias halias⟩
    · intro type' _ htype' hliteral
      obtain rfl : type = type' := List.singleton_inj.mp (htype.symm.trans htype')
      have hcontract : n.contract? = some ⟨name, n.span, type.all .member⟩ := by
        simp [contract?, hkind, hname, get?_of_all htype, hliteral]
      rw [AliasTable.literalMembers_of_literal hliteral]
      exact ⟨hcontract, List.mem_filterMap.mpr ⟨n, hmem, hcontract⟩⟩

end Node

/-! ### Contracts of a file -/

theorem forall₂_filter_filterMap {α β : Type} {keep : α → Bool} {f : α → Option β}
    {R : α → β → Prop} {l : List α} (hkept : ∀ a ∈ l, keep a = true → ∃ b, f a = some b ∧ R a b)
    (hleft : ∀ a ∈ l, keep a = false → f a = none) :
    List.Forall₂ R (l.filter keep) (l.filterMap f) := by
  induction l with
  | nil => exact .nil
  | cons a l ih =>
    rw [List.forall_mem_cons] at hkept hleft
    cases ha : keep a with
    | true =>
      obtain ⟨b, hb, hab⟩ := hkept.1 ha
      rw [List.filter_cons_of_pos ha, List.filterMap_cons_some hb]
      exact .cons hab (ih hkept.2 hleft.2)
    | false =>
      rw [List.filter_cons_of_neg (by simp [ha]), List.filterMap_cons_none (hleft.1 ha)]
      exact ih hkept.2 hleft.2

namespace Model

/-- **Props contracts are compositions.** In a file whose alias names are unique, each interface and
each alias named `*Props` gives exactly one contract. Its members are those of the interface, or
those of all object types that the right-hand side of the alias is made of, however aliases refer to
each other. The contracts come in the order of the declarations, unless a declaration stands in an
early rest element. -/
theorem propsContracts_are_compositions (c : Cst)
    (hunique : ((AliasTable.ofModel (ofCst c)).aliases.map Prod.fst).Nodup) :
    List.Forall₂ (ofCst c).IsPropsContract ((ofCst c).nodes.filter Node.declaresProps)
      ((ofCst c).propsContracts (AliasTable.ofModel (ofCst c))) ∧
    ((ofCst c).nodes.filter Node.declaresProps).Pairwise (Program.ofCst c).root.InOrder := by
  have hparts : ∀ n ∈ (ofCst c).nodes, n.HasTypeParts := by
    rw [nodes_ofCst]
    exact Program.ofCst_hasTypeParts c
  refine ⟨forall₂_filter_filterMap (fun n hmem hn => ?_) (fun n hmem hn => ?_), ?_⟩
  · exact Node.exists_propsContract? hunique hmem (hparts n hmem) hn
  · exact Node.propsContract?_eq_none (hparts n hmem) hn
  · rw [nodes_ofCst]
    exact (Node.pairwise_inOrder (Program.ofCst_laid c)).filter _

/-- The tree of `type LoopProps = LoopProps & { a: 1 };`. -/
private def recursiveProps : Cst :=
  let literal := "\x7b a: 1 \x7d"
  let source := "type LoopProps = LoopProps & " ++ literal ++ ";"
  ⟨"program", true, "", ⟨0, 38⟩, source, [
    ⟨"type_alias_declaration", true, "", ⟨0, 38⟩, source, [
      ⟨"type", false, "", ⟨0, 4⟩, "type", []⟩,
      ⟨"type_identifier", true, "name", ⟨5, 14⟩, "LoopProps", []⟩,
      ⟨"=", false, "", ⟨15, 16⟩, "=", []⟩,
      ⟨"intersection_type", true, "value", ⟨17, 37⟩, "LoopProps & " ++ literal, [
        ⟨"type_identifier", true, "", ⟨17, 26⟩, "LoopProps", []⟩,
        ⟨"&", false, "", ⟨27, 28⟩, "&", []⟩,
        ⟨"object_type", true, "", ⟨29, 37⟩, literal, [
          ⟨"\x7b", false, "", ⟨29, 30⟩, "\x7b", []⟩,
          ⟨"property_signature", true, "", ⟨31, 35⟩, "a: 1", [
            ⟨"property_identifier", true, "name", ⟨31, 32⟩, "a", []⟩,
            ⟨"type_annotation", true, "type", ⟨32, 35⟩, ": 1", [
              ⟨":", false, "", ⟨32, 33⟩, ":", []⟩,
              ⟨"literal_type", true, "", ⟨34, 35⟩, "1", [
                ⟨"number", true, "", ⟨34, 35⟩, "1", []⟩]⟩]⟩]⟩,
          ⟨"\x7d", false, "", ⟨36, 37⟩, "\x7d", []⟩]⟩]⟩,
      ⟨";", false, "", ⟨37, 38⟩, ";", []⟩]⟩]⟩

/-- The alias of this file, which leads back to itself, has one contract, with the members of what
it is made of. -/
theorem propsContracts_of_recursive_alias :
    ((AliasTable.ofModel (ofCst recursiveProps)).aliases.map Prod.fst).Nodup ∧
    ∃ n contract, (ofCst recursiveProps).nodes.filter Node.declaresProps = [n] ∧
      (ofCst recursiveProps).propsContracts (AliasTable.ofModel (ofCst recursiveProps)) =
        [contract] ∧ (ofCst recursiveProps).IsPropsContract n contract := by
  have hunique : ((AliasTable.ofModel (ofCst recursiveProps)).aliases.map Prod.fst).Nodup := by
    decide +kernel
  obtain ⟨hcontracts, -⟩ := propsContracts_are_compositions recursiveProps hunique
  have hone : ((ofCst recursiveProps).nodes.filter Node.declaresProps).length = 1 := by
    decide +kernel
  obtain ⟨n, hn⟩ := List.length_eq_one_iff.mp hone
  rw [hn] at hcontracts ⊢
  obtain ⟨contract, others, hcontract, hothers, heq⟩ := List.forall₂_cons_left_iff.mp hcontracts
  rw [List.forall₂_nil_left_iff.mp hothers] at heq
  exact ⟨hunique, n, contract, rfl, heq, hcontract⟩

/-- The tree of a variable with a function as its default, such as
`x = () => { interface AProps {} }`, that starts at `start`. -/
private def declaringDefault (binder name : String) (start : Nat) : Cst :=
  let declaration := "interface " ++ name ++ " \x7b\x7d"
  let block := "\x7b " ++ declaration ++ " \x7d"
  ⟨"assignment_pattern", true, "", ⟨start, start + 33⟩, binder ++ " = () => " ++ block, [
    ⟨"identifier", true, "left", ⟨start, start + 1⟩, binder, []⟩,
    ⟨"=", false, "", ⟨start + 2, start + 3⟩, "=", []⟩,
    ⟨"arrow_function", true, "right", ⟨start + 4, start + 33⟩, "() => " ++ block, [
      ⟨"formal_parameters", true, "parameters", ⟨start + 4, start + 6⟩, "()", [
        ⟨"(", false, "", ⟨start + 4, start + 5⟩, "(", []⟩,
        ⟨")", false, "", ⟨start + 5, start + 6⟩, ")", []⟩]⟩,
      ⟨"=>", false, "", ⟨start + 7, start + 9⟩, "=>", []⟩,
      ⟨"statement_block", true, "body", ⟨start + 10, start + 33⟩, block, [
        ⟨"\x7b", false, "", ⟨start + 10, start + 11⟩, "\x7b", []⟩,
        ⟨"interface_declaration", true, "", ⟨start + 12, start + 31⟩, declaration, [
          ⟨"interface", false, "", ⟨start + 12, start + 21⟩, "interface", []⟩,
          ⟨"type_identifier", true, "name", ⟨start + 22, start + 28⟩, name, []⟩,
          ⟨"interface_body", true, "body", ⟨start + 29, start + 31⟩, "\x7b\x7d", [
            ⟨"\x7b", false, "", ⟨start + 29, start + 30⟩, "\x7b", []⟩,
            ⟨"\x7d", false, "", ⟨start + 30, start + 31⟩, "\x7d", []⟩]⟩]⟩,
        ⟨"\x7d", false, "", ⟨start + 32, start + 33⟩, "\x7d", []⟩]⟩]⟩]⟩

/-- The tree of
`const [...[x = () => { interface AProps {} }], y = () => { interface BProps {} }] = c;`. -/
private def earlyRestProps : Cst :=
  let first := declaringDefault "x" "AProps" 11
  let second := declaringDefault "y" "BProps" 47
  let pattern := "[...[" ++ first.text ++ "], " ++ second.text ++ "]"
  let source := "const " ++ pattern ++ " = c;"
  ⟨"program", true, "", ⟨0, 86⟩, source, [
    ⟨"lexical_declaration", true, "", ⟨0, 86⟩, source, [
      ⟨"const", false, "kind", ⟨0, 5⟩, "const", []⟩,
      ⟨"variable_declarator", true, "", ⟨6, 85⟩, pattern ++ " = c", [
        ⟨"array_pattern", true, "name", ⟨6, 81⟩, pattern, [
          ⟨"[", false, "", ⟨6, 7⟩, "[", []⟩,
          ⟨"rest_pattern", true, "", ⟨7, 45⟩, "...[" ++ first.text ++ "]", [
            ⟨"...", false, "", ⟨7, 10⟩, "...", []⟩,
            ⟨"array_pattern", true, "", ⟨10, 45⟩, "[" ++ first.text ++ "]", [
              ⟨"[", false, "", ⟨10, 11⟩, "[", []⟩,
              first,
              ⟨"]", false, "", ⟨44, 45⟩, "]", []⟩]⟩]⟩,
          ⟨",", false, "", ⟨45, 46⟩, ",", []⟩,
          second,
          ⟨"]", false, "", ⟨80, 81⟩, "]", []⟩]⟩,
        ⟨"=", false, "", ⟨82, 83⟩, "=", []⟩,
        ⟨"identifier", true, "value", ⟨84, 85⟩, "c", []⟩]⟩,
      ⟨";", false, "", ⟨85, 86⟩, ";", []⟩]⟩]⟩

/-- An interface in a rest element that is not written last gives its contract after those that are
written after it. -/
theorem contract_of_early_rest_comes_last :
    let contracts := (ofCst earlyRestProps).propsContracts
      (AliasTable.ofModel (ofCst earlyRestProps))
    contracts.map (fun contract => (contract.name, contract.span.start)) =
        [("BProps", 59), ("AProps", 23)] ∧
      ¬ (contracts.map fun contract => contract.span.start).Pairwise (· < ·) := by
  decide +kernel

end Model

end TsxLint
