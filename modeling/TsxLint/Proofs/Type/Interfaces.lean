import TsxLint.Lowering.Lower
import TsxLint.Proofs.Type.Reachability

/-!
# Interfaces and object types under a name

A name can stand for an object type in two ways: as an alias of it, or as an interface whose
declarations together have its members. An alias is followed by the walk, an interface is looked at
where the walk stops, and only by the search for plain objects. For most verdicts this makes no
difference. It does for members that can be called: no interface is a function, and merged
declarations are judged one by one.

Files number and place their members differently, so members of two files are compared by kind.

## Main definitions

* `AliasTable.IsMergedInterface`, `AliasTable.IsObjectAlias`: the two ways.
* `Shapes.wellKnownTypes`: the names that verdicts know by heart.

## Main results

* `Shapes.interfaces_match_aliases_unless_callable`: which verdicts agree, and when the others do.
* `Shapes.callable_interface_is_no_function`: an interface that can be called is told apart from the
  object type with its members.
-/

namespace TsxLint

/-! ### Members that can be called -/

theorem hasCallSignature_congr {members members' : List Node}
    (hkinds : members.map Node.kind = members'.map Node.kind) :
    hasCallSignature members = hasCallSignature members' := by
  unfold hasCallSignature
  induction members generalizing members' with
  | nil =>
    obtain rfl : members' = [] := by simpa using hkinds.symm
    rfl
  | cons m members ih =>
    obtain ⟨m', others, rfl, hm, hothers⟩ := List.map_eq_cons_iff.mp hkinds.symm
    rw [List.any_cons, List.any_cons, hm, ih hothers.symm]

/-- Members can be called if those of some declaration can. -/
theorem hasCallSignature_flatMap (declarations : List Node) (f : Node → List Node) :
    hasCallSignature (declarations.flatMap f) =
      declarations.any fun d => hasCallSignature (f d) := by
  simp only [hasCallSignature, List.any_flatMap]

namespace AliasTable

variable {t : AliasTable} {name : String} {members : List Node}

/-- A name stands for interfaces that extend nothing, with these members taken together. -/
structure IsMergedInterface (t : AliasTable) (name : String) (members : List Node) : Prop where
  alias_none : t.alias? name = none
  declared : t.interfaces name ≠ []
  base_nil : ∀ declaration ∈ t.interfaces name, declaration.all .base = []
  members_eq : (t.interfaces name).flatMap (·.all .member) = members

/-- A name stands for an alias of an object type with these members, and for nothing else. -/
structure IsObjectAlias (t : AliasTable) (name : String) (members : List Node) : Prop where
  alias_literal : ∃ literal, t.alias? name = some literal ∧ literal.kind = .typeLiteral ∧
    literal.all .member = members
  interfaces_nil : t.interfaces name = []

/-! ### Walks from a name -/

section

variable {w : Walk} {leaf : Node → Bool} {n : Node}

/-- A walk ends at a name that leads nowhere. -/
theorem meets_of_hop_eq_nil (hname : n.localTypeName? = some name) (hhop : t.hop w name = []) :
    (meets t w leaf .empty n).1.1 = leaf n := by
  rw [Bool.eq_iff_iff, meets_of_stop (parts?_eq_none_of_localTypeName? hname)]
  simp [hname, hhop]

/-- A walk ends at an object type. -/
theorem meets_of_literal {guard : Guard} (hkind : n.kind = .typeLiteral) :
    (meets t w leaf guard n).1.1 = leaf n := by
  have hstop : w.parts? n.kind = none := by
    rw [hkind]
    rfl
  rw [Bool.eq_iff_iff, meets_of_stop hstop]
  simp [localTypeName?_eq_none_of_kind hkind]

/-- From a name that leads to an object type only, a walk meets the name or that type. -/
theorem meets_of_hop_eq_literal {literal : Node} (hname : n.localTypeName? = some name)
    (hhop : t.hop w name = [literal]) (hkind : literal.kind = .typeLiteral) :
    (meets t w leaf .empty n).1.1 = (leaf n || leaf literal) := by
  rw [Bool.eq_iff_iff, meets_of_stop (parts?_eq_none_of_localTypeName? hname)]
  simp [hname, hhop, meets_of_literal hkind, Guard.isActive, Guard.empty]

theorem IsMergedInterface.hop_eq_nil (h : t.IsMergedInterface name members) :
    t.hop w name = [] := by
  rw [hop, h.alias_none]
  simpa using fun _ => h.base_nil

theorem IsObjectAlias.hop_eq (h : t.IsObjectAlias name members) :
    ∃ literal, t.hop w name = [literal] ∧ literal.kind = .typeLiteral ∧
      literal.all .member = members := by
  obtain ⟨literal, halias, hkind, hmembers⟩ := h.alias_literal
  exact ⟨literal, by rw [hop, halias], hkind, hmembers⟩

end

end AliasTable

/-! ### Verdicts on a name -/

namespace Shapes

open AliasTable

/-- The names of containers, components and elements that verdicts know by heart. -/
def wellKnownTypes : List String :=
  arrayContainers ++ objectContainers ++ readonlyContainers ++ componentConstructors ++
    [ElementKind.node.typeName, ElementKind.element.typeName]

/-- The verdicts that do not tell an interface from an alias. -/
def nameVerdicts : List (Shapes → Node → Bool) :=
  [isArray, isBoolean, isComponentConstructor, (containsElement · .node),
    (containsElement · .element), isReadonly]

variable {t : AliasTable} {name : String} {members : List Node} {n : Node}

section

variable (hname : n.localTypeName? = some name) (hnew : name ∉ wellKnownTypes)

include hname

theorem isBooleanLeaf_of_name : isBooleanLeaf n = false := by
  rw [isBooleanLeaf, (kind_of_localTypeName? hname).1]

theorem isFunctionLeaf_of_name : isFunctionLeaf n = false := by
  rw [isFunctionLeaf, (kind_of_localTypeName? hname).1]

theorem operand_of_name (below : Bool) : n.operand below = n := by
  obtain ⟨role, id, kind, span, children⟩ := n
  obtain rfl : kind = .typeReference := (kind_of_localTypeName? hname).1
  rw [Node.operand] <;> simp

omit hname in
theorem isArrayLeaf_of_literal {literal : Node} (hkind : literal.kind = .typeLiteral) :
    isArrayLeaf literal = false := by
  obtain ⟨role, id, kind, span, children⟩ := literal
  obtain rfl : kind = .typeLiteral := hkind
  rw [isArrayLeaf, Node.operand] <;> simp

include hnew

theorem isArrayLeaf_of_name : isArrayLeaf n = false := by
  obtain ⟨hkind, hlast⟩ := kind_of_localTypeName? hname
  have hnot : name ∉ arrayContainers := fun h => hnew (by simp [wellKnownTypes, h])
  simp [isArrayLeaf, operand_of_name hname, hkind, hlast, hnot]

theorem isComponentLeaf_of_name : isComponentLeaf n = false := by
  obtain ⟨hkind, hlast⟩ := kind_of_localTypeName? hname
  have hnot : name ∉ componentConstructors := fun h => hnew (by simp [wellKnownTypes, h])
  simp [isComponentLeaf, hkind, hlast, hnot]

theorem isElementLeaf_of_name (kind : ElementKind) : isElementLeaf kind n = false := by
  obtain ⟨hkind, hlast⟩ := kind_of_localTypeName? hname
  have hnot : name ≠ kind.typeName := fun h => hnew (by cases kind <;> simp [wellKnownTypes, h])
  simp [isElementLeaf, hkind, hlast, hnot]

/-- A name is a plain object where it stands if some interface of that name cannot be called. -/
theorem isObjectLeaf_of_name (s : Shapes) : s.isObjectLeaf n =
    (s.aliases.interfaces name).any fun declaration =>
      !hasCallSignature (declaration.all .member) := by
  obtain ⟨hkind, hlast⟩ := kind_of_localTypeName? hname
  have hnot : name ∉ objectContainers := fun h => hnew (by simp [wellKnownTypes, h])
  simp [isObjectLeaf, hkind, hlast, hnot, hname]

/-- A name is readonly if its alias is. -/
theorem readonlyIn_of_name : t.readonlyIn .empty n =
    (t.alias? name).any (t.readonlyIn (Guard.empty.enter name).2) := by
  obtain ⟨hkind, hlast⟩ := kind_of_localTypeName? hname
  have hnot : name ∉ readonlyContainers := fun h => hnew (by simp [wellKnownTypes, h])
  rw [readonlyIn, hkind]
  simp only [hlast, hname, List.contains_eq_mem, hnot, decide_false, Bool.false_or]
  rw [if_neg (by simp [Guard.isActive, Guard.empty])]
  split_ifs with hdeclared
  · cases t.alias? name <;> rfl
  · have hhop (type : Node) (h : t.alias? name = some type) : name ∈ t.names :=
      mem_names_of_mem_hop (w := .plain) (m := type) (mem_hop_plain.mpr h)
    cases htype : t.alias? name with
    | none => rfl
    | some type => exact absurd (hhop type htype) hdeclared

/-! ### An interface -/

/-- Most verdicts deny an interface. -/
theorem nameVerdict_of_interface (h : t.IsMergedInterface name members)
    {p : Shapes → Node → Bool} (hp : p ∈ nameVerdicts) : p ⟨t, none⟩ n = false := by
  have hleaf (w : Walk) (leaf : Node → Bool) (hfalse : leaf n = false) :
      (meets t w leaf .empty n).1.1 = false := by
    rw [meets_of_hop_eq_nil hname h.hop_eq_nil, hfalse]
  simp only [nameVerdicts, List.mem_cons, List.not_mem_nil, or_false] at hp
  rcases hp with rfl | rfl | rfl | rfl | rfl | rfl
  · exact hleaf _ _ (isArrayLeaf_of_name hname hnew)
  · exact hleaf _ _ (isBooleanLeaf_of_name hname)
  · exact hleaf _ _ (isComponentLeaf_of_name hname hnew)
  · exact hleaf _ _ (isElementLeaf_of_name hname hnew .node)
  · exact hleaf _ _ (isElementLeaf_of_name hname hnew .element)
  · rw [isReadonly, readonlyIn_of_name hname hnew, h.alias_none]
    rfl

theorem isObject_of_interface (h : t.IsMergedInterface name members) :
    isObject ⟨t, none⟩ n = (t.interfaces name).any fun declaration =>
      !hasCallSignature (declaration.all .member) := by
  change (meets t .plain _ .empty n).1.1 = _
  rw [meets_of_hop_eq_nil hname h.hop_eq_nil, isObjectLeaf_of_name hname hnew]

omit hnew in
theorem isFunction_of_interface (h : t.IsMergedInterface name members) :
    isFunction ⟨t, none⟩ n = false := by
  change (meets t .plain _ .empty n).1.1 = _
  rw [meets_of_hop_eq_nil hname h.hop_eq_nil, isFunctionLeaf_of_name hname]

/-! ### An alias of an object type -/

/-- The verdicts that deny an interface deny an object type under an alias. -/
theorem nameVerdict_of_alias (h : t.IsObjectAlias name members)
    {p : Shapes → Node → Bool} (hp : p ∈ nameVerdicts) : p ⟨t, none⟩ n = false := by
  obtain ⟨literal, halias, hkind, -⟩ := h.alias_literal
  have hleaf (w : Walk) (leaf : Node → Bool) (hfalse : leaf n = false)
      (hliteral : leaf literal = false) : (meets t w leaf .empty n).1.1 = false := by
    have hhop : t.hop w name = [literal] := by rw [hop, halias]
    rw [meets_of_hop_eq_literal hname hhop hkind, hfalse, hliteral, Bool.false_or]
  simp only [nameVerdicts, List.mem_cons, List.not_mem_nil, or_false] at hp
  rcases hp with rfl | rfl | rfl | rfl | rfl | rfl
  · exact hleaf _ _ (isArrayLeaf_of_name hname hnew) (isArrayLeaf_of_literal hkind)
  · exact hleaf _ _ (isBooleanLeaf_of_name hname) (by rw [isBooleanLeaf, hkind])
  · exact hleaf _ _ (isComponentLeaf_of_name hname hnew) (by rw [isComponentLeaf, hkind])
  · exact hleaf _ _ (isElementLeaf_of_name hname hnew .node) (by rw [isElementLeaf, hkind])
  · exact hleaf _ _ (isElementLeaf_of_name hname hnew .element) (by rw [isElementLeaf, hkind])
  · rw [isReadonly, readonlyIn_of_name hname hnew, halias, Option.any_some, readonlyIn, hkind]

theorem isObject_of_alias (h : t.IsObjectAlias name members) :
    isObject ⟨t, none⟩ n = !hasCallSignature members := by
  obtain ⟨literal, hhop, hkind, rfl⟩ := h.hop_eq (w := .plain)
  change (meets t .plain _ .empty n).1.1 = _
  rw [meets_of_hop_eq_literal hname hhop hkind, isObjectLeaf_of_name hname hnew, h.interfaces_nil,
    List.any_nil, Bool.false_or, isObjectLeaf, hkind]

omit hnew in
theorem isFunction_of_alias (h : t.IsObjectAlias name members) :
    isFunction ⟨t, none⟩ n = hasCallSignature members := by
  obtain ⟨literal, hhop, hkind, rfl⟩ := h.hop_eq (w := .plain)
  change (meets t .plain _ .empty n).1.1 = _
  rw [meets_of_hop_eq_literal hname hhop hkind, isFunctionLeaf_of_name hname, Bool.false_or,
    isFunctionLeaf, hkind]

end

/-- **Interfaces and object types agree unless they can be called.** Take a name that verdicts do
not know by heart. Let it stand in one file for merged interfaces without bases, and in another for
an alias of an object type with members of the same kinds in the same order. Without a type service,
a reference to it gets the same verdicts in both, except for two: the object type is a function
exactly if its members can be called, and a plain object otherwise, while the interface is never a
function and is a plain object unless each of its declarations can be called. So the verdicts on
functions agree exactly if no member can be called, and those on plain objects agree also if every
declaration can be. -/
theorem interfaces_match_aliases_unless_callable {t t' : AliasTable} {name : String}
    {members members' : List Node} {n n' : Node} (hnew : name ∉ wellKnownTypes)
    (hinterface : t.IsMergedInterface name members) (halias : t'.IsObjectAlias name members')
    (hkinds : members.map Node.kind = members'.map Node.kind)
    (hn : n.localTypeName? = some name) (hn' : n'.localTypeName? = some name) :
    (∀ p ∈ nameVerdicts, p ⟨t, none⟩ n = p ⟨t', none⟩ n') ∧
    (isFunction ⟨t', none⟩ n' = hasCallSignature members ∧
      isObject ⟨t', none⟩ n' = !hasCallSignature members) ∧
    (isFunction ⟨t, none⟩ n = isFunction ⟨t', none⟩ n' ↔ hasCallSignature members = false) ∧
    (isObject ⟨t, none⟩ n = isObject ⟨t', none⟩ n' ↔ hasCallSignature members = false ∨
      ∀ declaration ∈ t.interfaces name, hasCallSignature (declaration.all .member) = true) := by
  have hcall : hasCallSignature members = (t.interfaces name).any fun declaration =>
      hasCallSignature (declaration.all .member) := by
    rw [← hinterface.members_eq, hasCallSignature_flatMap]
  obtain ⟨first, hfirst⟩ := List.exists_mem_of_ne_nil _ hinterface.declared
  rw [isFunction_of_interface hn hinterface, isFunction_of_alias hn' halias,
    isObject_of_interface hn hnew hinterface, isObject_of_alias hn' hnew halias,
    ← hasCallSignature_congr hkinds]
  refine ⟨fun p hp => ?_, ⟨rfl, rfl⟩, eq_comm, ?_⟩
  · rw [nameVerdict_of_interface hn hnew hinterface hp, nameVerdict_of_alias hn' hnew halias hp]
  · cases hmembers : hasCallSignature members with
    | false =>
      have hnone : ∀ declaration ∈ t.interfaces name,
          hasCallSignature (declaration.all .member) = false := by
        simpa [hcall] using hmembers
      simpa using ⟨first, hfirst, hnone first hfirst⟩
    | true => simp

/-- The tree of `interface X { a: string } interface X { (): void } type P = X;`, most tokens left
out. -/
private def mergedInterface : Cst :=
  ⟨"program", true, "", ⟨0, 62⟩, "", [
    ⟨"interface_declaration", true, "", ⟨0, 25⟩, "", [
      ⟨"type_identifier", true, "name", ⟨10, 11⟩, "X", []⟩,
      ⟨"interface_body", true, "body", ⟨12, 25⟩, "", [
        ⟨"property_signature", true, "", ⟨14, 23⟩, "a: string", [
          ⟨"property_identifier", true, "name", ⟨14, 15⟩, "a", []⟩]⟩]⟩]⟩,
    ⟨"interface_declaration", true, "", ⟨26, 50⟩, "", [
      ⟨"type_identifier", true, "name", ⟨36, 37⟩, "X", []⟩,
      ⟨"interface_body", true, "body", ⟨38, 50⟩, "", [
        ⟨"call_signature", true, "", ⟨40, 48⟩, "(): void", []⟩]⟩]⟩,
    ⟨"type_alias_declaration", true, "", ⟨51, 62⟩, "type P = X;", [
      ⟨"type_identifier", true, "name", ⟨56, 57⟩, "P", []⟩,
      ⟨"type_identifier", true, "value", ⟨60, 61⟩, "X", []⟩]⟩]⟩

/-- The tree of `type X = { a: string; (): void }; type P = X;`, most tokens left out. -/
private def objectAlias : Cst :=
  ⟨"program", true, "", ⟨0, 45⟩, "", [
    ⟨"type_alias_declaration", true, "", ⟨0, 33⟩, "", [
      ⟨"type_identifier", true, "name", ⟨5, 6⟩, "X", []⟩,
      ⟨"object_type", true, "value", ⟨9, 32⟩, "", [
        ⟨"property_signature", true, "", ⟨11, 20⟩, "a: string", [
          ⟨"property_identifier", true, "name", ⟨11, 12⟩, "a", []⟩]⟩,
        ⟨"call_signature", true, "", ⟨22, 30⟩, "(): void", []⟩]⟩]⟩,
    ⟨"type_alias_declaration", true, "", ⟨34, 45⟩, "type P = X;", [
      ⟨"type_identifier", true, "name", ⟨39, 40⟩, "P", []⟩,
      ⟨"type_identifier", true, "value", ⟨43, 44⟩, "X", []⟩]⟩]⟩

/-- The declarations of the file of a tree. -/
private def declarationsOf (c : Cst) : AliasTable := .ofModel (.ofProgram (Program.ofCst c))

/-- The annotation of `P` in the file of a tree. -/
private def annotationOf (c : Cst) : Node := ((declarationsOf c).alias? "P").getD default

/-- The members of the interface in its two declarations. -/
private def mergedMembers : List Node :=
  [⟨.member, 3, .propertySignature false false, ⟨14, 23⟩, [
      ⟨.key, 4, .identifierName "a", ⟨14, 15⟩, []⟩]⟩,
    ⟨.member, 7, .callSignature false, ⟨40, 48⟩, []⟩]

/-- The members of the object type. -/
private def objectMembers : List Node :=
  [⟨.member, 4, .propertySignature false false, ⟨11, 20⟩, [
      ⟨.key, 5, .identifierName "a", ⟨11, 12⟩, []⟩]⟩,
    ⟨.member, 6, .callSignature false, ⟨22, 30⟩, []⟩]

private theorem mergedInterface_declares :
    (declarationsOf mergedInterface).IsMergedInterface "X" mergedMembers where
  alias_none := by rfl
  declared := List.ne_nil_of_length_pos (by decide +kernel)
  base_nil declaration hmem := by
    have hall : ((declarationsOf mergedInterface).interfaces "X").all
        (fun declaration => (declaration.all .base).isEmpty) = true := by decide +kernel
    exact List.isEmpty_iff.mp (List.all_eq_true.mp hall declaration hmem)
  members_eq := by rfl

private theorem objectAlias_declares :
    (declarationsOf objectAlias).IsObjectAlias "X" objectMembers where
  alias_literal := ⟨_, by rfl, by rfl, by rfl⟩
  interfaces_nil := by rfl

/-- One of two merged declarations can be called, so that the name is a plain object in one file and
none in the other; the other verdicts are the same. -/
theorem merged_declarations_of_callable_object :
    "X" ∉ wellKnownTypes ∧
    (declarationsOf mergedInterface).IsMergedInterface "X" mergedMembers ∧
    (declarationsOf objectAlias).IsObjectAlias "X" objectMembers ∧
    mergedMembers.map Node.kind = objectMembers.map Node.kind ∧
    (annotationOf mergedInterface).localTypeName? = some "X" ∧
    (annotationOf objectAlias).localTypeName? = some "X" ∧
    (∀ p ∈ nameVerdicts, p ⟨declarationsOf mergedInterface, none⟩ (annotationOf mergedInterface) =
      p ⟨declarationsOf objectAlias, none⟩ (annotationOf objectAlias)) ∧
    isObject ⟨declarationsOf mergedInterface, none⟩ (annotationOf mergedInterface) ≠
      isObject ⟨declarationsOf objectAlias, none⟩ (annotationOf objectAlias) := by
  have hnew : "X" ∉ wellKnownTypes := by decide
  have hname : (annotationOf mergedInterface).localTypeName? = some "X" := by rfl
  have hname' : (annotationOf objectAlias).localTypeName? = some "X" := by rfl
  obtain ⟨hsame, -, -, hobject⟩ := interfaces_match_aliases_unless_callable hnew
    mergedInterface_declares objectAlias_declares (by rfl) hname hname'
  refine ⟨hnew, mergedInterface_declares, objectAlias_declares, by rfl, hname, hname', hsame,
    fun h => ?_⟩
  rcases hobject.mp h with hnone | hall
  · exact absurd hnone (by decide)
  · have hsome : ((declarationsOf mergedInterface).interfaces "X").all
        (fun declaration => hasCallSignature (declaration.all .member)) = false := by
      decide +kernel
    rw [List.all_eq_true.mpr hall] at hsome
    cases hsome

/-- An interface that can be called is no function, and a plain object if one of its declarations
cannot be called; the object type with the same members is a function and no plain object. -/
theorem callable_interface_is_no_function :
    (declarationsOf mergedInterface).IsMergedInterface "X" mergedMembers ∧
    (declarationsOf objectAlias).IsObjectAlias "X" objectMembers ∧
    mergedMembers.map Node.kind = objectMembers.map Node.kind ∧
    isFunction ⟨declarationsOf mergedInterface, none⟩ (annotationOf mergedInterface) = false ∧
    isObject ⟨declarationsOf mergedInterface, none⟩ (annotationOf mergedInterface) = true ∧
    isFunction ⟨declarationsOf objectAlias, none⟩ (annotationOf objectAlias) = true ∧
    isObject ⟨declarationsOf objectAlias, none⟩ (annotationOf objectAlias) = false := by
  have hnew : "X" ∉ wellKnownTypes := by decide
  refine ⟨mergedInterface_declares, objectAlias_declares, by rfl, ?_, ?_, ?_, ?_⟩
  · exact isFunction_of_interface (by rfl) mergedInterface_declares
  · rw [isObject_of_interface (by rfl) hnew mergedInterface_declares]
    decide +kernel
  · rw [isFunction_of_alias (by rfl) objectAlias_declares]
    decide
  · rw [isObject_of_alias (by rfl) hnew objectAlias_declares]
    decide

end Shapes

end TsxLint
