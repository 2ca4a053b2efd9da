import TsxLint.Proofs.Data.FirstOccurrences
import TsxLint.Proofs.Binding.NodeTable
import TsxLint.Proofs.Lowering.Outline
import TsxLint.Rule.Compound

/-!
# The arrangement of exports

The exports of a file are judged once all of them are known. The search goes through them in source
order and remembers what it met first: the first export of each part, and the first one of the root.
That decides where a finding is reported, but not what it says. So statements may be moved, lists of
exports may be split and joined, and the names in a list may change places.

## Main definitions

* `Node.IsExportList`, `Node.withSpecifiers`: lists of exports.
* `Rearranged`: statements of which the exports are arranged in another way.
* `CompoundExport.Unaliased`: a part that is exported, but not under its own name.

## Main results

* `Rearranged.collect_perm`: what is collected from the exports stays the same.
* `CompoundExport.mem_partAliases_content_iff`, `CompoundExport.rootAlias_content_eq_some_iff`: what
  is said about the exports of a family.
* `CompoundExport.contents_ignore_arrangement`: both together.
-/

namespace TsxLint

/-- What a finding says, wherever it is reported. -/
def Diagnostic.content (d : Diagnostic) : String × MessageData := (d.id, d.data)

/-! ### Rearranged exports -/

namespace Node

/-- Whether a node exports declarations or names. -/
def isNamedExport (n : Node) : Bool :=
  match n.kind with
  | .exportNamedDeclaration .. => true
  | _ => false

/-- A statement that exports a list of names, maybe those of another module. -/
structure IsExportList (n : Node) : Prop where
  isNamedExport : n.isNamedExport = true
  parts : ∀ part ∈ n.children, part.role = .specifier ∨
    part.role = .source ∧ part.isNamedExport = false ∧ part.children = []

/-- A list of exports with other names in it. -/
def withSpecifiers (n : Node) (specifiers : List Node) : Node :=
  { n with children := specifiers ++ n.children.filter (·.role != .specifier) }

end Node

open Node

/-- Statements of which the exports are arranged in another way: the statements in another order,
the names of a list in another order, or one list split into several, or several joined to one. The
numbers and spans of nodes may change. -/
inductive Rearranged : List Node → List Node → Prop
  | outlines {l l' : List Node} (h : l.map outline = l'.map outline) : Rearranged l l'
  | statements {l l' : List Node} (h : l.Perm l') : Rearranged l l'
  | names {before after : List Node} {n : Node} {specifiers : List Node} (hn : n.IsExportList)
      (h : (n.all .specifier).Perm specifiers) :
      Rearranged (before ++ n :: after) (before ++ n.withSpecifiers specifiers :: after)
  | split {before after : List Node} {n : Node} {lists : List (List Node)} (hn : n.IsExportList)
      (h : n.all .specifier = lists.flatten) :
      Rearranged (before ++ n :: after) (before ++ lists.map n.withSpecifiers ++ after)
  | symm {l l' : List Node} (h : Rearranged l l') : Rearranged l' l
  | trans {l l' l'' : List Node} (h : Rearranged l l') (h' : Rearranged l' l'') : Rearranged l l''

/-- Something that is collected from the exports of a file: from a list of exports by its names,
given whether they are names of this module, and from other nodes than exports nothing. -/
structure Collects {β : Type} (collect : Node → List β) (ofName : Bool → Node → List β) :
    Prop where
  ignoresPlaces : ∀ n, collect n.outline = collect n
  list : ∀ n, n.IsExportList →
    collect n = (n.all .specifier).flatMap (ofName (CompoundExport.isLocal n))
  other : ∀ n, n.isNamedExport = false → collect n = []

/-- What is collected from a node and everything inside it. -/
def Node.collected {β : Type} (collect : Node → List β) (n : Node) : List β :=
  n.preorder.flatMap collect

theorem Node.collected_eq {β : Type} (collect : Node → List β) (n : Node) :
    n.collected collect = collect n ++ n.children.flatMap (collected collect) := by
  rw [collected, preorder_eq, List.flatMap_cons, preorderAll_eq_flatMap, List.flatMap_assoc]
  rfl

section

variable {β : Type} {collect : Node → List β} {ofName : Bool → Node → List β} {n : Node}
  {specifiers : List Node}

theorem Node.role_of_mem_all {role : Role} {part : Node} (h : part ∈ n.all role) :
    part.role = role :=
  beq_iff_eq.mp (List.mem_filter.mp h).2

theorem Node.IsExportList.role_of_mem_others (hn : n.IsExportList) {part : Node}
    (hpart : part ∈ n.children.filter (·.role != .specifier)) :
    part.role = .source ∧ part.isNamedExport = false ∧ part.children = [] := by
  obtain ⟨hmem, hrole⟩ := List.mem_filter.mp hpart
  exact (hn.parts part hmem).resolve_left (by simpa using hrole)

theorem Node.IsExportList.get?_declaration (hn : n.IsExportList) : n.get? .declaration = none := by
  refine List.find?_eq_none.mpr fun part hpart => ?_
  rcases hn.parts part hpart with hrole | ⟨hrole, -⟩ <;> simp [hrole]

section

variable (hn : n.IsExportList) (hroles : ∀ s ∈ specifiers, s.role = .specifier)

include hroles

theorem Node.all_withSpecifiers : (n.withSpecifiers specifiers).all .specifier = specifiers := by
  rw [all, withSpecifiers, List.filter_append, List.filter_eq_self.mpr fun s hs => by
    simp [hroles s hs], List.filter_filter, List.filter_eq_nil_iff.mpr fun part _ => by
    simp, List.append_nil]

theorem Node.get?_source_withSpecifiers :
    (n.withSpecifiers specifiers).get? .source = n.get? .source := by
  have hnames : specifiers.find? (·.role == .source) = none :=
    List.find?_eq_none.mpr fun s hs => by simp [hroles s hs]
  rw [get?, get?, withSpecifiers, List.find?_append, hnames, Option.none_or, List.find?_filter]
  refine congrArg (List.find? · _) (funext fun part => ?_)
  cases hrole : part.role == .source
  · simp
  · simp [beq_iff_eq.mp hrole]

theorem CompoundExport.isLocal_withSpecifiers :
    isLocal (n.withSpecifiers specifiers) = isLocal n := by
  rw [isLocal, isLocal, Node.get?_source_withSpecifiers hroles]
  rfl

include hn

theorem Node.IsExportList.withSpecifiers : (n.withSpecifiers specifiers).IsExportList where
  isNamedExport := hn.isNamedExport
  parts := by
    intro part hpart
    rcases List.mem_append.mp hpart with hpart | hpart
    · exact Or.inl (hroles part hpart)
    · exact Or.inr (hn.role_of_mem_others hpart)

end

namespace Collects

variable (h : Collects collect ofName)

include h

/-- From a list of exports is collected what its names and the nodes inside of them give. -/
theorem perm_of_isExportList (hn : n.IsExportList) : (n.collected collect).Perm
    ((n.all .specifier).flatMap (ofName (CompoundExport.isLocal n)) ++
      (n.all .specifier).flatMap (collected collect)) := by
  rw [collected_eq, h.list n hn]
  refine List.Perm.append_left _ ?_
  have hothers : (n.children.filter (·.role != .specifier)).flatMap (collected collect) = [] := by
    refine List.flatMap_eq_nil_iff.mpr fun part hpart => ?_
    obtain ⟨-, hexport, hchildren⟩ := hn.role_of_mem_others hpart
    rw [collected_eq, h.other part hexport, hchildren]
    rfl
  have hsplit := (List.filter_append_perm (·.role == .specifier) n.children).symm.flatMap_right
    (collected collect)
  have hnot : (fun part : Node => !part.role == .specifier) = (·.role != .specifier) := rfl
  rwa [hnot, List.flatMap_append, hothers, List.append_nil] at hsplit

/-- Another list of the same names in the place of a list gives what the names give. -/
theorem perm_withSpecifiers (hn : n.IsExportList) (hroles : ∀ s ∈ specifiers, s.role = .specifier) :
    ((n.withSpecifiers specifiers).collected collect).Perm
      (specifiers.flatMap (ofName (CompoundExport.isLocal n)) ++
        specifiers.flatMap (collected collect)) := by
  have hperm := h.perm_of_isExportList (hn.withSpecifiers hroles)
  rwa [all_withSpecifiers hroles, CompoundExport.isLocal_withSpecifiers hroles] at hperm

/-- Several lists give what one list of all their names does. -/
theorem perm_map_withSpecifiers (hn : n.IsExportList) (lists : List (List Node))
    (hroles : ∀ s ∈ lists.flatten, s.role = .specifier) :
    ((lists.map n.withSpecifiers).flatMap (collected collect)).Perm
      (lists.flatten.flatMap (ofName (CompoundExport.isLocal n)) ++
        lists.flatten.flatMap (collected collect)) := by
  induction lists with
  | nil => exact .nil
  | cons specifiers lists ih =>
    rw [List.flatten_cons, List.forall_mem_append] at hroles
    rw [List.map_cons, List.flatMap_cons, List.flatten_cons, List.flatMap_append,
      List.flatMap_append]
    refine ((h.perm_withSpecifiers hn hroles.1).append (ih hroles.2)).trans ?_
    rw [List.append_assoc, List.append_assoc]
    refine List.Perm.append_left _ ?_
    rw [← List.append_assoc, ← List.append_assoc]
    exact List.perm_append_comm.append_right _

/-- Numbers and spans do not matter. -/
theorem flatMap_outline (l : List Node) :
    (l.map outline).flatMap (collected collect) = l.flatMap (collected collect) := by
  rw [List.flatMap_map]
  refine List.flatMap_congr fun n _ => ?_
  rw [collected, collected, preorder_outline, List.flatMap_map]
  exact List.flatMap_congr fun m _ => h.ignoresPlaces m

/-- However the exports of a file are arranged, the same is collected from them. -/
theorem perm_of_rearranged {l l' : List Node} (hl : Rearranged l l') :
    (l.flatMap (collected collect)).Perm (l'.flatMap (collected collect)) := by
  induction hl with
  | @outlines l l' hl =>
    rw [← h.flatMap_outline l, hl, h.flatMap_outline l']
  | statements hl => exact hl.flatMap_right _
  | @names before after n specifiers hn hspecifiers =>
    have hroles : ∀ s ∈ specifiers, s.role = .specifier :=
      fun s hs => role_of_mem_all (hspecifiers.mem_iff.mpr hs)
    have hnames := (h.perm_of_isExportList hn).trans
      ((hspecifiers.flatMap_right _).append (hspecifiers.flatMap_right _))
    simp only [List.flatMap_append, List.flatMap_cons]
    exact List.Perm.append_left _
      ((hnames.trans (h.perm_withSpecifiers hn hroles).symm).append_right _)
  | @split before after n lists hn hlists =>
    have hroles : ∀ s ∈ lists.flatten, s.role = .specifier :=
      fun s hs => role_of_mem_all (hlists ▸ hs)
    have hnames := h.perm_of_isExportList hn
    rw [hlists] at hnames
    simp only [List.flatMap_append, List.flatMap_cons, List.append_assoc]
    exact List.Perm.append_left _
      ((hnames.trans (h.perm_map_withSpecifiers hn lists hroles).symm).append_right _)
  | symm _ ih => exact ih.symm
  | trans _ _ ih ih' => exact ih.trans ih'

end Collects

end

/-! ### What is collected -/

namespace CompoundExport

variable (n : Node)

theorem isLocal_outline : isLocal n.outline = isLocal n := by
  rw [isLocal, isLocal, outline_kind, get?_outline, Option.isNone_map]

theorem declarators_outline : declarators n.outline = (declarators n).map outline := by
  rw [declarators, declarators, get?_outline]
  cases n.get? .declaration with
  | none => rfl
  | some declaration =>
    simp only [Option.map_some, outline_kind, all_outline]
    split <;> rfl

theorem declaredFunction?_outline :
    declaredFunction? n.outline = (declaredFunction? n).map outline := by
  rw [declaredFunction?, declaredFunction?, get?_outline, Option.filter_map]
  simp only [Function.comp_def, outline_kind]

theorem hasPartEntry_outline : hasPartEntry n.outline = hasPartEntry n := by
  rw [hasPartEntry, hasPartEntry, unwrapped_outline, outline_kind, all_outline, List.any_map]
  simp only [Function.comp_def, outline_kind, keyName?_outline]

theorem isPartObject_outline : isPartObject n.outline = isPartObject n := by
  rw [isPartObject, isPartObject, boundName?_outline, get?_outline, Option.any_map, Option.any_map]
  simp only [label_outline, hasPartEntry_outline]

end CompoundExport

/-- The local and the public name of an export. -/
def LocalExport.names (e : LocalExport) : String × String := (e.localName, e.exported)

namespace CompoundExport

theorem names_unchanged_outline (n : Node) : (unchanged n.outline).names = (unchanged n).names := by
  rw [unchanged, unchanged, label_outline, LocalExport.names, LocalExport.names]

theorem names_ofSpecifier_outline (n : Node) :
    (ofSpecifier n.outline).names = (ofSpecifier n).names := by
  rw [ofSpecifier, ofSpecifier, nameAt?_outline, exportedName_outline, LocalExport.names,
    LocalExport.names]

theorem isLocal_of_isNamedExport {n : Node} (hn : n.isNamedExport = false) : isLocal n = false := by
  rw [Bool.eq_false_iff]
  intro hlocal
  unfold isLocal at hlocal
  split at hlocal
  · simp [Node.isNamedExport, *] at hn
  · cases hlocal

theorem declarators_of_isExportList {n : Node} (hn : n.IsExportList) : declarators n = [] := by
  rw [declarators, hn.get?_declaration]

theorem localExports_of_isExportList {n : Node} (hn : n.IsExportList) :
    localExports n = if isLocal n then (n.all .specifier).map ofSpecifier else [] := by
  rw [localExports, declarators_of_isExportList hn, declaredFunction?, hn.get?_declaration]
  rfl

theorem collects_names : Collects (fun n => (localExports n).map LocalExport.names)
    fun isLocal specifier => if isLocal then [(ofSpecifier specifier).names] else [] where
  ignoresPlaces := by
    intro n
    simp only [localExports, isLocal_outline, declarators_outline, declaredFunction?_outline,
      all_outline]
    split
    · simp only [List.map_append, List.filter_map, List.filterMap_map, List.map_filterMap,
        List.map_map, Function.comp_def, isPartObject_outline, boundName?_outline, Option.map_map,
        names_unchanged_outline, names_ofSpecifier_outline]
      congr 2
      cases declaredFunction? n with
      | none => rfl
      | some function =>
        simp only [Option.map_some, Option.bind_some, get?_outline]
        cases function.get? .name with
        | none => rfl
        | some name => simp [names_unchanged_outline]
    · rfl
  list := by
    intro n hn
    rw [localExports_of_isExportList hn]
    cases isLocal n with
    | false => simp
    | true =>
      simp only [if_true, List.map_map]
      exact List.map_eq_flatMap
  other := by
    intro n hn
    rw [localExports, isLocal_of_isNamedExport hn]
    rfl

theorem collects_partObjects :
    Collects (fun n => (partObjects n).map Diagnostic.content) fun _ _ => [] where
  ignoresPlaces := by
    intro n
    simp only [partObjects, isLocal_outline, declarators_outline]
    split
    · have hnames : (((declarators n).map outline).filter isPartObject).filterMap boundName? =
          (((declarators n).filter isPartObject).filterMap boundName?).map outline := by
        simp only [List.filter_map, List.filterMap_map, List.map_filterMap, Function.comp_def,
          isPartObject_outline, boundName?_outline]
      simp only [hnames, List.map_map, Function.comp_def, Diagnostic.content, label_outline]
    · rfl
  list := by
    intro n hn
    rw [partObjects, declarators_of_isExportList hn]
    simp
  other := by
    intro n hn
    rw [partObjects, isLocal_of_isNamedExport hn]
    rfl

/-! ### What is said about a family -/

variable {block : String} {exports exports' : List LocalExport}

/-- A local name stands for a part of a family and is exported, but never under the name of the
part. -/
structure Unaliased (block : String) (exports : List LocalExport) (name part : String) : Prop where
  isPart : part? block name = some part
  isExported : ∃ e ∈ exports, e.localName = name
  notAliased : ∀ e ∈ exports, e.localName = name → e.exported ≠ part

/-- What is said about a part that is not exported under its own name. -/
def partContent (block name part : String) : String × MessageData :=
  ("requirePartAlias", [("local", name), ("part", part), ("block", block)])

theorem mem_partExports_iff {entry : LocalExport × String} : entry ∈ partExports block exports ↔
    entry.1 ∈ exports ∧ part? block entry.1.localName = some entry.2 := by
  rw [partExports, List.mem_filterMap]
  constructor
  · rintro ⟨e, he, hentry⟩
    obtain ⟨part, hpart, rfl⟩ := Option.map_eq_some_iff.mp hentry
    exact ⟨he, hpart⟩
  · rintro ⟨he, hpart⟩
    exact ⟨entry.1, he, by rw [hpart, Option.map_some]⟩

/-- The parts that are said to be exported under wrong names only. -/
theorem mem_partAliases_content_iff {content : String × MessageData} :
    content ∈ (partAliases block exports).map Diagnostic.content ↔
      ∃ name part, Unaliased block exports name part ∧ content = partContent block name part := by
  have haliased {name part : String} : (!exports.any fun other =>
      other.localName == name && other.exported == part) = true ↔
        ∀ e ∈ exports, e.localName = name → e.exported ≠ part := by
    simp
  rw [partAliases, List.map_map, List.mem_map]
  constructor
  · rintro ⟨⟨e, part⟩, hentry, rfl⟩
    obtain ⟨hfirst, hnot⟩ := List.mem_filter.mp hentry
    obtain ⟨he, hpart⟩ := mem_partExports_iff.mp (mem_of_mem_firstByKey hfirst)
    exact ⟨e.localName, part, ⟨hpart, ⟨e, he, rfl⟩, haliased.mp hnot⟩, rfl⟩
  · rintro ⟨name, part, ⟨hpart, ⟨e, he, rfl⟩, hnot⟩, rfl⟩
    -- The part is met at the first export of its name, which may be another one than `e`.
    have hkey : e.localName ∈ (partExports block exports).map (·.1.localName) :=
      List.mem_map.mpr ⟨(e, part), mem_partExports_iff.mpr ⟨he, hpart⟩, rfl⟩
    obtain ⟨⟨first, part'⟩, hfirst, hname⟩ :=
      List.mem_map.mp (((firstByKey_listsFirsts _).mem_iff _).mpr hkey)
    obtain ⟨-, hpart'⟩ := mem_partExports_iff.mp (mem_of_mem_firstByKey hfirst)
    dsimp only at hname hpart'
    rw [hname, hpart] at hpart'
    obtain rfl := Option.some.inj hpart'
    refine ⟨(first, part), List.mem_filter.mpr ⟨hfirst, ?_⟩, ?_⟩
    · dsimp only
      rw [hname]
      exact haliased.mpr hnot
    · rw [partContent, ← hname]
      rfl

/-- Nothing is said twice about a part. -/
theorem partAliases_content_nodup :
    ((partAliases block exports).map Diagnostic.content).Nodup := by
  -- The local name is the first value that a finding carries.
  let name (content : String × MessageData) : String := (content.2.head?.map Prod.snd).getD ""
  have hnames : ((partAliases block exports).map Diagnostic.content).map name =
      ((firstByKey (·.1.localName) (partExports block exports)).filter fun entry =>
        !exports.any fun other =>
          other.localName == entry.1.localName && other.exported == entry.2).map
          (·.1.localName) := by
    rw [partAliases, List.map_map, List.map_map]
    rfl
  refine List.Nodup.of_map name ?_
  rw [hnames]
  exact (List.filter_sublist.map _).nodup (firstByKey_listsFirsts _).nodup

/-- What is said about the root of a family that exports parts. -/
theorem rootAlias_content_eq_some_iff {content : String × MessageData} :
    (rootAlias block exports).map Diagnostic.content = some content ↔
      (∃ e ∈ exports, (part? block e.localName).isSome = true) ∧
        ((∀ e ∈ exports, e.localName ≠ block) ∧
            content = ("requireRootExport", [("block", block)]) ∨
          (∃ e ∈ exports, e.localName = block) ∧
            (∀ e ∈ exports, e.localName = block → e.exported ≠ "Root") ∧
            content = ("requireRootAlias", [("block", block)])) := by
  have hroot {e : LocalExport} : e ∈ exports.filter (·.localName == block) ↔
      e ∈ exports ∧ e.localName = block := by
    rw [List.mem_filter, beq_iff_eq]
  rw [rootAlias]
  cases hhead : (partExports block exports).head? with
  | none =>
    have hempty := List.head?_eq_none_iff.mp hhead
    refine ⟨nofun, ?_⟩
    rintro ⟨⟨e, he, hpart⟩, -⟩
    obtain ⟨part, hpart⟩ := Option.isSome_iff_exists.mp hpart
    have hmem : (e, part) ∈ partExports block exports := mem_partExports_iff.mpr ⟨he, hpart⟩
    rw [hempty] at hmem
    cases hmem
  | some first =>
    obtain ⟨hfirst, hpart⟩ := mem_partExports_iff.mp (List.mem_of_head? hhead)
    have hparts : ∃ e ∈ exports, (part? block e.localName).isSome = true :=
      ⟨first.1, hfirst, by rw [hpart, Option.isSome_some]⟩
    rw [and_iff_right hparts]
    cases hroots : exports.filter (·.localName == block) with
    | nil =>
      have hnone : ∀ e ∈ exports, e.localName ≠ block := fun e he hname => by
        have hmem := hroot.mpr ⟨he, hname⟩
        rw [hroots] at hmem
        cases hmem
      constructor
      · intro h
        exact Or.inl ⟨hnone, (Option.some.inj h).symm⟩
      · rintro (⟨-, rfl⟩ | ⟨⟨e, he, hname⟩, -⟩)
        · rfl
        · exact absurd hname (hnone e he)
    | cons root others =>
      have hmember : root ∈ exports ∧ root.localName = block :=
        hroot.mp (hroots ▸ List.mem_cons_self)
      have hnamed : (root :: others).any (·.exported == "Root") = true ↔
          ∃ e ∈ exports, e.localName = block ∧ e.exported = "Root" := by
        simp only [← hroots, List.any_eq_true, hroot, beq_iff_eq, and_assoc]
      rw [Option.bind_eq_bind, Option.bind_some]
      dsimp only
      split_ifs with hany
      · obtain ⟨e, he, hname, hexported⟩ := hnamed.mp hany
        refine ⟨nofun, ?_⟩
        rintro (⟨hnone, -⟩ | ⟨-, hnot, -⟩)
        · exact absurd hname (hnone e he)
        · exact absurd hexported (hnot e he hname)
      · constructor
        · intro h
          refine Or.inr ⟨⟨root, hmember⟩, fun e he hname hexported => ?_, (Option.some.inj h).symm⟩
          exact hany (hnamed.mpr ⟨e, he, hname, hexported⟩)
        · rintro (⟨hnone, -⟩ | ⟨-, -, rfl⟩)
          · exact absurd hmember.2 (hnone root hmember.1)
          · rfl

/-- A family has one root, so one thing at most is said about it. -/
theorem rootFindings_length_le (block : String) (exports : List LocalExport) :
    ((partAliases block exports ++ (rootAlias block exports).toList).filter fun d =>
      d.id == "requireRootExport" || d.id == "requireRootAlias").length ≤ 1 := by
  have hparts : (partAliases block exports).filter (fun d =>
      d.id == "requireRootExport" || d.id == "requireRootAlias") = [] := by
    refine List.filter_eq_nil_iff.mpr fun d hd => ?_
    obtain ⟨entry, -, rfl⟩ := List.mem_map.mp hd
    simp
  rw [List.filter_append, hparts, List.nil_append]
  exact Nat.le_trans (List.length_filter_le _ _) Option.length_toList_le

section

variable (hnames : (exports.map LocalExport.names).Perm (exports'.map LocalExport.names))

include hnames

theorem exists_export_congr (p : String → String → Prop) :
    (∃ e ∈ exports, p e.localName e.exported) ↔ ∃ e ∈ exports', p e.localName e.exported := by
  have hmem (l : List LocalExport) : (∃ e ∈ l, p e.localName e.exported) ↔
      ∃ names ∈ l.map LocalExport.names, p names.1 names.2 := by
    simp [LocalExport.names]
  rw [hmem, hmem]
  exact exists_congr fun names => and_congr_left fun _ => hnames.mem_iff

theorem forall_export_congr (p : String → String → Prop) :
    (∀ e ∈ exports, p e.localName e.exported) ↔ ∀ e ∈ exports', p e.localName e.exported := by
  have hexists := not_congr (exists_export_congr hnames fun name exported => ¬ p name exported)
  push Not at hexists
  exact hexists

theorem unaliased_congr {name part : String} :
    Unaliased block exports name part ↔ Unaliased block exports' name part := by
  have hexported := exists_export_congr hnames fun name' _ => name' = name
  have hnot := forall_export_congr hnames fun name' exported => name' = name → exported ≠ part
  exact ⟨fun ⟨h, h', h''⟩ => ⟨h, hexported.mp h', hnot.mp h''⟩,
    fun ⟨h, h', h''⟩ => ⟨h, hexported.mpr h', hnot.mpr h''⟩⟩

/-- What is said about a family depends on the names of its exports only. -/
theorem family_content_perm (block : String) :
    ((partAliases block exports ++ (rootAlias block exports).toList).map Diagnostic.content).Perm
      ((partAliases block exports' ++ (rootAlias block exports').toList).map
        Diagnostic.content) := by
  have hparts : ((partAliases block exports).map Diagnostic.content).Perm
      ((partAliases block exports').map Diagnostic.content) := by
    refine (List.perm_ext_iff_of_nodup partAliases_content_nodup partAliases_content_nodup).mpr
      fun content => ?_
    rw [mem_partAliases_content_iff, mem_partAliases_content_iff]
    simp only [unaliased_congr hnames]
  have hroot : (rootAlias block exports).map Diagnostic.content =
      (rootAlias block exports').map Diagnostic.content := by
    refine Option.ext fun content => ?_
    rw [rootAlias_content_eq_some_iff, rootAlias_content_eq_some_iff]
    rw [exists_export_congr hnames fun name _ => (part? block name).isSome = true,
      forall_export_congr hnames fun name _ => name ≠ block,
      exists_export_congr hnames fun name _ => name = block,
      forall_export_congr hnames fun name exported => name = block → exported ≠ "Root"]
  rw [List.map_append, List.map_append, ← Option.toList_map, ← Option.toList_map, hroot]
  exact hparts.append_right _

end

/-! ### Files -/

/-- What is reported, in the order in which it is found. -/
theorem check_content_perm (s : Subject) : ((check s).map Diagnostic.content).Perm
    ((s.nodes.flatMap partObjects).map Diagnostic.content ++
      (match family? s.path with
        | some block => partAliases block (s.nodes.flatMap localExports) ++
          (rootAlias block (s.nodes.flatMap localExports)).toList
        | none => []).map Diagnostic.content) := by
  rw [← List.map_append]
  exact (List.mergeSort_perm _ _).map _

/-- From the nodes of a lowered file is collected what its statements give. -/
theorem collected_nodes {c : Cst} {β : Type} {collect : Node → List β}
    {ofName : Bool → Node → List β} (h : Collects collect ofName) :
    (Model.ofCst c).nodes.flatMap collect =
      (Program.ofCst c).root.children.flatMap (collected collect) := by
  rw [Model.nodes_ofCst]
  refine (collected_eq collect _).trans ?_
  rw [h.other _ rfl, List.nil_append]

/-- **The arrangement of exports does not matter.** In two files with one path, of which the
exports are arranged differently, the same findings are reported, each as often in the one as in the
other. About the parts of a family, one finding is reported for each part that is exported, but
never under its own name. About the root, one finding at most is reported, if a part is exported:
the root is not exported, or never as `Root`. -/
theorem contents_ignore_arrangement :
    (∀ (c c' : Cst) (s s' : Subject), s.model = .ofCst c → s'.model = .ofCst c' →
      s.path = s'.path →
      Rearranged (Program.ofCst c).root.children (Program.ofCst c').root.children →
      ((check s).map Diagnostic.content).Perm ((check s').map Diagnostic.content)) ∧
    ∀ block exports,
      ((partAliases block exports).map Diagnostic.content).Nodup ∧
      (∀ content, content ∈ (partAliases block exports).map Diagnostic.content ↔
        ∃ name part, Unaliased block exports name part ∧ content = partContent block name part) ∧
      ((partAliases block exports ++ (rootAlias block exports).toList).filter fun d =>
        d.id == "requireRootExport" || d.id == "requireRootAlias").length ≤ 1 ∧
      ∀ content, (rootAlias block exports).map Diagnostic.content = some content ↔
        (∃ e ∈ exports, (part? block e.localName).isSome = true) ∧
          ((∀ e ∈ exports, e.localName ≠ block) ∧
              content = ("requireRootExport", [("block", block)]) ∨
            (∃ e ∈ exports, e.localName = block) ∧
              (∀ e ∈ exports, e.localName = block → e.exported ≠ "Root") ∧
              content = ("requireRootAlias", [("block", block)])) := by
  refine ⟨fun c c' s s' hs hs' hpath hmoved => ?_, fun block exports => ⟨partAliases_content_nodup,
    fun _ => mem_partAliases_content_iff, rootFindings_length_le block exports,
    fun _ => rootAlias_content_eq_some_iff⟩⟩
  have hnames : ((s.nodes.flatMap localExports).map LocalExport.names).Perm
      ((s'.nodes.flatMap localExports).map LocalExport.names) := by
    rw [List.map_flatMap, List.map_flatMap, Subject.nodes, Subject.nodes, hs, hs',
      collected_nodes collects_names, collected_nodes collects_names]
    exact collects_names.perm_of_rearranged hmoved
  have hobjects : ((s.nodes.flatMap partObjects).map Diagnostic.content).Perm
      ((s'.nodes.flatMap partObjects).map Diagnostic.content) := by
    rw [List.map_flatMap, List.map_flatMap, Subject.nodes, Subject.nodes, hs, hs',
      collected_nodes collects_partObjects, collected_nodes collects_partObjects]
    exact collects_partObjects.perm_of_rearranged hmoved
  refine (check_content_perm s).trans (List.Perm.trans ?_ (check_content_perm s').symm)
  rw [hpath]
  refine hobjects.append ?_
  cases family? s'.path with
  | none => exact .nil
  | some block => exact family_content_perm hnames block

/-- The tree of `export { ButtonGroupItem, ButtonGroup };`, most tokens left out. -/
private def oneList : Cst :=
  ⟨"program", true, "", ⟨0, 40⟩, "", [
    ⟨"export_statement", true, "", ⟨0, 40⟩, "", [
      ⟨"export_clause", true, "", ⟨7, 39⟩, "", [
        ⟨"export_specifier", true, "", ⟨9, 24⟩, "", [
          ⟨"identifier", true, "name", ⟨9, 24⟩, "ButtonGroupItem", []⟩]⟩,
        ⟨"export_specifier", true, "", ⟨26, 37⟩, "", [
          ⟨"identifier", true, "name", ⟨26, 37⟩, "ButtonGroup", []⟩]⟩]⟩]⟩]⟩

/-- The tree of `export { ButtonGroup }; export { ButtonGroupItem };`, most tokens left out. -/
private def twoLists : Cst :=
  ⟨"program", true, "", ⟨0, 51⟩, "", [
    ⟨"export_statement", true, "", ⟨0, 23⟩, "", [
      ⟨"export_clause", true, "", ⟨7, 22⟩, "", [
        ⟨"export_specifier", true, "", ⟨9, 20⟩, "", [
          ⟨"identifier", true, "name", ⟨9, 20⟩, "ButtonGroup", []⟩]⟩]⟩]⟩,
    ⟨"export_statement", true, "", ⟨24, 51⟩, "", [
      ⟨"export_clause", true, "", ⟨31, 50⟩, "", [
        ⟨"export_specifier", true, "", ⟨33, 48⟩, "", [
          ⟨"identifier", true, "name", ⟨33, 48⟩, "ButtonGroupItem", []⟩]⟩]⟩]⟩]⟩

/-- The outline of a name in a list of exports. -/
private def listedName (name : String) : Node :=
  ⟨.specifier, 0, .exportSpecifier, ⟨0, 0⟩, [⟨.localName, 0, .moduleExportName name, ⟨0, 0⟩, []⟩]⟩

/-- The outline of a list of exports. -/
private def exportList (names : List String) : Node :=
  ⟨.statement, 0, .exportNamedDeclaration false false, ⟨0, 0⟩, names.map listedName⟩

private theorem isExportList_exportList (names : List String) :
    (exportList names).IsExportList where
  isNamedExport := rfl
  parts := by
    intro part hpart
    obtain ⟨name, -, rfl⟩ := List.mem_map.mp hpart
    exact Or.inl rfl

private theorem rearranged_lists :
    Rearranged (Program.ofCst oneList).root.children (Program.ofCst twoLists).root.children := by
  have hone : Rearranged (Program.ofCst oneList).root.children
      ([] ++ exportList ["ButtonGroupItem", "ButtonGroup"] :: []) := .outlines rfl
  have hperm : ((exportList ["ButtonGroupItem", "ButtonGroup"]).all .specifier).Perm
      [listedName "ButtonGroup", listedName "ButtonGroupItem"] := List.Perm.swap _ _ _
  have hswapped : Rearranged ([] ++ exportList ["ButtonGroupItem", "ButtonGroup"] :: [])
      ([] ++ exportList ["ButtonGroup", "ButtonGroupItem"] :: []) :=
    .names (isExportList_exportList _) hperm
  have hflatten : (exportList ["ButtonGroup", "ButtonGroupItem"]).all .specifier =
      [[listedName "ButtonGroup"], [listedName "ButtonGroupItem"]].flatten := rfl
  have hsplit : Rearranged ([] ++ exportList ["ButtonGroup", "ButtonGroupItem"] :: [])
      ([] ++ [exportList ["ButtonGroup"], exportList ["ButtonGroupItem"]] ++ []) :=
    .split (isExportList_exportList _) hflatten
  exact hone.trans (hswapped.trans (hsplit.trans (.outlines rfl)))

/-- A list of exports that is split and turned around is judged as before. -/
theorem split_list_is_judged_alike :
    ∃ s s' : Subject, s.model = .ofCst oneList ∧ s'.model = .ofCst twoLists ∧ s.path = s'.path ∧
      ((check s).map Diagnostic.content).Perm ((check s').map Diagnostic.content) ∧
      partContent "ButtonGroup" "ButtonGroupItem" "Item" ∈
        (check s').map Diagnostic.content := by
  let subject (c : Cst) : Subject :=
    ⟨"button-group.tsx", "", .ofCst c, ⟨.ofModel (.ofCst c), none⟩⟩
  refine ⟨subject oneList, subject twoLists, rfl, rfl, rfl, ?_,
    (check_content_perm _).mem_iff.mpr (by decide +kernel)⟩
  exact contents_ignore_arrangement.1 _ _ _ _ rfl rfl rfl rearranged_lists

end CompoundExport

end TsxLint
