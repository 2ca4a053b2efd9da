import TsxLint.Proofs.Binding.Resolution
import TsxLint.Proofs.Lowering.Plans
import TsxLint.Rule.Mutation

/-!
# Writes

An identifier is written if it is the target of an assignment or of a loop, the argument of an
update, or an element of a pattern in such a place, whatever parentheses and type wrappers stand
around it. The references of a file are marked as writes by a look at the nodes around them. This
file says which writes that finds: all but those of an identifier expression that stands in a
pattern, or in a target that is not said to be an identifier.

## Main definitions

* `Node.Targeted`: a node that stands where something is written.
* `Visit.IsWritten`: a visit to an identifier that is written.
* `Visit.IsOverlooked`: a write that is marked as a read.

## Main results

* `Node.targeted_iff_of_bindsNames`: names of a pattern are written where the pattern is assigned
  to.
* `Visit.access_isWrite_iff`: which identifier expressions are marked as writes.
* `Model.writes_found_unless_overlooked`: which references of a file are marked as writes, and what
  this means for variables that could be constants.
-/

namespace TsxLint

/-! ### Places that are written -/

/-- The roles under which a pattern or a part of one holds its elements. -/
def Kind.elementRoles : Kind → List Role
  | objectPattern => [.property, .rest]
  | bindingProperty _ => [.value]
  | arrayPattern _ => [.element, .rest]
  | assignmentPattern => [.left]
  | restElement => [.argument]
  | _ => []

/-- Whether a node is an update expression. -/
def Kind.isUpdate : Kind → Bool
  | updateExpression .. => true
  | _ => false

/-- Whether a node takes the identifier expressions that it holds for reads, whether it writes to
them or not: a pattern, or an assignment or a loop whose target is not said to be an identifier. -/
def Kind.overlooks : Kind → Bool
  | assignmentExpression _ form => form != .identifier
  | forInStatement _ _ (.assigns form) => form != .identifier
  | kind => kind.isPatternPart

/-- Whether a node is the name of a variable, in an expression or in a pattern. -/
def Kind.isVariable : Kind → Bool
  | identifierReference _ => true
  | bindingIdentifier _ => true
  | _ => false

namespace Kind

variable {kind : Kind} {role : Role}

theorem nameRoles?_of_isPatternPart (h : kind.isPatternPart = true) :
    kind.nameRoles? = some kind.elementRoles ∧ kind.targetRole? = none ∧ kind.isUpdate = false ∧
      kind.isWrapper = false := by
  unfold isPatternPart at h
  split at h
  · exact ⟨rfl, rfl, rfl, rfl⟩
  · exact ⟨rfl, rfl, rfl, rfl⟩
  · exact ⟨rfl, rfl, rfl, rfl⟩
  · exact ⟨rfl, rfl, rfl, rfl⟩
  · exact ⟨rfl, rfl, rfl, rfl⟩
  · cases h

theorem isPatternPart_of_mem_elementRoles (h : role ∈ kind.elementRoles) :
    kind.isPatternPart = true := by
  unfold elementRoles at h
  split at h
  · rfl
  · rfl
  · rfl
  · rfl
  · rfl
  · cases h

theorem nameRoles?_of_targetRole? (h : kind.targetRole? = some role) :
    kind.nameRoles? = some [role] ∧ kind.isAssigning = true ∧ kind.isUpdate = false ∧
      kind.isWrapper = false := by
  unfold targetRole? at h
  split at h
  · cases h
    exact ⟨rfl, rfl, rfl, rfl⟩
  · cases h
    exact ⟨rfl, rfl, rfl, rfl⟩
  · cases h

theorem exists_of_isAssigning (h : kind.isAssigning = true) :
    ∃ role, kind.targetRole? = some role := by
  unfold isAssigning at h
  split at h
  · exact ⟨_, rfl⟩
  · exact ⟨_, rfl⟩
  · cases h

theorem nameRoles?_of_isUpdate (h : kind.isUpdate = true) :
    kind.nameRoles? = some [] ∧ kind.isWrapper = false := by
  unfold isUpdate at h
  split at h
  · exact ⟨rfl, rfl⟩
  · cases h

theorem overlooks_of_isPatternPart (h : kind.isPatternPart = true) : kind.overlooks = true := by
  unfold isPatternPart at h
  split at h
  · rfl
  · rfl
  · rfl
  · rfl
  · rfl
  · cases h

theorem overlooks_of_isUpdate (h : kind.isUpdate = true) : kind.overlooks = false := by
  unfold isUpdate at h
  split at h
  · rfl
  · cases h

/-- Of the nodes that assign, those overlook nothing that say that their target is an identifier. -/
theorem overlooks_iff_of_targetRole? (h : kind.targetRole? = some role) :
    kind.overlooks = false ↔ kind.targetForm? = some .identifier := by
  unfold targetRole? at h
  split at h
  · simp [overlooks, targetForm?]
  · simp [overlooks, targetForm?]
  · cases h

theorem nameRoles?_of_isWrapper (h : kind.isWrapper = true) : kind.nameRoles? = some [] := by
  unfold isWrapper at h
  split at h
  · rfl
  · rfl
  · rfl
  · rfl
  · cases h

end Kind

/-- A node that stands where something is written, given the nodes around it: as the target of an
assignment or of a loop, as the argument of an update, inside a wrapper that does, or as an element
of a pattern that does. -/
inductive Node.Targeted : Node → List Node → Prop
  | assigned {n parent : Node} {outer : List Node} {role : Role}
      (hrole : parent.kind.targetRole? = some role) (hn : parent.get? role = some n) :
      Targeted n (parent :: outer)
  | updated {n parent : Node} {outer : List Node} (hparent : parent.kind.isUpdate = true)
      (hn : parent.get? .argument = some n) : Targeted n (parent :: outer)
  | wrapped {n parent : Node} {outer : List Node} (hparent : parent.kind.isWrapper = true)
      (hn : parent.get? .expression = some n) (houter : Targeted parent outer) :
      Targeted n (parent :: outer)
  | element {n parent : Node} {outer : List Node} (hn : n ∈ parent.children)
      (hrole : n.role ∈ parent.kind.elementRoles) (houter : Targeted parent outer) :
      Targeted n (parent :: outer)

/-- The visit is one to an identifier that is written. -/
def Visit.IsWritten (v : Visit) : Prop :=
  v.node.kind.isVariable = true ∧ v.node.Targeted v.ancestors

/-- The nearest node around a visit that is no wrapper. -/
def Visit.holder? (v : Visit) : Option Node := v.ancestors.find? fun n => !n.kind.isWrapper

/-- The visit is one to an identifier expression that is written, but is held, wrappers aside, by a
pattern, or by an assignment or a loop that does not say that its target is an identifier. -/
structure Visit.IsOverlooked (v : Visit) : Prop where
  isWritten : v.IsWritten
  isIdentifier : v.node.kind.isIdentifier = true
  overlooks : ∃ holder, v.holder? = some holder ∧ holder.kind.overlooks = true

namespace Node

/-- A node is the part that its parent has under a role if that part has its number. -/
theorem get?_eq_some_of_id {root : Node} (hids : (root.preorder.map Node.id).Nodup)
    {n p : Node} {outer : List Node} (h : (n, p :: outer) ∈ root.paths []) {role : Role}
    (hn : (p.get? role).any (·.id == n.id) = true) : p.get? role = some n := by
  obtain ⟨m, hm, hid⟩ := (Option.any_eq_true _ _).mp hn
  have hplace := child_mem_paths root (parent_mem_paths_root h).2 (List.mem_of_find?_eq_some hm)
  rw [hm, (eq_of_mem_paths hids hplace h (by simpa using hid)).1]

/-! ### Names of patterns -/

theorem bindsNames_of_isPatternPart {kind : Kind} (h : kind.isPatternPart = true) :
    kind.bindsNames = true := by
  unfold Kind.bindsNames
  split
  · rfl
  · exact h

/-- Names of a pattern are written exactly where the nearest node around them that is no pattern
assigns. -/
theorem targeted_iff_of_bindsNames {root : Node} (hconf : ∀ n ∈ root.preorder, n.Conforms)
    {n : Node} {outer : List Node} (h : (n, outer) ∈ root.paths [])
    (hbinds : n.kind.bindsNames = true) :
    n.Targeted outer ↔ ∃ owner, (outer.find? fun n => !n.kind.isPatternPart) = some owner ∧
      owner.kind.isAssigning = true := by
  induction outer generalizing n with
  | nil =>
    constructor
    · nofun
    · rintro ⟨owner, howner, -⟩
      cases howner
  | cons p outer ih =>
    obtain ⟨hn, hp⟩ := parent_mem_paths_root h
    have hp' := hconf p (mem_preorder_of_mem_paths hp)
    cases hpart : p.kind.isPatternPart with
    | true =>
      obtain ⟨hnames, htarget, hupdate, hwrapper⟩ := Kind.nameRoles?_of_isPatternPart hpart
      rw [List.find?_cons_of_neg (by simp [hpart]), ← ih hp (bindsNames_of_isPatternPart hpart)]
      constructor
      · rintro (⟨hrole, -⟩ | ⟨hparent, -⟩ | ⟨hparent, -, -⟩ | ⟨-, -, houter⟩)
        · simp [htarget] at hrole
        · simp [hupdate] at hparent
        · simp [hwrapper] at hparent
        · exact houter
      · exact .element hn (hp'.names _ hnames n hn hbinds)
    | false =>
      rw [List.find?_cons_of_pos (by simp [hpart])]
      simp only [Option.some.injEq, exists_eq_left']
      constructor
      · rintro (⟨hrole, -⟩ | ⟨hparent, -⟩ | ⟨hparent, -, -⟩ | ⟨-, hrole, -⟩)
        · exact (Kind.nameRoles?_of_targetRole? hrole).2.1
        -- Updates and wrappers hold no names of a pattern.
        · cases hp'.names _ (Kind.nameRoles?_of_isUpdate hparent).1 n hn hbinds
        · cases hp'.names _ (Kind.nameRoles?_of_isWrapper hparent) n hn hbinds
        · rw [Kind.isPatternPart_of_mem_elementRoles hrole] at hpart
          cases hpart
      · intro hassigning
        obtain ⟨role, hrole⟩ := Kind.exists_of_isAssigning hassigning
        have hmem := hp'.names _ (Kind.nameRoles?_of_targetRole? hrole).1 n hn hbinds
        exact .assigned hrole (hp'.target role hrole n hn (List.mem_singleton.mp hmem)).1

/-! ### Wrapped identifiers -/

theorem unwrapped_of_not_isWrapper {n : Node} (h : n.kind.isWrapper = false) : n.unwrapped = n := by
  fun_cases unwrapped n
  case case5 => rfl
  all_goals cases h

theorem unwrapped_of_isWrapper {n : Node} (h : n.kind.isWrapper = true) :
    n.unwrapped = unwrappedIn n n.children := by
  obtain ⟨role, id, kind, span, children⟩ := n
  cases kind
  case parenthesizedExpression => rw [unwrapped]
  case nonNullExpression => rw [unwrapped]
  case asExpression => rw [unwrapped]
  case satisfiesExpression => rw [unwrapped]
  all_goals cases h

theorem unwrappedIn_of_find? {w b : Node} {ns : List Node}
    (h : (ns.find? fun n => n.role == .expression) = some b) : unwrappedIn w ns = b.unwrapped := by
  induction ns with
  | nil => cases h
  | cons n ns ih =>
    rw [unwrappedIn]
    split_ifs with hrole
    · simp only [List.find?_cons, hrole, Option.some.injEq] at h
      rw [h]
    · simp only [List.find?_cons, hrole] at h
      exact ih h

/-- What stands inside a wrapper is what the wrapper stands for. -/
theorem unwrapped_of_get? {n b : Node} (h : n.kind.isWrapper = true)
    (hb : n.get? .expression = some b) : n.unwrapped = b.unwrapped := by
  rw [unwrapped_of_isWrapper h]
  exact unwrappedIn_of_find? hb

section

variable {root : Node}

mutual

/-- What a wrapper in a written place stands for is written. -/
theorem targeted_unwrapped : (n : Node) → {outer : List Node} → (n, outer) ∈ root.paths [] →
    n.Targeted outer →
    ∃ outer', (n.unwrapped, outer') ∈ root.paths [] ∧ n.unwrapped.Targeted outer'
  | ⟨role, id, kind, span, children⟩, outer, h, ht => by
    cases hkind : kind.isWrapper with
    | false =>
      rw [unwrapped_of_not_isWrapper hkind]
      exact ⟨outer, h, ht⟩
    | true =>
      rw [unwrapped_of_isWrapper hkind]
      refine targeted_unwrappedIn children (fun b hb => ?_) ⟨outer, h, ht⟩
      exact ⟨_, child_mem_paths root h (List.mem_of_find?_eq_some hb), .wrapped hkind hb ht⟩

theorem targeted_unwrappedIn {w : Node} : (ns : List Node) →
    (∀ b, (ns.find? fun n => n.role == .expression) = some b →
      ∃ outer, (b, outer) ∈ root.paths [] ∧ b.Targeted outer) →
    (∃ outer, (w, outer) ∈ root.paths [] ∧ w.Targeted outer) →
    ∃ outer, (unwrappedIn w ns, outer) ∈ root.paths [] ∧ (unwrappedIn w ns).Targeted outer
  | [], _, hw => by rwa [unwrappedIn]
  | n :: ns, hns, hw => by
    rw [unwrappedIn]
    split_ifs with hrole
    · obtain ⟨outer, h, ht⟩ := hns n (by simp only [List.find?_cons, hrole])
      exact targeted_unwrapped n h ht
    · refine targeted_unwrappedIn ns (fun b hb => hns b ?_) hw
      simpa only [List.find?_cons, hrole] using hb

end

/-- A node in a written place has, wrappers aside, a node around it that writes. -/
theorem exists_of_targeted {n : Node} {outer : List Node} (h : (n, outer) ∈ root.paths [])
    (ht : n.Targeted outer) :
    ∃ holder inner rest, (outer.find? fun n => !n.kind.isWrapper) = some holder ∧
      (inner, holder :: rest) ∈ root.paths [] ∧ inner.Targeted (holder :: rest) ∧
      inner.unwrapped = n.unwrapped ∧ (inner.kind.isWrapper = false → inner = n) := by
  induction outer generalizing n with
  | nil => cases ht
  | cons p outer ih =>
    cases hp : p.kind.isWrapper with
    | false =>
      exact ⟨p, n, outer, List.find?_cons_of_pos (by simp [hp]), h, ht, rfl, fun _ => rfl⟩
    | true =>
      rw [List.find?_cons_of_neg (by simp [hp])]
      rcases ht with ⟨hrole, -⟩ | ⟨hparent, -⟩ | ⟨-, hn, houter⟩ | ⟨-, hrole, -⟩
      · simp [(Kind.nameRoles?_of_targetRole? hrole).2.2.2] at hp
      · simp [(Kind.nameRoles?_of_isUpdate hparent).2] at hp
      · obtain ⟨holder, inner, rest, hholder, hinner, hti, hunwrapped, heq⟩ :=
          ih (parent_mem_paths_root h).2 houter
        refine ⟨holder, inner, rest, hholder, hinner, hti, ?_, ?_⟩
        · rw [hunwrapped, unwrapped_of_get? hp hn]
        · intro hi
          rw [heq hi, hp] at hi
          cases hi
      · have hpart := Kind.isPatternPart_of_mem_elementRoles hrole
        simp [(Kind.nameRoles?_of_isPatternPart hpart).2.2.2] at hp

end

end Node

/-! ### Marked writes -/

namespace Visit

/-- The access of an identifier expression writes if the node that holds it, wrappers aside, says
that its target is an identifier and has it as the target, or is an update of it. -/
theorem access_isWrite_iff_holder (v : Visit) : v.access.isWrite = true ↔
    ∃ holder, v.holder? = some holder ∧
      ((holder.kind.targetForm? = some .identifier ∧ ∃ role n, holder.kind.targetRole? = some role ∧
          holder.get? role = some n ∧ n.id = v.node.id) ∨
        (holder.kind.isUpdate = true ∧ ∃ n, holder.get? .argument = some n ∧
          n.unwrapped.id = v.node.id)) := by
  unfold access
  rw [← holder?]
  cases v.holder? with
  | none => simp [Access.read]
  | some holder =>
    simp only [Option.some.injEq, exists_eq_left']
    split
    case h_1 operator hk =>
      simp only [hk, Kind.targetForm?, Kind.targetRole?, Kind.isUpdate]
      split_ifs with htarget hoperator
      · simpa [Access.write, Option.any_eq_true] using htarget
      · simpa [Access.readWrite, Option.any_eq_true] using htarget
      · simpa [Access.read, Option.any_eq_true] using htarget
    case h_2 hk =>
      simp only [hk, Kind.targetForm?, Kind.targetRole?, Kind.isUpdate]
      split_ifs with hargument
      · simpa [Access.readWrite, Option.any_eq_true] using hargument
      · simpa [Access.read, Option.any_eq_true] using hargument
    case h_3 hk =>
      simp only [hk, Kind.targetForm?, Kind.targetRole?, Kind.isUpdate]
      split_ifs with htarget
      · simpa [Access.write, Option.any_eq_true] using htarget
      · simpa [Access.read, Option.any_eq_true] using htarget
    case h_4 hassignment hupdate hloop =>
      constructor
      · intro h
        cases h
      · rintro (⟨hform, -⟩ | ⟨hisUpdate, -⟩)
        · unfold Kind.targetForm? at hform
          split at hform
          · cases hform
            rename_i hk
            exact absurd hk (hassignment _)
          · cases hform
            rename_i hk
            exact absurd hk (hloop _ _)
          · cases hform
        · unfold Kind.isUpdate at hisUpdate
          split at hisUpdate
          · rename_i hk
            exact absurd hk (hupdate _ _)
          · cases hisUpdate

theorem isVariable_of_isIdentifier {kind : Kind} (h : kind.isIdentifier = true) :
    kind.isVariable = true ∧ kind.isWrapper = false := by
  unfold Kind.isIdentifier at h
  split at h
  · exact ⟨rfl, rfl⟩
  · cases h

/-- Only identifier expressions and names of a pattern make writes. -/
theorem isWrite_of_use? {v : Visit} {name : String} {access : Access}
    (huse : v.use? [] = some (name, access)) (hwrite : access.isWrite = true) :
    v.node.kind.isIdentifier = true ∧ v.access.isWrite = true ∨
      v.node.kind = .bindingIdentifier name ∧ v.binderUse [] = .writes := by
  unfold use? at huse
  split at huse
  · rename_i hk
    split at huse
    · rename_i hwrites
      cases huse
      exact Or.inr ⟨hk, hwrites⟩
    · cases huse
  · rename_i hk
    cases huse
    exact Or.inl ⟨by rw [hk]; rfl, hwrite⟩
  · split at huse
    · split_ifs at huse
      cases huse
      cases hwrite
    · cases huse
  · obtain ⟨root, -, heq⟩ := Option.map_eq_some_iff.mp huse
    cases heq
    cases hwrite
  · cases huse

theorem mem_ancestors_of_holder? {v : Visit} {holder : Node} (h : v.holder? = some holder) :
    holder ∈ v.ancestors ∧ holder.kind.isWrapper = false :=
  ⟨List.mem_of_find?_eq_some h, by simpa using List.find?_some h⟩

section

variable {root : Node} (hids : (root.preorder.map Node.id).Nodup)
  (hconf : ∀ n ∈ root.preorder, n.Conforms)

include hids in
/-- What is marked as a write of an identifier expression is one, and is not overlooked. -/
theorem isWritten_of_access_isWrite {v : Visit} (hv : v.place ∈ root.paths [])
    (hkind : v.node.kind.isIdentifier = true) (h : v.access.isWrite = true) :
    v.IsWritten ∧ ¬ v.IsOverlooked := by
  have hvariable : v.node.kind.isVariable = true := (isVariable_of_isIdentifier hkind).1
  obtain ⟨holder, hholder, hwrite⟩ := (access_isWrite_iff_holder v).mp h
  obtain ⟨rest, hrest⟩ := Node.exists_mem_paths_of_mem hv (mem_ancestors_of_holder? hholder).1
  rcases hwrite with ⟨hform, role, n, hrole, hn, hid⟩ | ⟨hupdate, n, hn, hid⟩
  · have hplace := Node.child_mem_paths root hrest (List.mem_of_find?_eq_some hn)
    obtain ⟨rfl, hancestors⟩ := Node.eq_of_mem_paths hids hplace hv hid
    refine ⟨⟨hvariable, ?_⟩, ?_⟩
    · rw [← hancestors]
      exact .assigned hrole hn
    · rintro ⟨-, -, holder', hholder', hoverlooks⟩
      rw [hholder, Option.some.injEq] at hholder'
      rw [← hholder', (Kind.overlooks_iff_of_targetRole? hrole).mpr hform] at hoverlooks
      cases hoverlooks
  · have hplace := Node.child_mem_paths root hrest (List.mem_of_find?_eq_some hn)
    obtain ⟨outer, houter, htargeted⟩ := Node.targeted_unwrapped n hplace (.updated hupdate hn)
    obtain ⟨hnode, hancestors⟩ := Node.eq_of_mem_paths hids houter hv hid
    refine ⟨⟨hvariable, ?_⟩, ?_⟩
    · rw [hnode, hancestors] at htargeted
      exact htargeted
    · rintro ⟨-, -, holder', hholder', hoverlooks⟩
      rw [hholder, Option.some.injEq] at hholder'
      rw [← hholder', Kind.overlooks_of_isUpdate hupdate] at hoverlooks
      cases hoverlooks

include hconf in
/-- A write of an identifier expression that is not overlooked is marked as one. -/
theorem access_isWrite_of_isWritten {v : Visit} (hv : v.place ∈ root.paths [])
    (hkind : v.node.kind.isIdentifier = true) (hwritten : v.IsWritten) (h : ¬ v.IsOverlooked) :
    v.access.isWrite = true := by
  obtain ⟨holder, inner, rest, hholder, hinner, htargeted, hunwrapped, heq⟩ :=
    Node.exists_of_targeted hv hwritten.2
  obtain ⟨hchild, hplace⟩ := Node.parent_mem_paths_root hinner
  have hoverlooks : holder.kind.overlooks = false := by
    rw [← Bool.not_eq_true]
    exact fun ho => h ⟨hwritten, hkind, holder, hholder, ho⟩
  rw [access_isWrite_iff_holder]
  refine ⟨holder, hholder, ?_⟩
  cases htargeted with
  | @assigned _ _ _ role hrole hn =>
    have hform := (Kind.overlooks_iff_of_targetRole? hrole).mp hoverlooks
    have hheld : inner.role = role := by simpa using List.find?_some hn
    have hconforms := hconf holder (Node.mem_preorder_of_mem_paths hplace)
    -- The target is an identifier, so no wrapper stands between it and the assignment.
    have hidentifier := (hconforms.target role hrole inner hchild hheld).2 hform
    refine Or.inl ⟨hform, role, inner, hrole, hn, ?_⟩
    rw [heq (isVariable_of_isIdentifier hidentifier).2]
  | updated hupdate hn =>
    refine Or.inr ⟨hupdate, inner, hn, ?_⟩
    rw [hunwrapped, Node.unwrapped_of_not_isWrapper (isVariable_of_isIdentifier hkind).2]
  | wrapped hwrapper hn houter =>
    rw [(mem_ancestors_of_holder? hholder).2] at hwrapper
    cases hwrapper
  | element hn hrole houter =>
    have hpart := Kind.isPatternPart_of_mem_elementRoles hrole
    rw [Kind.overlooks_of_isPatternPart hpart] at hoverlooks
    cases hoverlooks

include hconf in
/-- A name of a pattern is marked as a write exactly where it is written. -/
theorem binderUse_eq_writes_iff_isWritten {v : Visit} (hv : v.place ∈ root.paths []) {name : String}
    (hk : v.node.kind = .bindingIdentifier name) : v.binderUse [] = .writes ↔ v.IsWritten := by
  have hbinds : v.node.kind.bindsNames = true := by rw [hk]; rfl
  have hvariable : v.node.kind.isVariable = true := by rw [hk]; rfl
  rw [binderUse_eq_writes_iff, ← Node.targeted_iff_of_bindsNames hconf hv hbinds, IsWritten,
    and_iff_right hvariable]

include hids hconf in
/-- A visit makes a write exactly if it is one to an identifier that is written and not
overlooked. -/
theorem use?_isWrite_iff {v : Visit} (hv : v.place ∈ root.paths []) :
    (∃ name access, v.use? [] = some (name, access) ∧ access.isWrite = true) ↔
      v.IsWritten ∧ ¬ v.IsOverlooked := by
  constructor
  · rintro ⟨name, access, huse, hwrite⟩
    rcases isWrite_of_use? huse hwrite with ⟨hidentifier, haccess⟩ | ⟨hk, huse⟩
    · exact isWritten_of_access_isWrite hids hv hidentifier haccess
    · refine ⟨(binderUse_eq_writes_iff_isWritten hconf hv hk).mp huse, ?_⟩
      rintro ⟨-, hidentifier, -⟩
      rw [hk] at hidentifier
      cases hidentifier
  · rintro ⟨hwritten, hoverlooked⟩
    have hvariable := hwritten.1
    unfold Kind.isVariable at hvariable
    split at hvariable
    · rename_i name hk
      have hidentifier : v.node.kind.isIdentifier = true := by rw [hk]; rfl
      refine ⟨name, v.access, by simp only [use?, hk], ?_⟩
      exact access_isWrite_of_isWritten hconf hv hidentifier hwritten hoverlooked
    · rename_i name hk
      have huse := (binderUse_eq_writes_iff_isWritten hconf hv hk).mpr hwritten
      exact ⟨name, .write, by simp only [use?, hk, huse], rfl⟩
    · cases hvariable

end

end Visit

/-! ### Writes in a file -/

namespace Model

variable {c : Cst}

/-- The references at a node are marked as writes exactly if the node is written and not
overlooked. -/
theorem referenceAt?_isWrite_iff {v : Visit} (hv : v ∈ (ofCst c).visits) :
    (∃ r, (ofCst c).referenceAt? v.node.id = some r ∧ r.access.isWrite = true) ↔
      v.IsWritten ∧ ¬ v.IsOverlooked := by
  rw [← Visit.use?_isWrite_iff (Program.ofCst_nodup c) (Program.ofCst_conforms c)
    (place_mem_of_mem_visits hv)]
  constructor
  · rintro ⟨r, hr, hwrite⟩
    obtain ⟨hmem, hnode⟩ := mem_of_referenceAt? hr
    obtain ⟨v', hv', hid, -, huse, -⟩ := exists_visit_of_mem hmem
    obtain rfl : v' = v := List.inj_on_of_nodup_map (visits_nodup c) hv' hv (hid.trans hnode)
    exact ⟨r.name, r.access, huse, hwrite⟩
  · rintro ⟨name, access, huse, hwrite⟩
    obtain ⟨r, hr, hnode, -, haccess⟩ := exists_mem_of_use? hv huse
    obtain ⟨i, hi⟩ := List.getElem?_of_mem hr
    refine ⟨r, ?_, haccess ▸ hwrite⟩
    rw [← hnode]
    exact referenceAt?_of_getElem? hi

/-- A symbol has a reference that is marked as a write exactly if an identifier that stands for it
is written and not overlooked. -/
theorem referencesTo_any_isWrite_iff {k : Nat} :
    ((ofCst c).referencesTo k).any (·.access.isWrite) = true ↔
      ∃ v ∈ (ofCst c).visits, (ofCst c).resolve? v.node.id = some k ∧
        v.IsWritten ∧ ¬ v.IsOverlooked := by
  rw [List.any_eq_true]
  constructor
  · rintro ⟨r, hr, hwrite⟩
    obtain ⟨hmem, hk⟩ := mem_referencesTo.mp hr
    obtain ⟨i, hi⟩ := List.getElem?_of_mem hmem
    have hat := referenceAt?_of_getElem? hi
    obtain ⟨v, hv, hid, -, -, -⟩ := exists_visit_of_mem hmem
    rw [← hid] at hat
    refine ⟨v, hv, ?_, (referenceAt?_isWrite_iff hv).mp ⟨r, hat, hwrite⟩⟩
    rw [resolve?, hat, Option.bind_some, hk]
  · rintro ⟨v, hv, hk, hwritten⟩
    obtain ⟨r, hat, hwrite⟩ := (referenceAt?_isWrite_iff hv).mpr hwritten
    rw [resolve?, hat, Option.bind_some] at hk
    exact ⟨r, mem_referencesTo.mpr ⟨(mem_of_referenceAt? hat).1, hk⟩, hwrite⟩

/-- A declared name counts as never written exactly if all its writes are overlooked. -/
theorem neverWritten_iff {binder : Node} :
    PreferConst.neverWritten (ofCst c) binder = true ↔
      ∃ k, (ofCst c).symbolForBinding? binder.id = some k ∧
        ∀ v ∈ (ofCst c).visits, (ofCst c).resolve? v.node.id = some k → v.IsWritten →
          v.IsOverlooked := by
  rw [PreferConst.neverWritten, Option.any_eq_true]
  refine exists_congr fun k => and_congr_right fun _ => ?_
  rw [Bool.not_eq_true', ← Bool.not_eq_true, referencesTo_any_isWrite_iff]
  constructor
  · intro h v hv hk hwritten
    by_contra hoverlooked
    exact h ⟨v, hv, hk, hwritten, hoverlooked⟩
  · rintro h ⟨v, hv, hk, hwritten, hoverlooked⟩
    exact hoverlooked (h v hv hk hwritten)

/-- A variable is reported as a constant only if it counts as never written. -/
theorem neverWritten_of_mem_check {s : Subject} {d : Diagnostic} (hd : d ∈ PreferConst.check s) :
    ∃ binder, d = ⟨binder.span, "useConst", [("name", binder.label)]⟩ ∧
      PreferConst.neverWritten s.model binder = true := by
  obtain ⟨binder, hbinder, rfl⟩ := List.mem_map.mp hd
  obtain ⟨pattern, -, hmem⟩ := List.mem_flatMap.mp hbinder
  refine ⟨binder, rfl, ?_⟩
  unfold PreferConst.constants at hmem
  split_ifs at hmem with hall
  · exact List.all_eq_true.mp hall binder hmem
  · cases hmem

/-- **Writes are found unless they are overlooked.** In the model of a lowered file an identifier
has a reference that is marked as a write exactly if it is written and not overlooked. So a variable
counts as never written exactly if all its writes are overlooked, and only such a variable is
reported as a constant. -/
theorem writes_found_unless_overlooked (c : Cst) :
    (∀ v ∈ (ofCst c).visits,
      (∃ r, (ofCst c).referenceAt? v.node.id = some r ∧ r.access.isWrite = true) ↔
        v.IsWritten ∧ ¬ v.IsOverlooked) ∧
    (∀ binder, PreferConst.neverWritten (ofCst c) binder = true ↔
      ∃ k, (ofCst c).symbolForBinding? binder.id = some k ∧
        ∀ v ∈ (ofCst c).visits, (ofCst c).resolve? v.node.id = some k → v.IsWritten →
          v.IsOverlooked) ∧
    (∀ s : Subject, s.model = ofCst c → ∀ d ∈ PreferConst.check s, ∃ binder,
      d = ⟨binder.span, "useConst", [("name", binder.label)]⟩ ∧
        PreferConst.neverWritten (ofCst c) binder = true) := by
  refine ⟨fun v hv => referenceAt?_isWrite_iff hv, fun binder => neverWritten_iff, ?_⟩
  intro s hs d hd
  obtain ⟨binder, hbinder, hnever⟩ := neverWritten_of_mem_check hd
  exact ⟨binder, hbinder, hs ▸ hnever⟩

/-- The tree of `let a = 1; (a as any) = 2;`, most tokens left out. -/
private def wrappedAssignment : Cst :=
  ⟨"program", true, "", ⟨0, 26⟩, "let a = 1; (a as any) = 2;", [
    ⟨"lexical_declaration", true, "", ⟨0, 10⟩, "let a = 1;", [
      ⟨"let", false, "kind", ⟨0, 3⟩, "let", []⟩,
      ⟨"variable_declarator", true, "", ⟨4, 9⟩, "a = 1", [
        ⟨"identifier", true, "name", ⟨4, 5⟩, "a", []⟩,
        ⟨"number", true, "value", ⟨8, 9⟩, "1", []⟩]⟩]⟩,
    ⟨"expression_statement", true, "", ⟨11, 26⟩, "(a as any) = 2;", [
      ⟨"assignment_expression", true, "", ⟨11, 25⟩, "(a as any) = 2", [
        ⟨"parenthesized_expression", true, "left", ⟨11, 21⟩, "(a as any)", [
          ⟨"as_expression", true, "", ⟨12, 20⟩, "a as any", [
            ⟨"identifier", true, "", ⟨12, 13⟩, "a", []⟩,
            ⟨"predefined_type", true, "", ⟨17, 20⟩, "any", []⟩]⟩]⟩,
        ⟨"number", true, "right", ⟨24, 25⟩, "2", []⟩]⟩]⟩]⟩

/-- An assignment through a wrapper is overlooked: the identifier is written, no reference is marked
as a write, and the variable is reported as a constant. -/
theorem wrapped_assignment_is_overlooked :
    (∃ v ∈ (ofCst wrappedAssignment).visits, v.IsWritten ∧ v.node.span = ⟨12, 13⟩) ∧
    (∀ r ∈ (ofCst wrappedAssignment).references, r.access.isWrite = false) ∧
    PreferConst.check (.ofFile ⟨"a.ts", "let a = 1; (a as any) = 2;", .ts, ofCst wrappedAssignment,
      ⟨[0]⟩⟩ none) = [⟨⟨4, 5⟩, "useConst", [("name", "a")]⟩] := by
  refine ⟨?_, by decide +kernel, by decide +kernel⟩
  obtain ⟨v, hv, hvariable, hspan, p, hp, q, hq, hwrapper, hn, htarget, hpq⟩ :
      ∃ v ∈ (ofCst wrappedAssignment).visits, v.node.kind.isVariable = true ∧
        v.node.span = ⟨12, 13⟩ ∧ ∃ p ∈ v.ancestors[0]?, ∃ q ∈ v.ancestors[1]?,
        p.kind.isWrapper = true ∧ (p.get? .expression).any (·.id == v.node.id) = true ∧
        q.kind.targetRole? = some .target ∧ (q.get? .target).any (·.id == p.id) = true := by
    decide +kernel
  obtain ⟨rest, hancestors⟩ : ∃ rest, v.ancestors = p :: q :: rest := by
    rcases hcases : v.ancestors with _ | ⟨p', _ | ⟨q', rest⟩⟩
    · simp [hcases] at hp
    · simp [hcases] at hq
    · rw [hcases] at hp hq
      exact ⟨rest, by rw [Option.some.inj hp, Option.some.inj hq]⟩
  have hplace := place_mem_of_mem_visits hv
  rw [Visit.place, hancestors] at hplace
  have hids := Program.ofCst_nodup wrappedAssignment
  refine ⟨v, hv, ⟨hvariable, ?_⟩, hspan⟩
  rw [hancestors]
  refine .wrapped hwrapper (Node.get?_eq_some_of_id hids hplace hn) (.assigned htarget ?_)
  exact Node.get?_eq_some_of_id hids (Node.parent_mem_paths_root hplace).2 hpq

end Model

end TsxLint
