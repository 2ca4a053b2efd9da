import Mathlib.Data.List.TakeWhile
import Mathlib.Data.Set.List
import Mathlib.Data.String.Basic
import TsxLint.Component.Markup
import TsxLint.Proofs.Binding.Shadowing
import TsxLint.Proofs.Data.FirstOccurrences
import TsxLint.Proofs.Lowering.Sorts
import TsxLint.Proofs.Rule.Places

/-!
# Forwarded props

A component forwards a prop if it uses it, and only to hand it on unchanged: to a plainly named
attribute, or with a spread attribute. The search classifies one use after the other by the nodes
around it and gives up at the first one that keeps the prop. What it finds is said here without the
search: which bindings are forwarded, which attributes and components they reach, and which uses
are theirs.

## Main definitions

* `Model.HandsOn`, `Model.Receives`: a use that hands its name on, and the component that gets it.
* `Model.OnlyHandsOn`: a binding that is used, and only to be handed on.

## Main results

* `Model.propUse_eq_forwarded_iff`: how a use is classified.
* `Model.forwardedProp?_eq_some_iff`: when a binding is forwarded, and what is listed for it.
* `Model.references_of_propBinding`: the uses of a binding.
* `Model.forwarded_props_are_only_handed_on`: all of it for the components of a lowered file.
-/

namespace TsxLint

/-! ### Uses -/

/-- Whether a node is a pair of parentheses around an expression. -/
def Node.isParenthesized (n : Node) : Bool :=
  match n.kind with
  | .parenthesizedExpression => true
  | _ => false

namespace PropUse

/-- The target that a use hands its name on to. -/
def target? : PropUse → Option String
  | forwarded target _ => some target
  | owned => none

/-- The component that a use hands its name on to. -/
def component? : PropUse → Option String
  | forwarded _ component => component
  | owned => none

end PropUse

theorem dropWhile_isParenthesized_eq_cons_iff {around outer : List Node} {n : Node} :
    around.dropWhile Node.isParenthesized = n :: outer ↔
      n.isParenthesized = false ∧ ∃ parens, around = parens ++ n :: outer ∧
        ∀ p ∈ parens, p.isParenthesized = true := by
  constructor
  · intro h
    have hsplit := List.takeWhile_append_dropWhile (p := Node.isParenthesized) (l := around)
    rw [h] at hsplit
    have hhead := List.head?_dropWhile_not Node.isParenthesized around
    rw [h] at hhead
    exact ⟨by simpa using hhead, _, hsplit.symm, fun p hp => List.mem_takeWhile_imp hp⟩
  · rintro ⟨hn, parens, rfl, hparens⟩
    rw [List.dropWhile_append_of_pos hparens, List.dropWhile_cons_of_neg (by simp [hn])]

theorem Kind.isPatternPart_of_isParam {kind : Kind} (h : kind.isParam = true) :
    kind.isPatternPart = false := by
  cases kind <;> first | rfl | cases h

theorem Node.isPatternPart_of_isFunctionLike {n : Node} (h : n.isFunctionLike = true) :
    n.kind.isPatternPart = false := by
  unfold Node.isFunctionLike at h
  split at h
  · simp [Kind.isPatternPart, *]
  · simp [Kind.isPatternPart, *]
  · cases h

namespace Model

/-- The use at a node hands its name on: around it, parentheses left out, is an expression container
directly in a plainly named attribute, or a spread attribute. It is handed on under the name of the
attribute, and to what is around the attribute. -/
inductive HandsOn (m : Model) (use : Nat) : String → List Node → Prop
  | value {parens outer : List Node} {container holder name : Node} {target : String}
      (haround : m.ancestors use = parens ++ container :: holder :: outer)
      (hparens : ∀ p ∈ parens, p.isParenthesized = true)
      (hcontainer : container.kind = .jsxExpressionContainer)
      (hholder : holder.kind = .jsxAttribute) (hname : holder.get? .name = some name)
      (hplain : name.kind = .jsxIdentifier target) : HandsOn m use target outer
  | spread {parens outer : List Node} {holder : Node}
      (haround : m.ancestors use = parens ++ holder :: outer)
      (hparens : ∀ p ∈ parens, p.isParenthesized = true)
      (hholder : holder.kind = .jsxSpreadAttribute) : HandsOn m use "props spread" outer

/-- The use at a node is handed on to the component that the opening element around the attribute
names. -/
def Receives (m : Model) (use : Nat) (component : String) : Prop :=
  ∃ target opening outer, m.HandsOn use target (opening :: outer) ∧
    opening.kind = .jsxOpeningElement ∧ opening.customElement? = some component

/-- The component that what is around an attribute renders. -/
def receiverIn? (outer : List Node) : Option String :=
  outer.head?.bind fun opening =>
    match opening.kind with
    | .jsxOpeningElement => opening.customElement?
    | _ => none

/-- The target that the use at a node is handed on to. -/
def target? (m : Model) (use : Nat) : Option String := (m.propUse use).target?

/-- The component that the use at a node is handed on to. -/
def receiver? (m : Model) (use : Nat) : Option String := (m.propUse use).component?

variable {m : Model} {use : Nat} {target : String} {component : Option String}

/-- A use is classified by what it hands its name on to. -/
theorem propUse_eq_forwarded_iff :
    m.propUse use = .forwarded target component ↔
      ∃ outer, m.HandsOn use target outer ∧ component = receiverIn? outer := by
  constructor
  · intro h
    unfold propUse at h
    dsimp only at h
    split at h
    · cases h
    · rename_i n outer hdrop
      obtain ⟨-, parens, haround, hparens⟩ := dropWhile_isParenthesized_eq_cons_iff.mp hdrop
      split at h
      · rename_i hcontainer
        split at h
        · cases h
        · split at h
          · rename_i hholder hname
            obtain ⟨name, hfound, hplain⟩ := Option.map_eq_some_iff.mp hname
            cases h
            exact ⟨_, .value haround hparens hcontainer hholder hfound hplain, rfl⟩
          · cases h
      · rename_i hholder
        cases h
        exact ⟨_, .spread haround hparens hholder, rfl⟩
      · cases h
  · rintro ⟨outer, hhands, rfl⟩
    unfold propUse
    dsimp only
    cases hhands with
    | value haround hparens hcontainer hholder hname hplain =>
      have hdrop := dropWhile_isParenthesized_eq_cons_iff.mpr
        ⟨by simp [Node.isParenthesized, hcontainer], _, haround, hparens⟩
      split
      · exact absurd (hdrop.symm.trans ‹_›) (List.cons_ne_nil _ _)
      · obtain ⟨rfl, rfl⟩ := List.cons.inj (hdrop.symm.trans ‹_›)
        simp only [hcontainer, hholder, hname, hplain, Option.map_some]
        rfl
    | spread haround hparens hholder =>
      have hdrop := dropWhile_isParenthesized_eq_cons_iff.mpr
        ⟨by simp [Node.isParenthesized, hholder], _, haround, hparens⟩
      split
      · exact absurd (hdrop.symm.trans ‹_›) (List.cons_ne_nil _ _)
      · obtain ⟨rfl, rfl⟩ := List.cons.inj (hdrop.symm.trans ‹_›)
        simp only [hholder]
        rfl

theorem receiverIn?_eq_some_iff {outer : List Node} {component : String} :
    receiverIn? outer = some component ↔ ∃ opening rest, outer = opening :: rest ∧
      opening.kind = .jsxOpeningElement ∧ opening.customElement? = some component := by
  cases outer with
  | nil => simp [receiverIn?]
  | cons opening rest =>
    simp only [receiverIn?, List.head?_cons, Option.bind_some]
    constructor
    · intro h
      split at h
      · exact ⟨opening, rest, rfl, ‹_›, h⟩
      · cases h
    · rintro ⟨_, _, heq, hkind, h⟩
      obtain ⟨rfl, rfl⟩ := List.cons.inj heq
      rw [hkind]
      exact h

theorem target?_eq_some_iff :
    m.target? use = some target ↔ ∃ outer, m.HandsOn use target outer := by
  have huse : m.target? use = some target ↔
      ∃ component, m.propUse use = .forwarded target component := by
    unfold target?
    cases m.propUse use <;> simp [PropUse.target?]
  rw [huse]
  constructor
  · rintro ⟨component, h⟩
    obtain ⟨outer, hhands, -⟩ := propUse_eq_forwarded_iff.mp h
    exact ⟨outer, hhands⟩
  · rintro ⟨outer, hhands⟩
    exact ⟨_, propUse_eq_forwarded_iff.mpr ⟨outer, hhands, rfl⟩⟩

theorem receiver?_eq_some_iff {component : String} :
    m.receiver? use = some component ↔ m.Receives use component := by
  have huse : m.receiver? use = some component ↔
      ∃ target, m.propUse use = .forwarded target (some component) := by
    unfold receiver?
    cases m.propUse use <;> simp [PropUse.component?]
  rw [huse]
  constructor
  · rintro ⟨target, h⟩
    obtain ⟨outer, hhands, hreceiver⟩ := propUse_eq_forwarded_iff.mp h
    obtain ⟨opening, rest, rfl, hkind, hcustom⟩ := receiverIn?_eq_some_iff.mp hreceiver.symm
    exact ⟨target, opening, rest, hhands, hkind, hcustom⟩
  · rintro ⟨target, opening, rest, hhands, hkind, hcustom⟩
    have hreceiver := receiverIn?_eq_some_iff.mpr ⟨opening, rest, rfl, hkind, hcustom⟩
    exact ⟨target, propUse_eq_forwarded_iff.mpr ⟨_, hhands, hreceiver.symm⟩⟩

end Model

/-! ### Lists of targets -/

theorem mem_sortedDistinct {texts : List String} {text : String} :
    text ∈ sortedDistinct texts ↔ text ∈ texts := by
  rw [sortedDistinct, List.mem_mergeSort, ComponentGraph.mem_dedup]

theorem sortedDistinct_sorted (texts : List String) :
    (sortedDistinct texts).Pairwise (· < ·) := by
  have hle (a b : String) : (!decide (b < a)) = true ↔ a ≤ b := by
    rw [Bool.not_eq_true', decide_eq_false_iff_not, not_lt]
  have hsorted : (sortedDistinct texts).Pairwise fun a b => (!decide (b < a)) = true := by
    refine List.pairwise_mergeSort (fun a b c hab hbc => ?_) (fun a b => ?_) _
    · exact (hle a c).mpr (((hle a b).mp hab).trans ((hle b c).mp hbc))
    · rw [Bool.or_eq_true, hle, hle]
      exact le_total a b
  have hnodup : (sortedDistinct texts).Nodup :=
    (List.mergeSort_perm _ _).nodup_iff.mpr (ComponentGraph.dedup_listsFirsts texts).nodup
  exact hsorted.imp₂ (fun a b hab hne => lt_of_le_of_ne ((hle a b).mp hab) hne) hnodup

/-! ### Bindings -/

theorem forwardedUses_cons_owned (uses : List PropUse) :
    forwardedUses (.owned :: uses) = none := by
  rw [forwardedUses, List.mapM_cons]
  rfl

theorem forwardedUses_cons_forwarded (target : String) (component : Option String)
    (uses : List PropUse) : forwardedUses (.forwarded target component :: uses) =
      (forwardedUses uses).map ((target, component) :: ·) := by
  rw [forwardedUses, List.mapM_cons, ← forwardedUses]
  cases forwardedUses uses <;> rfl

/-- The uses are all handed on exactly if a list says to what. -/
theorem forwardedUses_eq_some_iff {uses : List PropUse} {given : List (String × Option String)} :
    forwardedUses uses = some given ↔ uses = given.map fun g => .forwarded g.1 g.2 := by
  induction uses generalizing given with
  | nil =>
    rw [eq_comm (a := []), List.map_eq_nil_iff, eq_comm (a := given)]
    exact Option.some_inj
  | cons use uses ih =>
    cases use with
    | owned =>
      rw [forwardedUses_cons_owned]
      cases given <;> simp
    | forwarded target component =>
      rw [forwardedUses_cons_forwarded, Option.map_eq_some_iff]
      constructor
      · rintro ⟨rest, hrest, rfl⟩
        rw [ih.mp hrest, List.map_cons]
      · intro h
        obtain ⟨g, rest, rfl, hg, hrest⟩ := List.map_eq_cons_iff.mp h.symm
        obtain ⟨rfl, rfl⟩ := PropUse.forwarded.inj hg
        exact ⟨rest, ih.mpr hrest.symm, rfl⟩

namespace Model

/-- A binding of a prop other than `children`, or of the rest, whose symbol is used, and every time
to be handed on. -/
structure OnlyHandsOn (m : Model) (binding : PropBinding) (k : Nat) : Prop where
  counts : ¬ (binding.isRest = false ∧ binding.prop = "children")
  declares : m.symbolForBinding? binding.binder.id = some k
  used : m.referencesTo k ≠ []
  handsOn : ∀ r ∈ m.referencesTo k, ∃ target outer, m.HandsOn r.node target outer

/-- What is found for a binding. -/
def forwardedProp? (m : Model) (binding : PropBinding) : Option ForwardedProp :=
  if !binding.isRest && binding.prop == "children" then none
  else
    (m.symbolForBinding? binding.binder.id).bind fun symbol =>
      let references := m.referencesTo symbol
      if references.isEmpty then none
      else
        (forwardedUses (references.map fun r => m.propUse r.node)).map fun uses =>
          ⟨binding, sortedDistinct (uses.map Prod.fst),
            ComponentGraph.dedup (uses.filterMap Prod.snd)⟩

theorem forwardedProps_eq (m : Model) (f : NamedFunction) (includeRest : Bool) :
    m.forwardedProps f includeRest =
      (propBindings f.params includeRest).filterMap m.forwardedProp? := rfl

variable {m : Model} {binding : PropBinding} {prop : ForwardedProp}

theorem exists_forwardedUses_iff {references : List Reference} :
    (∃ given, forwardedUses (references.map fun r => m.propUse r.node) = some given) ↔
      ∀ r ∈ references, ∃ target outer, m.HandsOn r.node target outer := by
  have huse (r : Reference) : (∃ g : String × Option String,
      .forwarded g.1 g.2 = m.propUse r.node) ↔ ∃ target outer, m.HandsOn r.node target outer := by
    constructor
    · rintro ⟨g, hg⟩
      obtain ⟨outer, hhands, -⟩ := propUse_eq_forwarded_iff.mp hg.symm
      exact ⟨_, outer, hhands⟩
    · rintro ⟨target, outer, hhands⟩
      exact ⟨(target, _), (propUse_eq_forwarded_iff.mpr ⟨outer, hhands, rfl⟩).symm⟩
  simp only [forwardedUses_eq_some_iff, ← huse]
  constructor
  · rintro ⟨given, hgiven⟩ r hr
    have hmem : m.propUse r.node ∈ given.map fun g => .forwarded g.1 g.2 :=
      hgiven ▸ List.mem_map_of_mem hr
    obtain ⟨g, -, hg⟩ := List.mem_map.mp hmem
    exact ⟨g, hg⟩
  · intro hall
    have hrange : (references.map fun r => m.propUse r.node) ∈ Set.range
        (List.map fun g : String × Option String => PropUse.forwarded g.1 g.2) := by
      rw [Set.range_list_map]
      intro use huse
      obtain ⟨r, hr, rfl⟩ := List.mem_map.mp huse
      exact hall r hr
    obtain ⟨given, hgiven⟩ := hrange
    exact ⟨given, hgiven.symm⟩

/-- When a binding is forwarded, and what is listed for it. -/
theorem forwardedProp?_eq_some_iff : m.forwardedProp? binding = some prop ↔
    ∃ k, m.OnlyHandsOn binding k ∧ prop =
      ⟨binding, sortedDistinct ((m.referencesTo k).filterMap fun r => m.target? r.node),
        ComponentGraph.dedup ((m.referencesTo k).filterMap fun r => m.receiver? r.node)⟩ := by
  have hlists {k : Nat} {given : List (String × Option String)} (hgiven : forwardedUses
      ((m.referencesTo k).map fun r => m.propUse r.node) = some given) :
      given.map Prod.fst = (m.referencesTo k).filterMap (fun r => m.target? r.node) ∧
        given.filterMap Prod.snd = (m.referencesTo k).filterMap fun r => m.receiver? r.node := by
    have huses := forwardedUses_eq_some_iff.mp hgiven
    have htargets := congrArg (List.filterMap PropUse.target?) huses
    have hreceivers := congrArg (List.filterMap PropUse.component?) huses
    rw [List.filterMap_map, List.filterMap_map] at htargets hreceivers
    exact ⟨(htargets.trans (congrFun List.filterMap_eq_map' given)).symm, hreceivers.symm⟩
  unfold forwardedProp?
  constructor
  · intro h
    split_ifs at h with hchildren
    obtain ⟨k, hk, h⟩ := Option.bind_eq_some_iff.mp h
    dsimp only at h
    split_ifs at h with hempty
    obtain ⟨given, hgiven, rfl⟩ := Option.map_eq_some_iff.mp h
    refine ⟨k, ⟨by simpa using hchildren, hk, by simpa using hempty,
      exists_forwardedUses_iff.mp ⟨given, hgiven⟩⟩, ?_⟩
    rw [(hlists hgiven).1, (hlists hgiven).2]
  · rintro ⟨k, hk, rfl⟩
    obtain ⟨given, hgiven⟩ := exists_forwardedUses_iff.mpr hk.handsOn
    rw [if_neg (by simpa using hk.counts), hk.declares, Option.bind_some]
    dsimp only
    rw [if_neg (by simpa using hk.used), hgiven, Option.map_some, (hlists hgiven).1,
      (hlists hgiven).2]

/-- What is listed for a prop that is handed on by the references to a symbol: the targets in
order, each once, and the components in the order in which they first receive it. -/
structure ListsReceivers (m : Model) (k : Nat) (prop : ForwardedProp) : Prop where
  sorted : prop.targets.Pairwise (· < ·)
  mem_targets : ∀ target, target ∈ prop.targets ↔
    ∃ r ∈ m.referencesTo k, ∃ outer, m.HandsOn r.node target outer
  components : ListsFirsts ((m.referencesTo k).filterMap fun r => m.receiver? r.node)
    prop.components

theorem forwardedProp?_spec (h : m.forwardedProp? binding = some prop) :
    prop.binding = binding ∧ ∃ k, m.OnlyHandsOn binding k ∧ m.ListsReceivers k prop := by
  obtain ⟨k, hk, rfl⟩ := forwardedProp?_eq_some_iff.mp h
  refine ⟨rfl, k, hk, sortedDistinct_sorted _, fun target => ?_,
    ComponentGraph.dedup_listsFirsts _⟩
  simp only [mem_sortedDistinct, List.mem_filterMap, target?_eq_some_iff]

/-- A binding that is used, and only to be handed on. -/
def IsForwarded (m : Model) (binding : PropBinding) : Prop := ∃ k, m.OnlyHandsOn binding k

theorem isSome_forwardedProp?_iff :
    (m.forwardedProp? binding).isSome = true ↔ m.IsForwarded binding := by
  rw [Option.isSome_iff_exists]
  constructor
  · rintro ⟨prop, hprop⟩
    obtain ⟨k, hk, -⟩ := forwardedProp?_eq_some_iff.mp hprop
    exact ⟨k, hk⟩
  · rintro ⟨k, hk⟩
    exact ⟨_, forwardedProp?_eq_some_iff.mpr ⟨k, hk, rfl⟩⟩

instance (m : Model) (binding : PropBinding) : Decidable (m.IsForwarded binding) :=
  decidable_of_iff _ isSome_forwardedProp?_iff

/-- The bindings that are forwarded are listed in the order of the parameter. -/
theorem forwardedProps_map_binding (m : Model) (f : NamedFunction) (includeRest : Bool) :
    (m.forwardedProps f includeRest).map ForwardedProp.binding =
      (propBindings f.params includeRest).filter fun b => decide (m.IsForwarded b) := by
  have hbinding (b : PropBinding) : (m.forwardedProp? b).map ForwardedProp.binding =
      Option.guard (fun b => decide (m.IsForwarded b)) b := by
    by_cases h : m.IsForwarded b
    · obtain ⟨prop, hprop⟩ := Option.isSome_iff_exists.mp (isSome_forwardedProp?_iff.mpr h)
      rw [hprop, Option.map_some, (forwardedProp?_spec hprop).1,
        Option.guard_eq_some_iff.mpr ⟨rfl, by simpa using h⟩]
    · rw [Option.not_isSome_iff_eq_none.mp (mt isSome_forwardedProp?_iff.mp h), Option.map_none,
        Option.guard_eq_none_iff.mpr (by simpa using h)]
  rw [forwardedProps_eq, List.map_filterMap, funext hbinding, List.filterMap_eq_filter]

/-- Without its rest binding a parameter binds what else it binds. -/
theorem propBindings_false (params : List Node) :
    propBindings params false = (propBindings params true).filter (!·.isRest) := by
  unfold propBindings
  split
  · rfl
  · split
    · dsimp only
      rw [if_neg Bool.false_ne_true, if_pos rfl, List.append_nil, List.filter_append]
      refine ((List.append_nil _).symm.trans (congrArg₂ _ ?_ ?_))
      · refine (List.filter_eq_self.mpr fun b hb => ?_).symm
        obtain ⟨property, -, hb⟩ := List.mem_filterMap.mp hb
        obtain ⟨binder, -, rfl⟩ := Option.map_eq_some_iff.mp hb
        rfl
      · refine (List.filter_eq_nil_iff.mpr fun b hb => ?_).symm
        obtain ⟨argument, -, hb⟩ := Option.bind_eq_some_iff.mp (Option.mem_toList.mp hb)
        split at hb
        · rw [← Option.some.inj hb]
          exact Bool.false_ne_true
        · cases hb
    · rfl

/-- Leaving out the rest binding changes nothing for the others. -/
theorem forwardedProps_false (m : Model) (f : NamedFunction) :
    m.forwardedProps f false = (m.forwardedProps f true).filter (!·.binding.isRest) := by
  rw [forwardedProps_eq, forwardedProps_eq, propBindings_false, List.filterMap_filter,
    List.filter_filterMap]
  refine congrArg (List.filterMap · _) (funext fun b => ?_)
  cases hprop : m.forwardedProp? b with
  | none => simp
  | some prop => simp [Option.filter, (forwardedProp?_spec hprop).1]

/-! ### Names that a parameter binds -/

/-- Inside a parameter of a function, with nothing but parts of patterns in between. -/
def InPattern (c : Cst) (around : List Node) (n : Node) : Prop :=
  ∃ inner, (n, inner ++ around) ∈ (Program.ofCst c).root.paths [] ∧
    ∀ p ∈ inner, p.kind.isPatternPart = true

section

variable {c : Cst} {outer : List Node} {param n part : Node}

theorem InPattern.child (h : InPattern c outer n) (hpart : part ∈ n.children)
    (hn : n.kind.isPatternPart = true) : InPattern c outer part := by
  obtain ⟨inner, hplace, hinner⟩ := h
  exact ⟨n :: inner, Node.child_mem_paths _ hplace hpart, List.forall_mem_cons.mpr ⟨hn, hinner⟩⟩

theorem InPattern.get? {role : Role} (h : InPattern c outer n) (hpart : n.get? role = some part)
    (hn : n.kind.isPatternPart = true) : InPattern c outer part :=
  h.child (List.mem_of_find?_eq_some hpart) hn

theorem InPattern.regular (h : InPattern c (param :: outer) n) : n.Regular := by
  obtain ⟨inner, hplace, -⟩ := h
  cases inner with
  | nil => exact Program.regular_of_place hplace
  | cons p inner => exact Program.regular_of_place hplace

/-- The members of an object pattern are parts of the pattern. -/
theorem InPattern.member (h : InPattern c (param :: outer) n) (hn : n.kind = .objectPattern)
    (hpart : part ∈ n.children) (hrole : part.role = .property ∨ part.role = .rest) :
    InPattern c (param :: outer) part ∧ part.kind.isPatternPart = true :=
  ⟨h.child hpart (by rw [hn]; rfl), h.regular.isPatternPart hpart hn hrole⟩

theorem InPattern.barePattern? (hplace : (param, outer) ∈ (Program.ofCst c).root.paths [])
    (hn : param.barePattern? = some n) : InPattern c (param :: outer) n := by
  obtain ⟨pattern, hpattern, hn⟩ := Option.bind_eq_some_iff.mp hn
  have hinside : InPattern c (param :: outer) pattern :=
    ⟨[], Node.child_mem_paths _ hplace (List.mem_of_find?_eq_some hpattern), List.forall_mem_nil _⟩
  split at hn
  · exact hinside.get? hn (by rw [‹pattern.kind = _›]; rfl)
  · exact Option.some.inj hn ▸ hinside

theorem InPattern.simpleBinder? (h : InPattern c outer n) (hpart : n.simpleBinder? = some part) :
    InPattern c outer part ∧ ∃ name, part.kind = .bindingIdentifier name := by
  unfold Node.simpleBinder? at hpart
  split at hpart
  · obtain rfl := Option.some.inj hpart
    exact ⟨h, _, ‹_›⟩
  · obtain ⟨hleft, hname⟩ := Option.filter_eq_some_iff.mp hpart
    refine ⟨h.get? hleft (by rw [‹n.kind = _›]; rfl), ?_⟩
    split at hname
    · exact ⟨_, ‹_›⟩
    · cases hname
  · cases hpart

/-- The bindings of a parameter are identifiers in it, with nothing but parts of patterns in
between. -/
theorem inPattern_of_propBinding (hplace : (param, outer) ∈ (Program.ofCst c).root.paths [])
    {params : List Node} (hfirst : params.head? = some param) {includeRest : Bool}
    {binding : PropBinding} (hbinding : binding ∈ propBindings params includeRest) :
    InPattern c (param :: outer) binding.binder ∧
      ∃ name, binding.binder.kind = .bindingIdentifier name := by
  unfold propBindings at hbinding
  rw [hfirst, Option.bind_some] at hbinding
  split at hbinding
  · cases hbinding
  · rename_i pattern hpattern
    have hin := InPattern.barePattern? hplace hpattern
    split at hbinding
    · rename_i hobject
      rcases List.mem_append.mp hbinding with hnamed | hrest
      · obtain ⟨property, hproperty, hbinder⟩ := List.mem_filterMap.mp hnamed
        obtain ⟨bound, hbound, rfl⟩ := Option.map_eq_some_iff.mp hbinder
        obtain ⟨value, hvalue, hbound⟩ := Option.bind_eq_some_iff.mp hbound
        obtain ⟨hmem, hrole⟩ := List.mem_filter.mp hproperty
        obtain ⟨hin, hpart⟩ := hin.member hobject hmem (Or.inl (beq_iff_eq.mp hrole))
        exact (hin.get? hvalue hpart).simpleBinder? hbound
      · split_ifs at hrest
        · obtain ⟨argument, hargument, hrest⟩ :=
            Option.bind_eq_some_iff.mp (Option.mem_toList.mp hrest)
          obtain ⟨rest, hfound, hargument⟩ := Option.bind_eq_some_iff.mp hargument
          have hrole : (rest.role == .rest) = true :=
            List.find?_some (p := fun n : Node => n.role == .rest) hfound
          obtain ⟨hin, hpart⟩ := hin.member hobject (List.mem_of_find?_eq_some hfound)
            (Or.inr (beq_iff_eq.mp hrole))
          split at hrest
          · obtain rfl := Option.some.inj hrest
            exact ⟨hin.get? hargument hpart, _, ‹_›⟩
          · cases hrest
        · cases hrest
    · cases hbinding

/-- A function is not the root of a file. -/
theorem outer_ne_nil {function : Node} (hf : function.isFunctionLike = true)
    (hplace : (function, outer) ∈ (Program.ofCst c).root.paths []) : outer ≠ [] := by
  rintro rfl
  have hlast := (isTree_ofCst c).getLast?_ancestors (mem_nodes_of_place hplace)
  rw [ancestors_of_place hplace, List.getLast?_singleton] at hlast
  rw [Option.some.inj hlast] at hf
  cases hf

end

variable {c : Cst} {f : NamedFunction}

theorem isFunctionLike_of_mem_namedFunctions (hf : f ∈ (ofCst c).namedFunctions) :
    f.function.isFunctionLike = true := by
  obtain ⟨n, -, hf⟩ := List.mem_filterMap.mp hf
  unfold Node.namedFunction? at hf
  split at hf
  · obtain ⟨name, -, rfl⟩ := Option.map_eq_some_iff.mp hf
    simp [Node.isFunctionLike, *]
  · split at hf
    · split_ifs at hf
      obtain rfl := Option.some.inj hf
      assumption
    · cases hf
  · cases hf

/-- The uses of a binding are those of its name that see the declaration of the function. -/
theorem references_of_propBinding (hf : f ∈ (ofCst c).namedFunctions) {includeRest : Bool}
    {binding : PropBinding} (hbinding : binding ∈ propBindings f.params includeRest) :
    ∃ k scope, (ofCst c).symbolForBinding? binding.binder.id = some k ∧
      (ofCst c).scopeOwnedBy? f.function.id = some scope ∧
      (ofCst c).referencesTo k = (ofCst c).references.filter fun r =>
        r.name == binding.localName &&
          (ofCst c).declaringScope? r.scope r.name == some scope := by
  have hfunction := isFunctionLike_of_mem_namedFunctions hf
  obtain ⟨n, hn, hnamed⟩ := List.mem_filterMap.mp hf
  obtain ⟨outer, hplace⟩ :=
    exists_place_of_mem_nodes (nodes_closed.namedFunction? hn hnamed).2
  obtain ⟨param, hfirst⟩ : ∃ param, f.params.head? = some param := by
    cases hhead : f.params.head? with
    | none => simp [propBindings, hhead] at hbinding
    | some param => exact ⟨param, rfl⟩
  obtain ⟨hchild, hrole⟩ := List.mem_filter.mp (List.mem_of_head? hfirst)
  have hparam : param.kind.isParam = true := by
    obtain ⟨p, rest, rfl⟩ := List.exists_cons_of_ne_nil (outer_ne_nil hfunction hplace)
    exact (Program.regular_of_place hplace).isParam hchild hfunction (beq_iff_eq.mp hrole)
  obtain ⟨⟨inner, hinside, hinner⟩, name, hname⟩ :=
    inPattern_of_propBinding (Node.child_mem_paths _ hplace hchild) hfirst hbinding
  rw [← places_ofCst] at hinside
  obtain ⟨v, hv, heq⟩ := List.mem_map.mp hinside
  obtain ⟨hnode, haround⟩ := Prod.mk.inj heq
  have howners : v.owners = param :: f.function :: outer.filter fun n => !n.kind.isPatternPart := by
    rw [Visit.owners, haround, List.filter_append,
      List.filter_eq_nil_iff.mpr fun p hp => by simp [hinner p hp], List.nil_append,
      List.filter_cons_of_pos (by simp [Kind.isPatternPart_of_isParam hparam]),
      List.filter_cons_of_pos (by simp [Node.isPatternPart_of_isFunctionLike hfunction])]
  have hlabel : binding.localName = name := by
    simp [PropBinding.localName, Node.label, Node.nameText?, hname]
  rw [hlabel, ← hnode]
  exact references_of_param hv (hnode ▸ hname) howners hparam hfunction

/-- **Forwarded props are those that are only handed on.** Of the bindings of a component, in their
order, those are forwarded that are no prop `children` and whose symbol is referred to, every time
to be handed on. Listed are the targets in order and the components in the order in which they first
receive the prop. The references to the symbol are those to the local name from which the scope of
the component is the nearest one that declares the name. Without rest bindings the others are the
same. -/
theorem forwarded_props_are_only_handed_on (c : Cst) :
    (∀ f ∈ (ofCst c).components, ∀ includeRest,
      ((ofCst c).forwardedProps f includeRest).map ForwardedProp.binding =
        (propBindings f.params includeRest).filter (fun b => decide ((ofCst c).IsForwarded b)) ∧
      (∀ prop ∈ (ofCst c).forwardedProps f includeRest, ∃ k,
        (ofCst c).OnlyHandsOn prop.binding k ∧ (ofCst c).ListsReceivers k prop) ∧
      (∀ binding ∈ propBindings f.params includeRest, ∃ k scope,
        (ofCst c).symbolForBinding? binding.binder.id = some k ∧
        (ofCst c).scopeOwnedBy? f.function.id = some scope ∧
        (ofCst c).referencesTo k = (ofCst c).references.filter fun r =>
          r.name == binding.localName &&
            (ofCst c).declaringScope? r.scope r.name == some scope) ∧
      (ofCst c).forwardedProps f false =
        ((ofCst c).forwardedProps f true).filter (!·.binding.isRest)) ∧
    ∀ use component, (ofCst c).receiver? use = some component ↔
      (ofCst c).Receives use component := by
  refine ⟨fun f hf includeRest => ⟨forwardedProps_map_binding _ f includeRest, fun prop hprop => ?_,
    fun binding hbinding => references_of_propBinding (List.mem_filter.mp hf).1 hbinding,
    forwardedProps_false _ f⟩, fun use component => receiver?_eq_some_iff⟩
  obtain ⟨binding, -, hprop⟩ := List.mem_filterMap.mp hprop
  obtain ⟨rfl, hspec⟩ := forwardedProp?_spec hprop
  exact hspec

/-- The tree of `const A = ({ x, ...r }) => <B a={(x)} {...r}>{(x) => <C c={x} />}</B>;`, most
tokens left out. -/
private def nestedName : Cst :=
  ⟨"program", true, "", ⟨0, 70⟩, "", [
    ⟨"lexical_declaration", true, "", ⟨0, 70⟩, "", [
      ⟨"const", false, "kind", ⟨0, 5⟩, "const", []⟩,
      ⟨"variable_declarator", true, "", ⟨6, 69⟩, "", [
        ⟨"identifier", true, "name", ⟨6, 7⟩, "A", []⟩,
        ⟨"arrow_function", true, "value", ⟨10, 69⟩, "", [
          ⟨"formal_parameters", true, "parameters", ⟨10, 23⟩, "", [
            ⟨"required_parameter", true, "", ⟨11, 22⟩, "", [
              ⟨"object_pattern", true, "pattern", ⟨11, 22⟩, "", [
                ⟨"shorthand_property_identifier_pattern", true, "", ⟨13, 14⟩, "x", []⟩,
                ⟨"rest_pattern", true, "", ⟨16, 20⟩, "", [
                  ⟨"identifier", true, "", ⟨19, 20⟩, "r", []⟩]⟩]⟩]⟩]⟩,
          ⟨"jsx_element", true, "body", ⟨27, 69⟩, "", [
            ⟨"jsx_opening_element", true, "open_tag", ⟨27, 45⟩, "", [
              ⟨"identifier", true, "name", ⟨28, 29⟩, "B", []⟩,
              ⟨"jsx_attribute", true, "attribute", ⟨30, 37⟩, "", [
                ⟨"property_identifier", true, "", ⟨30, 31⟩, "a", []⟩,
                ⟨"jsx_expression", true, "", ⟨32, 37⟩, "", [
                  ⟨"parenthesized_expression", true, "", ⟨33, 36⟩, "", [
                    ⟨"identifier", true, "", ⟨34, 35⟩, "x", []⟩]⟩]⟩]⟩,
              ⟨"jsx_expression", true, "", ⟨38, 44⟩, "", [
                ⟨"spread_element", true, "", ⟨39, 43⟩, "", [
                  ⟨"identifier", true, "", ⟨42, 43⟩, "r", []⟩]⟩]⟩]⟩,
            ⟨"jsx_expression", true, "", ⟨45, 65⟩, "", [
              ⟨"arrow_function", true, "", ⟨46, 64⟩, "", [
                ⟨"formal_parameters", true, "parameters", ⟨46, 49⟩, "", [
                  ⟨"required_parameter", true, "", ⟨47, 48⟩, "", [
                    ⟨"identifier", true, "pattern", ⟨47, 48⟩, "x", []⟩]⟩]⟩,
                ⟨"jsx_self_closing_element", true, "body", ⟨53, 64⟩, "", [
                  ⟨"identifier", true, "name", ⟨54, 55⟩, "C", []⟩,
                  ⟨"jsx_attribute", true, "attribute", ⟨56, 61⟩, "", [
                    ⟨"property_identifier", true, "", ⟨56, 57⟩, "c", []⟩,
                    ⟨"jsx_expression", true, "", ⟨58, 61⟩, "", [
                      ⟨"identifier", true, "", ⟨59, 60⟩, "x", []⟩]⟩]⟩]⟩]⟩]⟩,
            ⟨"jsx_closing_element", true, "close_tag", ⟨65, 69⟩, "", [
              ⟨"identifier", true, "name", ⟨67, 68⟩, "B", []⟩]⟩]⟩]⟩]⟩]⟩]⟩

/-- A prop is handed on though a nested function hands on its own name. -/
theorem nested_name_is_not_handed_on :
    ∃ f ∈ (ofCst nestedName).components,
      ((propBindings f.params true).filter fun b =>
        decide ((ofCst nestedName).IsForwarded b)).map PropBinding.label = ["x", "...r"] ∧
      ∀ prop ∈ (ofCst nestedName).forwardedProps f true, prop.components = ["B"] ∧
        ∃ k, (ofCst nestedName).OnlyHandsOn prop.binding k ∧
          (ofCst nestedName).ListsReceivers k prop := by
  have hfound : (ofCst nestedName).components.any (fun f =>
      ((ofCst nestedName).forwardedProps f true).map (·.binding.label) == ["x", "...r"] &&
      ((ofCst nestedName).forwardedProps f true).all (·.components == ["B"])) = true := by
    decide +kernel
  obtain ⟨f, hf, hboth⟩ := List.any_eq_true.mp hfound
  obtain ⟨hlabels, hcomponents⟩ := Bool.and_eq_true_iff.mp hboth
  obtain ⟨hbindings, hlisted, -⟩ := (forwarded_props_are_only_handed_on nestedName).1 f hf true
  refine ⟨f, hf, ?_, fun prop hprop => ⟨?_, hlisted prop hprop⟩⟩
  · rw [← hbindings, List.map_map]
    exact eq_of_beq hlabels
  · exact eq_of_beq (List.all_eq_true.mp hcomponents prop hprop)

end Model

end TsxLint
