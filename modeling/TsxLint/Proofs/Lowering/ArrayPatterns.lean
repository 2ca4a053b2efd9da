import Mathlib.Data.List.Chain
import Mathlib.Data.List.Forall2
import Mathlib.Data.List.ReduceOption
import TsxLint.Proofs.Lowering.SingleGoals
import TsxLint.Proofs.Lowering.TypeParts

/-!
# Places in array patterns

An array pattern is read from a flat list of children, in which a comma ends a place and two commas
in a row leave one empty. One bit is carried along: whether an element may come next, or the present
place is taken. With commas between all elements and a rest element last, every element keeps its
place, the number of commas before it; the other places are holes; and the rest element has a place
of its own behind them.

## Main definitions

* `Cst.isMark`, `Cst.isComma`, `Cst.isElement`: what the children of an array pattern are.
* `Cst.Punctuated`: the children of array patterns, and `Cst.Follows`, the same child by child.
* `Plan.PlacedFrom`: where the elements go, seen from a place that is free or taken.
* `Cst.KeepsPlaces`: an array pattern in which every element has its place.

## Main results

* `Cst.Follows.placedFrom`: the items of an array pattern have their places.
* `Cst.array_elements_keep_places`: so have the elements of the lowered pattern.
-/

namespace TsxLint

/-! ### Children -/

namespace Cst

/-- Whether a child of an array pattern stands for nothing. -/
def isMark (c : Cst) : Bool := c.kind == "[" || c.kind == "]" || c.kind == "comment"

/-- Whether a child is a comma. -/
def isComma (c : Cst) : Bool := c.kind == ","

/-- Whether a child is an element and not the rest. -/
def isElement (c : Cst) : Bool := c.isNamed && !c.isMark && !c.isComma && !Plan.isRest c

/-- Children as an array pattern has them: marks, commas, elements with a comma between each two,
and at most one rest element, behind all elements and commas. -/
structure Punctuated (children : List Cst) : Prop where
  kinds : ∀ c ∈ children, c.isMark ∨ c.isComma ∨ c.isElement ∨ Plan.isRest c
  separated : (children.filter fun c => c.isComma || c.isElement).IsChain
    fun c d => ¬(c.isElement ∧ d.isElement)
  restLast : children.Pairwise fun c d => Plan.isRest c → d.isMark

/-- Whether an element stands behind the last comma. -/
def EndsInElement (children : List Cst) : Prop :=
  ∃ before c after, children = before ++ c :: after ∧ c.isElement ∧ ∀ d ∈ after, ¬d.isComma

/-- Children that may follow where an element is expected, or else where a place is taken. -/
inductive Follows : Bool → List Cst → Prop
  | nil {expecting : Bool} : Follows expecting []
  | mark {expecting : Bool} {c : Cst} {cs : List Cst} (hc : c.isMark)
      (hcs : Follows expecting cs) : Follows expecting (c :: cs)
  | comma {expecting : Bool} {c : Cst} {cs : List Cst} (hc : c.isComma) (hcs : Follows true cs) :
      Follows expecting (c :: cs)
  | element {c : Cst} {cs : List Cst} (hc : c.isElement) (hcs : Follows false cs) :
      Follows true (c :: cs)
  | rest {expecting : Bool} {c : Cst} {cs : List Cst} (hc : Plan.isRest c)
      (hcs : ∀ d ∈ cs, d.isMark) : Follows expecting (c :: cs)

variable {c : Cst} {cs : List Cst}

theorem isMark_iff : c.isMark = true ↔ c.kind = "[" ∨ c.kind = "]" ∨ c.kind = "comment" := by
  simp [isMark, or_assoc]

theorem isComma_iff : c.isComma = true ↔ c.kind = "," := beq_iff_eq

theorem isRest_iff :
    Plan.isRest c = true ↔ c.kind = "rest_pattern" ∨ c.kind = "spread_element" := by
  simp [Plan.isRest]

theorem not_isComma_of_isMark (h : c.isMark = true) : c.isComma = false := by
  rcases isMark_iff.mp h with h | h | h <;> simp [isComma, h]

theorem not_isComma_of_isRest (h : Plan.isRest c = true) : c.isComma = false := by
  rcases isRest_iff.mp h with h | h <;> simp [isComma, h]

theorem not_isElement_of_isMark (h : c.isMark = true) : c.isElement = false := by
  simp [isElement, h]

theorem not_isElement_of_isComma (h : c.isComma = true) : c.isElement = false := by
  simp [isElement, h]

theorem not_isElement_of_isRest (h : Plan.isRest c = true) : c.isElement = false := by
  simp [isElement, h]

theorem isElement_iff : c.isElement = true ↔
    c.isNamed = true ∧ c.isMark = false ∧ c.isComma = false ∧ Plan.isRest c = false := by
  simp [isElement, and_assoc]

/-- Commas between the elements are what the one bit asks for. -/
theorem Punctuated.follows {expecting : Bool} (h : Punctuated cs)
    (hnext : expecting = false →
      ∀ d ∈ (cs.filter fun d => d.isComma || d.isElement).head?, d.isElement = false) :
    Follows expecting cs := by
  induction cs generalizing expecting with
  | nil => exact .nil
  | cons c cs ih =>
    obtain ⟨hkinds, hseparated, hrest⟩ := h
    obtain ⟨hc, hkinds⟩ := List.forall_mem_cons.mp hkinds
    obtain ⟨hlast, hrest⟩ := List.pairwise_cons.mp hrest
    rw [List.filter_cons] at hseparated hnext
    rcases hc with hc | hc | hc | hc
    · have hdropped : (c.isComma || c.isElement) = false := by
        rw [not_isComma_of_isMark hc, not_isElement_of_isMark hc, Bool.or_self]
      rw [hdropped] at hseparated hnext
      exact .mark hc (ih ⟨hkinds, hseparated, hrest⟩ hnext)
    · have hkept : (c.isComma || c.isElement) = true := by rw [hc, Bool.true_or]
      rw [hkept] at hseparated
      refine .comma hc (ih ⟨hkinds, ?_, hrest⟩ nofun)
      exact (List.isChain_cons.mp hseparated).2
    · have hkept : (c.isComma || c.isElement) = true := by rw [hc, Bool.or_true]
      rw [hkept] at hseparated hnext
      obtain ⟨hhead, htail⟩ := List.isChain_cons.mp hseparated
      cases expecting with
      | false => exact absurd hc (by simpa using hnext rfl c rfl)
      | true =>
        refine .element hc (ih ⟨hkinds, htail, hrest⟩ fun _ d hd => ?_)
        simpa [hc] using hhead d hd
    · exact .rest hc fun d hd => hlast d hd hc

theorem endsInElement_cons : EndsInElement (c :: cs) ↔
    EndsInElement cs ∨ c.isElement ∧ ∀ d ∈ cs, ¬d.isComma := by
  constructor
  · rintro ⟨before, e, after, heq, he, hafter⟩
    cases before with
    | nil =>
      obtain ⟨rfl, rfl⟩ := List.cons.inj heq
      exact .inr ⟨he, hafter⟩
    | cons _ before =>
      obtain ⟨rfl, rfl⟩ := List.cons.inj heq
      exact .inl ⟨before, e, after, rfl, he, hafter⟩
  · rintro (⟨before, e, after, rfl, he, hafter⟩ | ⟨hc, hcs⟩)
    · exact ⟨c :: before, e, after, rfl, he, hafter⟩
    · exact ⟨[], c, cs, rfl, hc, hcs⟩

end Cst

/-! ### Items -/

namespace Plan

/-- The place that an item takes: an empty one, or one for an element. -/
def ArrayItem.place? : ArrayItem → Option (Option Kid)
  | hole => some none
  | element k => some (some k)
  | rest _ => none

/-- The places that items take. -/
def itemPlaces (items : List ArrayItem) : List (Option Kid) := items.filterMap ArrayItem.place?

variable {expecting : Bool} {k : Kid} {ks : List Kid}

theorem arrayItems_mark (hk : k.tree.isMark = true) :
    arrayItems expecting (k :: ks) = arrayItems expecting ks := by
  rw [arrayItems]
  rcases Cst.isMark_iff.mp hk with h | h | h <;> simp only [h]

theorem arrayItems_comma (hk : k.tree.isComma = true) : arrayItems expecting (k :: ks) =
    if expecting then .hole :: arrayItems true ks else arrayItems true ks := by
  rw [arrayItems]
  simp only [Cst.isComma_iff.mp hk]

theorem arrayItems_rest (hk : isRest k.tree = true) :
    arrayItems expecting (k :: ks) = .rest k :: arrayItems false ks := by
  rw [arrayItems]
  rcases Cst.isRest_iff.mp hk with h | h <;> simp only [h]

theorem arrayItems_element (hk : k.tree.isElement = true) :
    arrayItems expecting (k :: ks) = .element k :: arrayItems false ks := by
  obtain ⟨hnamed, hmark, hcomma, hrest⟩ := Cst.isElement_iff.mp hk
  rw [arrayItems]
  split
  case h_7 => rw [if_pos hnamed]
  all_goals simp_all [Cst.isMark, Cst.isComma, isRest]

theorem arrayItems_marks (hks : ∀ k ∈ ks, k.tree.isMark = true) : arrayItems expecting ks = [] := by
  induction ks with
  | nil => rfl
  | cons k ks ih =>
    obtain ⟨hk, hks⟩ := List.forall_mem_cons.mp hks
    rw [arrayItems_mark hk, ih hks]

/-- The number of commas among some children. -/
def commas (ks : List Kid) : Nat := ks.countP (·.tree.isComma)

/-- The places for some children where an element is expected, or else where the present place is
taken: an element has the place that the commas before it give it, the other places are empty, and
there are no more places than the commas and a last element ask for. A place that is taken already
is not among them, and the comma that ends it opens none. -/
structure PlacedFrom (expecting : Bool) (ks : List Kid) (places : List (Option Kid)) : Prop where
  element : ∀ before k after, ks = before ++ k :: after → k.tree.isElement = true →
    ∃ i, commas before = i + (!expecting).toNat ∧ places[i]? = some (some k)
  hole : ∀ i < places.length, (∀ before k after, ks = before ++ k :: after →
    k.tree.isElement = true → commas before ≠ i + (!expecting).toNat) → places[i]? = some none
  ended : Cst.EndsInElement (ks.map Kid.tree) →
    places.length + (!expecting).toNat = commas ks + 1
  unended : ¬Cst.EndsInElement (ks.map Kid.tree) → places.length = commas ks - (!expecting).toNat

theorem commas_cons : commas (k :: ks) = commas ks + if k.tree.isComma then 1 else 0 := by
  rw [commas, List.countP_cons, commas]

/-- An element among some children is the first of them or it is among the others. -/
theorem forall_element_cons {P : List Kid → Kid → Prop} :
    (∀ before e after, k :: ks = before ++ e :: after → e.tree.isElement = true → P before e) ↔
      (k.tree.isElement = true → P [] k) ∧
        ∀ before e after, ks = before ++ e :: after →
          e.tree.isElement = true → P (k :: before) e := by
  constructor
  · intro h
    exact ⟨fun hk => h [] k ks rfl hk, fun before e after heq he =>
      h (k :: before) e after (congrArg (k :: ·) heq) he⟩
  · rintro ⟨hfirst, hothers⟩ before e after heq he
    cases before with
    | nil =>
      obtain ⟨rfl, rfl⟩ := List.cons.inj heq
      exact hfirst he
    | cons _ before =>
      obtain ⟨rfl, rfl⟩ := List.cons.inj heq
      exact hothers before e after rfl he

theorem forall_not_isComma_iff : (∀ c ∈ ks.map Kid.tree, ¬c.isComma = true) ↔ commas ks = 0 := by
  rw [commas, List.countP_eq_zero, List.forall_mem_map]

variable {places : List (Option Kid)}

namespace PlacedFrom

theorem nil : PlacedFrom expecting [] [] where
  element before k after h := by simp at h
  hole i h := by simp at h
  ended h := by
    obtain ⟨before, c, after, h, -⟩ := h
    simp at h
  unended _ := by simp [commas]

/-- A child that is no element moves the places behind it by the holes that it leaves. -/
theorem consOther {next : Bool} (holes : Nat) (h : PlacedFrom next ks places)
    (helement : k.tree.isElement = false)
    (hnext : next = false → expecting = false ∧ k.tree.isComma = false)
    (hholes : commas [k] + (!next).toNat = holes + (!expecting).toNat) :
    PlacedFrom expecting (k :: ks) (List.replicate holes none ++ places) := by
  have hcommas (before : List Kid) : commas (k :: before) = commas before + commas [k] := by
    have hnil : commas [] = 0 := rfl
    simp only [commas_cons, hnil, Nat.zero_add]
  -- `hholes` carries all four parts: the new holes make up for the comma and for a taken place.
  refine ⟨forall_element_cons.mpr ⟨by simp [helement], ?_⟩, fun i hi hfree => ?_, ?_, ?_⟩
  · intro before e after heq he
    obtain ⟨i, hi, hplace⟩ := h.element before e after heq he
    refine ⟨holes + i, by rw [hcommas]; omega, ?_⟩
    rw [List.getElem?_append_right (by simp), List.length_replicate, Nat.add_sub_cancel_left]
    exact hplace
  · rcases Nat.lt_or_ge i holes with hlt | hge
    · rw [List.getElem?_append_left (by simpa using hlt), List.getElem?_replicate, if_pos hlt]
    · obtain ⟨j, rfl⟩ := Nat.exists_eq_add_of_le hge
      rw [List.length_append, List.length_replicate] at hi
      rw [List.getElem?_append_right (by simp), List.length_replicate, Nat.add_sub_cancel_left]
      refine h.hole j (by omega) fun before e after heq he hplace => ?_
      refine (forall_element_cons.mp hfree).2 before e after heq he ?_
      rw [hcommas]
      omega
  · rw [List.map_cons, Cst.endsInElement_cons, helement, hcommas, List.length_append,
      List.length_replicate]
    intro hends
    have := h.ended (by simpa using hends)
    omega
  · rw [List.map_cons, Cst.endsInElement_cons, helement, hcommas, List.length_append,
      List.length_replicate]
    intro hends
    have := h.unended (by simpa using hends)
    cases next with
    | true =>
      simp only [Bool.not_true, Bool.toNat_false] at this hholes
      omega
    | false =>
      -- The subtraction is cut off where no comma follows, so this child must not be one either.
      obtain ⟨rfl, hcomma⟩ := hnext rfl
      have hnone : commas [k] = 0 := by simp [commas, hcomma]
      simp only [Bool.not_false, Bool.toNat_true] at this hholes ⊢
      omega

/-- A child that is neither a comma nor an element changes no place. -/
theorem skip (h : PlacedFrom expecting ks places) (hcomma : k.tree.isComma = false)
    (helement : k.tree.isElement = false) : PlacedFrom expecting (k :: ks) places :=
  h.consOther 0 helement (fun htaken => ⟨htaken, hcomma⟩) (by simp [commas, hcomma])

/-- A comma where an element is expected leaves a hole. -/
theorem consHole (h : PlacedFrom true ks places) (hcomma : k.tree.isComma = true) :
    PlacedFrom true (k :: ks) (none :: places) :=
  h.consOther 1 (Cst.not_isElement_of_isComma hcomma) nofun (by simp [commas, hcomma])

/-- A comma where a place is taken ends that place. -/
theorem consComma (h : PlacedFrom true ks places) (hcomma : k.tree.isComma = true) :
    PlacedFrom false (k :: ks) places :=
  h.consOther 0 (Cst.not_isElement_of_isComma hcomma) nofun (by simp [commas, hcomma])

/-- An element takes the place where it is expected. -/
theorem consElement (h : PlacedFrom false ks places) (helement : k.tree.isElement = true) :
    PlacedFrom true (k :: ks) (some k :: places) := by
  have hcomma : k.tree.isComma = false := (Cst.isElement_iff.mp helement).2.2.1
  have hcommas (before : List Kid) : commas (k :: before) = commas before := by
    simp [commas_cons, hcomma]
  refine ⟨forall_element_cons.mpr ⟨fun _ => ⟨0, rfl, rfl⟩, ?_⟩, fun i hi hfree => ?_, ?_, ?_⟩
  · intro before e after heq he
    obtain ⟨i, hi, hplace⟩ := h.element before e after heq he
    exact ⟨i + 1, by simpa [hcommas] using hi, hplace⟩
  · obtain ⟨hfirst, hothers⟩ := forall_element_cons.mp hfree
    cases i with
    | zero => exact absurd rfl (hfirst helement)
    | succ i =>
      refine h.hole i (Nat.lt_of_succ_lt_succ hi) fun before e after heq he => ?_
      have := hothers before e after heq he
      simpa [hcommas] using this
  · rw [List.map_cons, Cst.endsInElement_cons, forall_not_isComma_iff, hcommas]
    by_cases hends : Cst.EndsInElement (ks.map Kid.tree)
    · simpa using fun _ => h.ended hends
    · have := h.unended hends
      rintro (hends' | ⟨-, hnone⟩)
      · exact absurd hends' hends
      · simp [hnone] at this
        simp [this, hnone]
  · rw [List.map_cons, Cst.endsInElement_cons, forall_not_isComma_iff, hcommas]
    intro hends
    obtain ⟨hends, hsome⟩ := not_or.mp hends
    have hlength := h.unended hends
    have hpos : commas ks ≠ 0 := fun hnone => hsome ⟨helement, hnone⟩
    simp only [Bool.not_false, Bool.toNat_true] at hlength
    simp only [List.length_cons, Bool.not_true, Bool.toNat_false]
    omega

/-- Marks take no place. -/
theorem of_marks (hks : ∀ k ∈ ks, k.tree.isMark = true) : PlacedFrom expecting ks [] := by
  induction ks with
  | nil => exact nil
  | cons k ks ih =>
    obtain ⟨hk, hks⟩ := List.forall_mem_cons.mp hks
    exact (ih hks).skip (Cst.not_isComma_of_isMark hk) (Cst.not_isElement_of_isMark hk)

end PlacedFrom

end Plan

open Plan in
/-- The items of an array pattern have their places, whatever place the reading has come to. -/
theorem Cst.Follows.placedFrom {expecting : Bool} {ks : List Kid}
    (h : Cst.Follows expecting (ks.map Kid.tree)) :
    PlacedFrom expecting ks (itemPlaces (arrayItems expecting ks)) := by
  induction ks generalizing expecting with
  | nil => exact .nil
  | cons k ks ih =>
    rw [List.map_cons] at h
    cases h with
    | mark hk hks =>
      rw [arrayItems_mark hk]
      exact (ih hks).skip (not_isComma_of_isMark hk) (not_isElement_of_isMark hk)
    | comma hk hks =>
      rw [arrayItems_comma hk]
      cases expecting with
      | false => exact (ih hks).consComma hk
      | true => exact (ih hks).consHole hk
    | element hk hks =>
      rw [arrayItems_element hk]
      exact (ih hks).consElement hk
    | rest hk hks =>
      have hmarks : ∀ k' ∈ ks, k'.tree.isMark = true := List.forall_mem_map.mp hks
      rw [arrayItems_rest hk, arrayItems_marks hmarks]
      exact (PlacedFrom.of_marks hmarks).skip (not_isComma_of_isRest hk)
        (not_isElement_of_isRest hk)

/-! ### Nodes -/

namespace Plan

/-- The role that a child of an array pattern is lowered under. -/
def memberRole (k : Kid) : Role := if isRest k.tree then .rest else .element

/-- The goal that a child of an array pattern is lowered for. -/
def memberGoal (k : Kid) : Goal := if isRest k.tree then .rest else .pattern

/-- A child becomes a node as a member of an array pattern. -/
def MemberBecomes (k : Kid) (n : Node) : Prop := k.tree.Becomes (memberGoal k) (memberRole k) n

theorem isExact_memberGoal (k : Kid) : (memberGoal k).isExact = true := by
  unfold memberGoal
  split <;> rfl

variable {expecting : Bool} {ks : List Kid}

/-- Where at most the last child is a rest element, none is dropped. -/
theorem keepLastRest_eq_map
    (hks : ks.Pairwise fun k later => isRest k.tree = true → isRest later.tree = false) :
    keepLastRest (fun k => k.as .element .pattern) ks =
      ks.map fun k => k.as (memberRole k) (memberGoal k) := by
  induction ks with
  | nil => rfl
  | cons k ks ih =>
    obtain ⟨hk, hks⟩ := List.pairwise_cons.mp hks
    rw [keepLastRest, ih hks, List.map_cons]
    cases hrest : isRest k.tree with
    | false => simp [memberRole, memberGoal, hrest]
    | true =>
      have hlast : (ks.any fun later => isRest later.tree) = false := by
        simpa using fun later hlater => hk later hlater hrest
      simp [memberRole, memberGoal, hrest, hlast]

theorem itemKids_sublist : (itemKids (arrayItems expecting ks)).Sublist ks := by
  fun_induction arrayItems expecting ks <;> simp_all [itemKids]

/-- No rest element is passed over. -/
theorem filter_rest_itemKids : (itemKids (arrayItems expecting ks)).filter (memberRole · == .rest) =
    ks.filter (memberRole · == .rest) := by
  fun_induction arrayItems expecting ks <;>
    simp_all [itemKids, memberRole, isRest]

/-- The elements have the places that are not empty. -/
theorem filter_element_itemKids :
    (itemKids (arrayItems expecting ks)).filter (memberRole · == .element) =
      (itemPlaces (arrayItems expecting ks)).reduceOption := by
  fun_induction arrayItems expecting ks <;>
    simp_all [itemKids, memberRole, isRest, itemPlaces, ArrayItem.place?, List.filterMap_cons,
      List.reduceOption_cons_of_some, List.reduceOption_cons_of_none]

/-- Members of one role become the nodes of this role. -/
theorem forall₂_filter_role {made : List Node} (h : List.Forall₂ MemberBecomes ks made)
    (role : Role) : List.Forall₂ MemberBecomes (ks.filter (memberRole · == role))
      (made.filter (·.role == role)) :=
  List.rel_filter (fun _ m (hm : MemberBecomes _ m) => by simp only [hm.role_eq]) h

theorem itemSlots_eq_map (items : List ArrayItem) :
    itemSlots items = (itemPlaces items).map Option.isSome := by
  induction items with
  | nil => rfl
  | cons item items ih =>
    cases item <;>
      simpa [itemSlots, itemPlaces, ArrayItem.place?, List.filterMap_cons] using ih

end Plan

namespace Node

/-- Slots are filled as the places ask for. -/
theorem forall₂_fillSlots {R : Kid → Node → Prop} {places : List (Option Kid)}
    {elements : List Node} (h : List.Forall₂ R places.reduceOption elements) :
    List.Forall₂ (Option.Rel R) places (fillSlots (places.map Option.isSome) elements) := by
  induction places generalizing elements with
  | nil => exact .nil
  | cons place places ih =>
    cases place with
    | none => exact .cons .none (ih h)
    | some k =>
      rw [List.reduceOption_cons_of_some] at h
      cases h with
      | cons hk h => exact .cons (.some hk) (ih h)

theorem mem_of_some_mem_fillSlots {m : Node} {slots : List Bool} {elements : List Node}
    (h : some m ∈ fillSlots slots elements) : m ∈ elements := by
  fun_induction fillSlots slots elements <;> simp_all
  tauto

/-- What stands at a place is an element. -/
theorem role_of_some_mem_slots {n m : Node} (h : some m ∈ n.slots) : m.role = .element := by
  unfold slots at h
  split at h
  · exact beq_iff_eq.mp (List.mem_filter.mp (mem_of_some_mem_fillSlots h)).2
  · cases h

theorem all_rest_arrange (role : Role) (id : Nat) (kind : Kind) (span : Span)
    (parts : List Node) : (Node.mk role id kind span (Step.arrange parts)).all .rest =
      parts.filter (·.role == .rest) := by
  simp [all, Step.arrange, List.filter_filter]

theorem get?_eq_head? (n : Node) (role : Role) : n.get? role = (n.all role).head? :=
  List.head?_filter.symm

end Node

namespace Cst

/-- An array pattern as a node that keeps places: an element stands at the number of the commas
before it, every other place is a hole, there are as many places as the commas end and one more for
a last element, and the rest element stands behind the places and not at one. -/
structure KeepsPlaces (c : Cst) (n : Node) : Prop where
  kind : n.kind = .arrayPattern (n.slots.map Option.isSome)
  element : ∀ before e after, c.children = before ++ e :: after → e.isElement = true →
    ∃ m, n.slots[before.countP isComma]? = some (some m) ∧ e.Becomes .pattern .element m
  hole : ∀ i < n.slots.length, (∀ before e after, c.children = before ++ e :: after →
    e.isElement = true → before.countP isComma ≠ i) → n.slots[i]? = some none
  ended : EndsInElement c.children → n.slots.length = c.children.countP isComma + 1
  unended : ¬EndsInElement c.children → n.slots.length = c.children.countP isComma
  rest : ∀ e ∈ c.children, Plan.isRest e = true →
    ∃ r, n.get? .rest = some r ∧ e.Becomes .rest .rest r ∧ some r ∉ n.slots
  noRest : (∀ e ∈ c.children, Plan.isRest e = false) → n.get? .rest = none

variable {c : Cst} {n : Node}

theorem map_tree_kids : c.kids.map Kid.tree = c.children := by
  simp [kids, Function.comp_def]

theorem countP_isComma_map {ks : List Kid} : (ks.map Kid.tree).countP isComma = Plan.commas ks := by
  rw [List.countP_map]
  rfl

theorem exists_split_kids {before after : List Cst} {e : Cst}
    (h : c.children = before ++ e :: after) : ∃ before' k after',
      c.kids = before' ++ k :: after' ∧ k.tree = e ∧
        Plan.commas before' = before.countP isComma := by
  rw [← map_tree_kids, List.map_eq_append_iff] at h
  obtain ⟨before', rest', hkids, rfl, hrest⟩ := h
  obtain ⟨k, after', rfl, rfl, -⟩ := List.map_eq_cons_iff.mp hrest
  exact ⟨before', k, after', hkids, rfl, countP_isComma_map.symm⟩

theorem exists_getElem?_of_forall₂ {α β : Type} {R : α → β → Prop} {as : List α} {bs : List β}
    (h : List.Forall₂ R as bs) {i : Nat} {a : α} (ha : as[i]? = some a) :
    ∃ b, bs[i]? = some b ∧ R a b := by
  obtain ⟨hi, rfl⟩ := List.getElem?_eq_some_iff.mp ha
  have hi' : i < bs.length := h.length_eq ▸ hi
  exact ⟨bs[i], List.getElem?_eq_getElem hi', h.get hi hi'⟩

theorem map_isSome_eq_of_forall₂ {α β : Type} {R : α → β → Prop} {as : List (Option α)}
    {bs : List (Option β)} (h : List.Forall₂ (Option.Rel R) as bs) :
    as.map Option.isSome = bs.map Option.isSome := by
  induction h with
  | nil => rfl
  | cons hfirst _ ih => cases hfirst <;> simp [ih]

open Plan

theorem memberRole_eq_rest_iff {k : Kid} : memberRole k = .rest ↔ isRest k.tree = true := by
  simp [memberRole]

/-- No child behind a rest element is one. -/
theorem Punctuated.pairwise_kids (h : Punctuated c.children) :
    c.kids.Pairwise fun k later => isRest k.tree = true → isRest later.tree = false := by
  have hpairs := h.restLast
  rw [← map_tree_kids, List.pairwise_map] at hpairs
  refine hpairs.imp fun hmark hk => ?_
  rcases isMark_iff.mp (hmark hk) with hkind | hkind | hkind <;> simp [isRest, hkind]

/-- A rest element is the only one. -/
theorem Punctuated.filter_rest (h : Punctuated c.children) {k : Kid} (hk : k ∈ c.kids)
    (hrest : isRest k.tree = true) : c.kids.filter (memberRole · == .rest) = [k] := by
  obtain ⟨before, after, heq⟩ := List.append_of_mem hk
  have hpairs := h.pairwise_kids
  rw [heq, List.pairwise_append, List.pairwise_cons] at hpairs
  obtain ⟨-, ⟨hafter, -⟩, hbefore⟩ := hpairs
  have hnone_after : after.filter (memberRole · == .rest) = [] := by
    simpa [memberRole] using fun l hl => hafter l hl hrest
  have hnone_before : before.filter (memberRole · == .rest) = [] := by
    refine List.filter_eq_nil_iff.mpr fun l hl hrole => ?_
    have hl_rest := memberRole_eq_rest_iff.mp (beq_iff_eq.mp hrole)
    simp [hbefore l hl k (List.mem_cons_self ..) hl_rest] at hrest
  rw [heq, List.filter_append, hnone_before, List.filter_cons, hnone_after]
  simp [memberRole, hrest]

/-- A node keeps places if its slots are filled by what the places hold and its rest element is the
one of the pattern. -/
theorem KeepsPlaces.of_placedFrom (hc : Punctuated c.children) {places : List (Option Kid)}
    (h : PlacedFrom true c.kids places)
    (hkind : n.kind = .arrayPattern (places.map Option.isSome))
    (hslots : List.Forall₂ (Option.Rel MemberBecomes) places n.slots)
    (hrest : List.Forall₂ MemberBecomes (c.kids.filter (memberRole · == .rest)) (n.all .rest)) :
    KeepsPlaces c n where
  kind := map_isSome_eq_of_forall₂ hslots ▸ hkind
  element before e after heq he := by
    obtain ⟨before', k, after', hkids, rfl, hcommas⟩ := exists_split_kids heq
    obtain ⟨i, hi, hplace⟩ := h.element before' k after' hkids he
    obtain ⟨_, hslot, hrel⟩ := exists_getElem?_of_forall₂ hslots hplace
    obtain @⟨_, m, hm⟩ := hrel
    have hnot_rest : isRest k.tree = false := (isElement_iff.mp he).2.2.2
    refine ⟨m, ?_, by simpa [MemberBecomes, memberGoal, memberRole, hnot_rest] using hm⟩
    rw [← hcommas, hi]
    exact hslot
  hole i hi hfree := by
    have hplace : places[i]? = some none := by
      refine h.hole i (hslots.length_eq ▸ hi) fun before k after heq hk => ?_
      rw [← countP_isComma_map]
      refine hfree _ k.tree (after.map Kid.tree) ?_ hk
      rw [← map_tree_kids, heq, List.map_append, List.map_cons]
    obtain ⟨_, hslot, hrel⟩ := exists_getElem?_of_forall₂ hslots hplace
    cases hrel
    exact hslot
  ended hends := by
    rw [← map_tree_kids] at hends ⊢
    rw [← hslots.length_eq, countP_isComma_map]
    exact h.ended hends
  unended hends := by
    rw [← map_tree_kids] at hends ⊢
    rw [← hslots.length_eq, countP_isComma_map]
    exact h.unended hends
  rest e he hrest_e := by
    rw [← map_tree_kids] at he
    obtain ⟨k, hk, rfl⟩ := List.mem_map.mp he
    rw [hc.filter_rest hk hrest_e] at hrest
    obtain ⟨r, _, hr, htail, hall⟩ := List.forall₂_cons_left_iff.mp hrest
    refine ⟨r, ?_, ?_, fun hmem => ?_⟩
    · rw [Node.get?_eq_head?, hall, List.head?_cons]
    · simpa [MemberBecomes, memberGoal, memberRole, hrest_e] using hr
    · have hrole : r.role = .rest := hr.role_eq.trans (memberRole_eq_rest_iff.mpr hrest_e)
      rw [Node.role_of_some_mem_slots hmem] at hrole
      cases hrole
  noRest hnone := by
    have hkids : c.kids.filter (memberRole · == .rest) = [] := by
      refine List.filter_eq_nil_iff.mpr fun k hk hrole => ?_
      have hmem : k.tree ∈ c.children := map_tree_kids ▸ List.mem_map_of_mem hk
      have hk_rest := memberRole_eq_rest_iff.mp (beq_iff_eq.mp hrole)
      simp [hnone _ hmem] at hk_rest
    rw [hkids, List.forall₂_nil_left_iff] at hrest
    rw [Node.get?_eq_head?, hrest, List.head?_nil]

/-- The plan for an array pattern makes a node that keeps places. -/
theorem Punctuated.keepsPlaces_run (hc : Punctuated c.children) (role : Role) (next : Nat) :
    ∃ n, (Step.run (lowerEach c.children) (arrayPattern role c) next).1 = [n] ∧
      KeepsPlaces c n := by
  have hmembers : List.Forall₂ MemberBecomes (itemKids (arrayItems true c.kids)) _ :=
    forall₂_becomes isExact_memberGoal (fun k hk => itemKids_sublist.subset hk) (next + 1)
  rw [← keepLastRest_eq_map (hc.pairwise_kids.sublist itemKids_sublist)] at hmembers
  have helements := forall₂_filter_role hmembers .element
  have hrest := forall₂_filter_role hmembers .rest
  rw [filter_element_itemKids] at helements
  rw [filter_rest_itemKids] at hrest
  have hplaced : PlacedFrom true c.kids (itemPlaces (arrayItems true c.kids)) :=
    Follows.placedFrom (map_tree_kids ▸ hc.follows nofun)
  refine ⟨_, rfl, .of_placedFrom hc hplaced ?_ ?_ ?_⟩
  · rw [itemSlots_eq_map]
  · simp only [Node.slots, itemSlots_eq_map]
    rw [Node.all_arrange (by decide)]
    exact Node.forall₂_fillSlots helements
  · rw [Node.all_rest_arrange]
    exact hrest

/-- An array pattern with commas between all elements and a rest element last is lowered to a node
in which every element keeps its place. -/
theorem array_elements_keep_places (c : Cst) (hkind : c.kind = "array_pattern" ∨ c.kind = "array")
    (hc : Punctuated c.children) {goal : Goal} (hgoal : goal = .pattern ∨ goal = .target)
    (role : Role) (next : Nat) :
    ∃ n, (c.lower goal role next).1 = [n] ∧ KeepsPlaces c n := by
  have hsteps : steps goal role c = [arrayPattern role c] := by
    rcases hgoal with rfl | rfl <;> rcases hkind with hkind | hkind <;>
      simp [steps, target, pattern, hkind]
  obtain ⟨n, hn, hkeeps⟩ := hc.keepsPlaces_run role next
  refine ⟨n, ?_, hkeeps⟩
  obtain ⟨kind, isNamed, field, span, text, children⟩ := c
  rw [lower]
  simp only [hsteps, Step.runAll, hn, List.append_nil]

/-- The tree of `[, a, /*i*/ b, ...r]`. -/
private def gappedPattern : Cst :=
  ⟨"array_pattern", true, "name", ⟨0, 20⟩, "[, a, /*i*/ b, ...r]", [
    ⟨"[", false, "", ⟨0, 1⟩, "[", []⟩,
    ⟨",", false, "", ⟨1, 2⟩, ",", []⟩,
    ⟨"identifier", true, "", ⟨3, 4⟩, "a", []⟩,
    ⟨",", false, "", ⟨4, 5⟩, ",", []⟩,
    ⟨"comment", true, "", ⟨6, 11⟩, "/*i*/", []⟩,
    ⟨"identifier", true, "", ⟨12, 13⟩, "b", []⟩,
    ⟨",", false, "", ⟨13, 14⟩, ",", []⟩,
    ⟨"rest_pattern", true, "", ⟨15, 19⟩, "...r", [
      ⟨"...", false, "", ⟨15, 18⟩, "...", []⟩,
      ⟨"identifier", true, "", ⟨18, 19⟩, "r", []⟩]⟩,
    ⟨"]", false, "", ⟨19, 20⟩, "]", []⟩]⟩

/-- A hole, two elements with a comment between them and a rest element. -/
theorem gapped_pattern_keeps_places :
    (gappedPattern.kind = "array_pattern" ∨ gappedPattern.kind = "array") ∧
      Punctuated gappedPattern.children ∧ (Goal.pattern = .pattern ∨ Goal.pattern = .target) ∧
      ∃ n, (gappedPattern.lower .pattern .binding 1).1 = [n] ∧ KeepsPlaces gappedPattern n :=
  have hc : Punctuated gappedPattern.children := ⟨by decide, by decide, by decide⟩
  ⟨.inl rfl, hc, .inl rfl,
    array_elements_keep_places gappedPattern (.inl rfl) hc (.inl rfl) .binding 1⟩

end Cst

end TsxLint
