import TsxLint.Proofs.Lowering.NodeForms
import TsxLint.Proofs.Text.Words

/-!
# The texts of nodes

A check may look at the text under a node in place of what is inside the node. For the two to agree
on names, the concrete tree has to be one of the source: each node has the text that the source has
in its range, and a name stands apart from what is around it, so that it is a word of the text. Then
every name inside a lowered node is a word of the text under that node.

## Main definitions

* `Cst.ReadFrom`: a concrete node that says what the source does.

## Main results

* `Program.ofCst_boundaries`: lowered nodes start and stop between characters.
* `Program.exists_text_of_name`: the names inside a node stand apart in its text.
-/

namespace TsxLint

open String (utf8Len)

/-! ### Concrete trees of a source -/

namespace Cst

/-- A concrete node with the text that a source has in its range. A name that is not missing stands
apart from the text before and after it. -/
structure ReadFrom (source : String) (c : Cst) : Prop where
  text : Text.slice? source.toList c.span.start c.span.stop = some c.text.toList
  apart : c.isName = true → c.text ≠ "" → ∀ before ∈ Text.takeBytes? source.toList c.span.start,
    ∀ after ∈ Text.dropBytes? source.toList c.span.stop, Text.StandsApart before after

variable {source : String} {c : Cst}

instance : Decidable (c.ReadFrom source) :=
  decidable_of_iff (Text.slice? source.toList c.span.start c.span.stop = some c.text.toList ∧
      (c.isName = true → c.text ≠ "" →
        ∀ before ∈ Text.takeBytes? source.toList c.span.start,
        ∀ after ∈ Text.dropBytes? source.toList c.span.stop, Text.StandsApart before after))
    ⟨fun h => ⟨h.1, h.2⟩, fun h => ⟨h.text, h.apart⟩⟩

namespace ReadFrom

variable (h : c.ReadFrom source)
include h

theorem exists_eq_append : ∃ before after, source.toList = before ++ c.text.toList ++ after ∧
    utf8Len before = c.span.start ∧ c.span.start + utf8Len c.text.toList = c.span.stop :=
  Text.slice?_eq_some_iff.mp h.text

theorem isBoundary_start : Text.IsBoundary source c.span.start := by
  obtain ⟨before, after, hsource, hstart, -⟩ := h.exists_eq_append
  exact ⟨before, c.text.toList ++ after, by rw [hsource, List.append_assoc], hstart⟩

theorem isBoundary_stop : Text.IsBoundary source c.span.stop := by
  obtain ⟨before, after, hsource, hstart, hstop⟩ := h.exists_eq_append
  exact ⟨before ++ c.text.toList, after, hsource, by rw [String.utf8Len_append, ← hstop, hstart]⟩

theorem standsApart (hname : c.isName = true) (hne : c.text ≠ "") {before after : List Char}
    (hsource : source.toList = before ++ c.text.toList ++ after)
    (hstart : utf8Len before = c.span.start)
    (hstop : c.span.start + utf8Len c.text.toList = c.span.stop) :
    Text.StandsApart before after := by
  have htotal : utf8Len (before ++ c.text.toList) = c.span.stop := by
    rw [String.utf8Len_append, hstart, hstop]
  refine h.apart hname hne before ?_ after ?_
  · rw [← hstart, hsource, List.append_assoc]
    exact Text.takeBytes?_append before _
  · rw [← htotal, hsource]
    exact Text.dropBytes?_append _ after

end ReadFrom

end Cst

/-! ### Lowered nodes -/

namespace Node

mutual

/-- What is inside a node lies in it, if all nodes nest. -/
theorem contains_of_mem_preorder : (outer : Node) → (∀ m ∈ outer.preorder, m.Nests) →
    ∀ n ∈ outer.preorder, outer.span.contains n.span = true
  | ⟨role, id, kind, span, children⟩, hnests, n, hn => by
    obtain ⟨hself, hinside⟩ := forall_mem_preorder.mp hnests
    rw [preorder] at hn
    rcases List.mem_cons.mp hn with rfl | hn
    · exact Span.contains_self _
    · obtain ⟨child, hchild, hcontains⟩ := contains_of_mem_preorderAll children hinside n hn
      exact Span.contains_trans (hself child hchild).inside hcontains

theorem contains_of_mem_preorderAll : (ns : List Node) →
    (∀ child ∈ ns, ∀ m ∈ child.preorder, m.Nests) →
    ∀ n ∈ preorderAll ns, ∃ child ∈ ns, child.span.contains n.span = true
  | [], _, n, hn => by simp [preorderAll] at hn
  | child :: ns, hnests, n, hn => by
    obtain ⟨hchild, hns⟩ := List.forall_mem_cons.mp hnests
    rw [preorderAll] at hn
    rcases List.mem_append.mp hn with hn | hn
    · exact ⟨child, List.mem_cons_self, contains_of_mem_preorder child hchild n hn⟩
    · obtain ⟨other, hother, hcontains⟩ := contains_of_mem_preorderAll ns hns n hn
      exact ⟨other, List.mem_cons_of_mem child hother, hcontains⟩

end

end Node

/-- A node that starts where some node of a concrete tree starts, and stops where one stops. -/
structure Node.EndsIn (root : Cst) (n : Node) : Prop where
  start : ∃ d ∈ root.preorder, d.span.start = n.span.start
  stop : ∃ d ∈ root.preorder, d.span.stop = n.span.stop

section

variable {root c : Cst}

theorem Cst.mem_preorder_of_mem_kids {k : Kid} (hk : k ∈ c.kids) : k.tree ∈ c.preorder :=
  mem_preorder_of_mem_children (List.mem_of_getElem? (getElem?_of_mem_kids hk))
    k.tree.mem_preorder_self

/-- A node at the place of a concrete node. -/
theorem Node.endsIn_of_span_eq {d : Cst} (hd : d ∈ root.preorder) {n : Node}
    (hspan : n.span = d.span) : n.EndsIn root :=
  ⟨⟨d, hd, by rw [hspan]⟩, ⟨d, hd, by rw [hspan]⟩⟩

theorem Node.EndsIn.mono {n : Node} (h : n.EndsIn c) (hc : c.preorder ⊆ root.preorder) :
    n.EndsIn root :=
  ⟨h.start.imp fun _ hd => ⟨hc hd.1, hd.2⟩, h.stop.imp fun _ hd => ⟨hc hd.1, hd.2⟩⟩

/-- A planned node starts and stops where the concrete node or one of its children does. -/
theorem Step.Planned.endsIn {role : Role} {kind : Kind} {span : Span} {parts : List Step}
    (hs : (Step.node role kind span parts).Planned c) (id : Nat) (children : List Node) :
    Node.EndsIn c ⟨role, id, kind, span, children⟩ := by
  cases hs with
  | here hparts hparams => exact Node.endsIn_of_span_eq c.mem_preorder_self rfl
  | leaf hk => exact Node.endsIn_of_span_eq (Cst.mem_preorder_of_mem_kids hk) rfl
  | around hk hgoal => exact Node.endsIn_of_span_eq (Cst.mem_preorder_of_mem_kids hk) rfl
  | naming hk => exact Node.endsIn_of_span_eq (Cst.mem_preorder_of_mem_kids hk) rfl
  | withDefault hdefault =>
    obtain ⟨hpattern, hvalue⟩ := Cst.mem_kids_of_default? hdefault
    exact ⟨⟨_, Cst.mem_preorder_of_mem_kids hpattern, rfl⟩,
      ⟨_, Cst.mem_preorder_of_mem_kids hvalue, rfl⟩⟩

theorem endsIn_invariant : LoweringInvariant (fun c _ n => ∀ m ∈ n.preorder, m.EndsIn c)
    (fun c s n => s.Planned c → ∀ m ∈ n.preorder, m.EndsIn c) where
  node := by
    intro c role id kind span parts children hparts hs
    refine Node.forall_mem_preorder.mpr ⟨hs.endsIn id children, fun child hchild => ?_⟩
    obtain ⟨s, hs', hn⟩ := hparts child hchild
    exact hn (hs.allFit_parts s hs').1
  child := by
    intro c role index goal child n hchild hn hs m hm
    exact (hn m hm).mono fun d hd =>
      Cst.mem_preorder_of_mem_children (List.mem_of_getElem? hchild) hd
  plan := by
    intro c goal role n s hs hn
    exact hn (Plan.allFit_steps goal s hs).1

end

namespace Program

variable {c : Cst} {n : Node}

theorem ofCst_endsIn (hn : n ∈ (ofCst c).root.preorder) : n.EndsIn c := by
  have hall : ∀ n ∈ (ofCst c).root.preorder, n.EndsIn c := by
    refine Node.forall_mem_preorder.mpr ⟨Node.endsIn_of_span_eq c.mem_preorder_self rfl, ?_⟩
    exact fun child hchild => endsIn_invariant.lower c child hchild
  exact hall n hn

variable {source : String} (hread : ∀ d ∈ c.preorder, d.ReadFrom source)
include hread

/-- Lowered nodes start and stop between characters. -/
theorem ofCst_boundaries (hn : n ∈ (ofCst c).root.preorder) :
    Text.IsBoundary source n.span.start ∧ Text.IsBoundary source n.span.stop := by
  obtain ⟨⟨d, hd, hstart⟩, ⟨e, he, hstop⟩⟩ := ofCst_endsIn hn
  rw [← hstart, ← hstop]
  exact ⟨(hread d hd).isBoundary_start, (hread e he).isBoundary_stop⟩

/-- The names inside a lowered node stand apart in the text under the node. -/
theorem exists_text_of_name (hplace : c.AllInPlace) {outer : Node}
    (houter : outer ∈ (ofCst c).root.preorder) (hn : n ∈ outer.preorder) {name : String}
    (hkind : n.kind = .identifierReference name) (hne : name ≠ "") :
    ∃ before after, (outer.span.textIn source).toList = before ++ name.toList ++ after ∧
      Text.StandsApart before after := by
  have hn' : n ∈ (ofCst c).root.preorder :=
    (Node.preorder_sublist_of_mem _ houter).subset hn
  have hnests : ∀ m ∈ outer.preorder, m.Nests := fun m hm =>
    ofCst_nests hplace m ((Node.preorder_sublist_of_mem _ houter).subset hm)
  obtain ⟨hle, hge⟩ := Span.contains_iff.mp (outer.contains_of_mem_preorder hnests n hn)
  obtain ⟨d, hd, hname, rfl, hspan⟩ := ofCst_names hn' hkind
  rw [← hspan] at hle hge
  obtain ⟨before, after, hsource, hstart, hstop⟩ := (hread d hd).exists_eq_append
  have hapart := (hread d hd).standsApart hname hne hsource hstart hstop
  obtain ⟨houterStart, houterStop⟩ := ofCst_boundaries hread houter
  obtain ⟨outside, inside, inside', outside', rfl, rfl, hslice⟩ :=
    Text.exists_slice?_of_boundaries hsource hstart hstop houterStart houterStop hle hge
  refine ⟨inside, inside', ?_, hapart.of_append⟩
  rw [Span.textIn, hslice, Option.getD_some, String.toList_ofList]

end Program

end TsxLint
