import TsxLint.Lowering.Lower
import Mathlib.Data.List.Nodup

/-!
# Node numbers

Carrying out a plan hands out numbers in a row: the nodes that a step makes, with everything inside
them, have distinct numbers between the number that was free before and the one that is free
afterwards. This holds of every step whatever the plans say, so the nodes of a lowered file have
distinct numbers.

## Main definitions

* `Numbered`: nodes whose numbers are distinct and lie in a range.

## Main results

* `Step.run_numbered`, `Step.runAll_numbered`: a step hands out numbers in a row.
* `Program.ofCst_nodup`: no two nodes of a lowered file have the same number.
-/

namespace TsxLint

namespace Node

theorem preorderAll_eq_flatMap : (ns : List Node) → preorderAll ns = ns.flatMap preorder
  | [] => rfl
  | n :: ns => by rw [preorderAll, List.flatMap_cons, preorderAll_eq_flatMap ns]

end Node

/-- The nodes and everything inside them have distinct numbers, from `lo` on and below `hi`. -/
structure Numbered (lo hi : Nat) (ns : List Node) : Prop where
  le : lo ≤ hi
  nodup : ((Node.preorderAll ns).map Node.id).Nodup
  bounds : ∀ n ∈ Node.preorderAll ns, lo ≤ n.id ∧ n.id < hi

namespace Numbered

theorem nil {lo hi : Nat} (h : lo ≤ hi) : Numbered lo hi [] :=
  ⟨h, List.nodup_nil, by simp [Node.preorderAll]⟩

theorem append {lo mid hi : Nat} {ns ms : List Node} (hns : Numbered lo mid ns)
    (hms : Numbered mid hi ms) : Numbered lo hi (ns ++ ms) := by
  have happ : Node.preorderAll (ns ++ ms) = Node.preorderAll ns ++ Node.preorderAll ms := by
    simp only [Node.preorderAll_eq_flatMap, List.flatMap_append]
  refine ⟨Nat.le_trans hns.le hms.le, ?_, ?_⟩
  · rw [happ, List.map_append, List.nodup_append]
    refine ⟨hns.nodup, hms.nodup, ?_⟩
    intro a ha b hb hab
    obtain ⟨n, hn, rfl⟩ := List.mem_map.mp ha
    obtain ⟨m, hm, rfl⟩ := List.mem_map.mp hb
    have hlt := (hns.bounds n hn).2
    have hge := (hms.bounds m hm).1
    omega
  · intro n hn
    rw [happ] at hn
    rcases List.mem_append.mp hn with hn | hn
    · exact ⟨(hns.bounds n hn).1, Nat.lt_of_lt_of_le (hns.bounds n hn).2 hms.le⟩
    · exact ⟨Nat.le_trans hns.le (hms.bounds n hn).1, (hms.bounds n hn).2⟩

/-- The order of the nodes does not matter. -/
theorem perm {lo hi : Nat} {ns ms : List Node} (h : Numbered lo hi ns) (hp : ns.Perm ms) :
    Numbered lo hi ms := by
  have hpre : (Node.preorderAll ns).Perm (Node.preorderAll ms) := by
    simpa only [Node.preorderAll_eq_flatMap] using hp.flatMap_right Node.preorder
  exact ⟨h.le, (hpre.map Node.id).nodup_iff.mp h.nodup,
    fun n hn => h.bounds n (hpre.mem_iff.mpr hn)⟩

/-- A node that takes the first number of a range, its parts the others. -/
theorem node {lo hi : Nat} {children : List Node} (h : Numbered (lo + 1) hi children) (role : Role)
    (kind : Kind) (span : Span) : Numbered lo hi [⟨role, lo, kind, span, children⟩] := by
  have hpre : Node.preorderAll [⟨role, lo, kind, span, children⟩] =
      ⟨role, lo, kind, span, children⟩ :: Node.preorderAll children := by
    simp only [Node.preorderAll, Node.preorder, List.append_nil]
  have hle := h.le
  refine ⟨by omega, ?_, ?_⟩
  · rw [hpre, List.map_cons, List.nodup_cons]
    refine ⟨?_, h.nodup⟩
    intro hmem
    obtain ⟨n, hn, hid⟩ := List.mem_map.mp hmem
    have hlo : lo + 1 ≤ n.id := (h.bounds n hn).1
    have hid : n.id = lo := hid
    omega
  · intro n hn
    rw [hpre] at hn
    rcases List.mem_cons.mp hn with rfl | hn
    · exact ⟨Nat.le_refl lo, hle⟩
    · exact ⟨Nat.le_of_succ_le (h.bounds n hn).1, (h.bounds n hn).2⟩

end Numbered

namespace Step

/-- Arranging parts drops none of them. -/
theorem arrange_perm (parts : List Node) : (arrange parts).Perm parts := by
  have h := List.filter_append_perm (fun n : Node => n.role != .rest) parts
  have hrest : (fun n : Node => n.role == .rest) = fun n => !(n.role != .rest) := by
    funext n
    rw [bne, Bool.not_not]
  rwa [arrange, hrest]

/-- What lowering a child does hands out numbers in a row. -/
def Numbers (lower : Lowering) : Prop :=
  ∀ goal role next, Numbered next (lower goal role next).2 (lower goal role next).1

mutual

theorem run_numbered {kids : List Lowering} (hkids : ∀ lower ∈ kids, Numbers lower) :
    (step : Step) → (next : Nat) →
    Numbered next (run kids step next).2 (run kids step next).1
  | .node role kind span parts, next => by
    rw [run]
    exact ((runAll_numbered hkids parts (next + 1)).perm (arrange_perm _).symm).node role kind span
  | .child role index goal, next => by
    rw [run]
    cases hk : kids[index]? with
    | none => exact .nil (Nat.le_refl next)
    | some lower => exact hkids lower (List.mem_of_getElem? hk) goal role next
  | .lost steps, next => by
    rw [run]
    exact .nil (runAll_numbered hkids steps next).le

theorem runAll_numbered {kids : List Lowering} (hkids : ∀ lower ∈ kids, Numbers lower) :
    (steps : List Step) → (next : Nat) →
    Numbered next (runAll kids steps next).2 (runAll kids steps next).1
  | [], next => by
    rw [runAll]
    exact .nil (Nat.le_refl next)
  | step :: steps, next => by
    rw [runAll]
    exact (run_numbered hkids step next).append (runAll_numbered hkids steps _)

end

end Step

mutual

theorem Cst.lower_numbers : (c : Cst) → Step.Numbers c.lower
  | ⟨kind, isNamed, field, span, text, children⟩ => by
    intro goal role next
    rw [Cst.lower]
    exact Step.runAll_numbered (Cst.lowerEach_numbers children) _ next

theorem Cst.lowerEach_numbers : (cs : List Cst) → ∀ lower ∈ Cst.lowerEach cs, Step.Numbers lower
  | [] => by simp [Cst.lowerEach]
  | c :: cs => by
    intro lower hmem
    rw [Cst.lowerEach] at hmem
    rcases List.mem_cons.mp hmem with rfl | hmem
    · exact Cst.lower_numbers c
    · exact Cst.lowerEach_numbers cs lower hmem

end

/-- The root of a lowered file has number zero and the other nodes the numbers after it. -/
theorem Program.ofCst_numbered (c : Cst) :
    Numbered 0 (Program.ofCst c).nodeCount [(Program.ofCst c).root] :=
  (Cst.lower_numbers c (.each .statement) .statement 1).node .root .program c.span

/-- No two nodes of a lowered file have the same number. -/
theorem Program.ofCst_nodup (c : Cst) : ((Program.ofCst c).root.preorder.map Node.id).Nodup := by
  have h := (Program.ofCst_numbered c).nodup
  rwa [Node.preorderAll_eq_flatMap, List.flatMap_singleton] at h

end TsxLint
