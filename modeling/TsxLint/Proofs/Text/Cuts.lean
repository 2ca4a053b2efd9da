import Mathlib.Data.String.Basic
import TsxLint.Naming.Case
import TsxLint.Text.Span

/-!
# Cuts

A text is cut at a word that it begins or ends with, at the first occurrence of a word, or after a
number of bytes. Each cut is described by how the text is put together again: what was cut off comes
before or after the rest, and its length in bytes is the place of the cut. Characters have at least
one byte, so a text is cut in one way only.

## Main definitions

* `Text.IsFirst`: the first occurrence of a word in a text.
* `Text.IsBoundary`: an offset between two characters, or at either end.

## Main results

* `Text.stripStart?_eq_some_iff`, `Text.stripEnd?_eq_some_iff`: cuts at a word.
* `Text.hasWordStart_iff`: names that go on after a word.
* `Text.cutAt?_eq_some_iff`, `Text.cutAt?_eq_none_iff`: cuts at the first occurrence of a word.
* `Text.takeBytes?_eq_some_iff`, `Text.dropBytes?_eq_some_iff`: cuts after a number of bytes.
* `Text.slice?_eq_some_iff`: what lies between two places.
* `Text.exists_slice?_of_boundaries`: what lies between two boundaries further out.
* `Text.append_inj_of_utf8Len`: texts cut at the same place have the same parts.
-/

namespace TsxLint.Text

open String (utf8Len)

/-! ### Words at either end -/

theorem after?_eq_some_iff {start cs rest : List Char} :
    after? start cs = some rest ↔ cs = start ++ rest := by
  induction start generalizing cs with
  | nil => simp [after?]
  | cons a start ih =>
    cases cs with
    | nil => simp [after?]
    | cons c cs =>
      rw [after?]
      split_ifs with hc
      · rw [ih, hc, List.cons_append, List.cons.injEq, and_iff_right rfl]
      · simp [Ne.symm hc]

variable {s start tail rest : String}

theorem stripStart?_eq_some_iff : stripStart? s start = some rest ↔ s = start ++ rest := by
  simp only [stripStart?, Option.map_eq_some_iff, after?_eq_some_iff, ← String.toList_inj,
    String.toList_append]
  constructor
  · rintro ⟨cs, hs, hrest⟩
    rw [hs, ← hrest, String.toList_ofList]
  · intro hs
    exact ⟨rest.toList, hs, String.toList_ofList⟩

theorem startsWith_iff : startsWith s start = true ↔ ∃ rest, s = start ++ rest := by
  simp only [← stripStart?_eq_some_iff, ← Option.isSome_iff_exists, stripStart?, Option.isSome_map,
    startsWith]

theorem stripEnd?_eq_some_iff : stripEnd? s tail = some rest ↔ s = rest ++ tail := by
  simp only [stripEnd?, Option.map_eq_some_iff, after?_eq_some_iff, ← String.toList_inj,
    String.toList_append]
  constructor
  · rintro ⟨cs, hs, hrest⟩
    rw [← hrest, String.toList_ofList, ← List.reverse_inj, hs, List.reverse_append,
      List.reverse_reverse]
  · intro hs
    exact ⟨rest.toList.reverse, by rw [hs, List.reverse_append],
      by rw [List.reverse_reverse, String.toList_ofList]⟩

theorem endsWith_iff : endsWith s tail = true ↔ ∃ rest, s = rest ++ tail := by
  simp only [← stripEnd?_eq_some_iff, ← Option.isSome_iff_exists, stripEnd?, Option.isSome_map,
    endsWith]

/-- A name that begins with a word and goes on after it. -/
theorem hasWordStart_iff {name word : String} : Naming.hasWordStart name word = true ↔
    ∃ rest, rest ≠ "" ∧ name = word ++ rest := by
  unfold Naming.hasWordStart
  constructor
  · intro h
    split at h
    · rename_i rest hrest
      exact ⟨rest, bne_iff_ne.mp h, stripStart?_eq_some_iff.mp hrest⟩
    · cases h
  · rintro ⟨rest, hne, hname⟩
    rw [stripStart?_eq_some_iff.mpr hname]
    exact bne_iff_ne.mpr hne

/-! ### The first occurrence of a word -/

variable {sub cs before after : List Char}

theorem after?_eq_none_iff {start : List Char} : after? start cs = none ↔ ¬start <+: cs := by
  rw [← not_iff_not, not_not, ← ne_eq, Option.ne_none_iff_exists']
  exact exists_congr fun rest => after?_eq_some_iff.trans eq_comm

theorem cutAt?_eq_none_iff : cutAt? sub cs = none ↔ ¬sub <:+: cs := by
  induction cs with
  | nil => simp [cutAt?]
  | cons c cs ih =>
    rw [cutAt?, List.infix_cons_iff, not_or]
    cases hafter : after? sub (c :: cs) with
    | none => simp [ih, after?_eq_none_iff.mp hafter]
    | some rest =>
      have hstarts : sub <+: c :: cs := ⟨rest, (after?_eq_some_iff.mp hafter).symm⟩
      simp [hstarts]

/-- Whether a word that stands between two parts of a text occurs nowhere further to the left. -/
def IsFirst (sub before after : List Char) : Prop :=
  ∀ other rest, before ++ sub ++ after = other ++ sub ++ rest → before.length ≤ other.length

/-- The first occurrence is in one place. -/
theorem IsFirst.unique {before' after' : List Char} (h : IsFirst sub before after)
    (h' : IsFirst sub before' after') (heq : before ++ sub ++ after = before' ++ sub ++ after') :
    before = before' ∧ after = after' := by
  have hlen : before.length = before'.length := Nat.le_antisymm (h _ _ heq) (h' _ _ heq.symm)
  rw [List.append_assoc, List.append_assoc] at heq
  obtain ⟨hbefore, hrest⟩ := List.append_inj heq hlen
  exact ⟨hbefore, List.append_cancel_left hrest⟩

theorem cutAt?_spec (h : cutAt? sub cs = some (before, after)) :
    cs = before ++ sub ++ after ∧ IsFirst sub before after := by
  induction cs generalizing before with
  | nil =>
    rw [cutAt?] at h
    split_ifs at h with hsub
    obtain ⟨rfl, rfl⟩ := Prod.mk.inj (Option.some.inj h)
    exact ⟨by simp [hsub], fun _ _ _ => Nat.zero_le _⟩
  | cons c cs ih =>
    rw [cutAt?] at h
    split at h
    · rename_i rest hrest
      obtain ⟨rfl, rfl⟩ := Prod.mk.inj (Option.some.inj h)
      exact ⟨after?_eq_some_iff.mp hrest, fun _ _ _ => Nat.zero_le _⟩
    · rename_i hnone
      obtain ⟨⟨first, last⟩, hcut, heq⟩ := Option.map_eq_some_iff.mp h
      obtain ⟨rfl, rfl⟩ := Prod.mk.inj heq
      obtain ⟨hcs, hfirst⟩ := ih hcut
      refine ⟨congrArg (c :: ·) hcs, fun other rest hother => ?_⟩
      cases other with
      | nil =>
        have hstart : sub ++ rest = c :: cs := hother.symm.trans (congrArg (c :: ·) hcs.symm)
        exact absurd ⟨rest, hstart⟩ (after?_eq_none_iff.mp hnone)
      | cons d other => exact Nat.succ_le_succ (hfirst other rest (List.cons.inj hother).2)

/-- A text is cut at the first occurrence of a word. -/
theorem cutAt?_eq_some_iff : cutAt? sub cs = some (before, after) ↔
    cs = before ++ sub ++ after ∧ IsFirst sub before after := by
  refine ⟨cutAt?_spec, fun ⟨hcs, hfirst⟩ => ?_⟩
  cases hcut : cutAt? sub cs with
  | none => exact absurd ⟨before, after, hcs.symm⟩ (cutAt?_eq_none_iff.mp hcut)
  | some found =>
    obtain ⟨hcs', hfirst'⟩ := cutAt?_spec hcut
    obtain ⟨hbefore, hafter⟩ := hfirst.unique hfirst' (hcs.symm.trans hcs')
    rw [hbefore, hafter]

/-! ### Numbers of bytes -/

/-- Texts cut at the same place have the same parts. -/
theorem append_inj_of_utf8Len {a b c d : List Char} (h : a ++ b = c ++ d)
    (hlen : utf8Len a = utf8Len c) : a = c ∧ b = d := by
  induction a generalizing c with
  | nil =>
    obtain rfl := String.utf8Len_eq_zero.mp hlen.symm
    exact ⟨rfl, h⟩
  | cons x a ih =>
    cases c with
    | nil =>
      have := x.utf8Size_pos
      simp only [String.utf8Len_cons, String.utf8Len_nil] at hlen
      omega
    | cons y c =>
      obtain ⟨rfl, htail⟩ := List.cons.inj h
      obtain ⟨rfl, hrest⟩ := ih htail (Nat.add_right_cancel hlen)
      exact ⟨rfl, hrest⟩

theorem append_inj_of_utf8ByteSize {a b c d : String} (h : a ++ b = c ++ d)
    (hsize : a.utf8ByteSize = c.utf8ByteSize) : a = c ∧ b = d := by
  rw [← String.toList_inj, String.toList_append, String.toList_append] at h
  rw [← String.utf8Len_toList, ← String.utf8Len_toList] at hsize
  exact (append_inj_of_utf8Len h hsize).imp String.toList_inj.mp String.toList_inj.mp

/-- Two words of the same length that a text starts with are the same. -/
theorem eq_of_startsWith {a b : String} (ha : startsWith s a = true) (hb : startsWith s b = true)
    (hsize : a.utf8ByteSize = b.utf8ByteSize) : a = b := by
  obtain ⟨afterA, rfl⟩ := startsWith_iff.mp ha
  obtain ⟨afterB, hs⟩ := startsWith_iff.mp hb
  exact (append_inj_of_utf8ByteSize hs hsize).1

/-- Of two cuts, the first part of the earlier one begins that of the later one. -/
theorem exists_append_of_utf8Len_le {a b c d : List Char} (h : a ++ b = c ++ d)
    (hlen : utf8Len a ≤ utf8Len c) : ∃ between, c = a ++ between ∧ b = between ++ d := by
  rcases List.append_eq_append_iff.mp h with hbetween | ⟨between, rfl, rfl⟩
  · exact hbetween
  · rw [String.utf8Len_append] at hlen
    obtain rfl : between = [] := String.utf8Len_eq_zero.mp (by omega)
    exact ⟨[], by simp, rfl⟩

/-- An offset between two characters of a source, or at either end. -/
def IsBoundary (source : String) (offset : Nat) : Prop :=
  ∃ first rest, source.toList = first ++ rest ∧ utf8Len first = offset

variable {first last : List Char} {n : Nat}

theorem dropBytes?_append (first last : List Char) :
    dropBytes? (first ++ last) (utf8Len first) = some last := by
  induction first with
  | nil => simp [dropBytes?]
  | cons c first ih =>
    have := c.utf8Size_pos
    obtain ⟨m, hm⟩ : ∃ m, utf8Len first + c.utf8Size = m + 1 :=
      ⟨_, (Nat.sub_add_cancel (by omega)).symm⟩
    rw [String.utf8Len_cons, hm, List.cons_append, dropBytes?, if_pos (by omega), ← hm,
      Nat.add_sub_cancel, ih]

theorem takeBytes?_append (first last : List Char) :
    takeBytes? (first ++ last) (utf8Len first) = some first := by
  induction first with
  | nil => simp [takeBytes?]
  | cons c first ih =>
    have := c.utf8Size_pos
    obtain ⟨m, hm⟩ : ∃ m, utf8Len first + c.utf8Size = m + 1 :=
      ⟨_, (Nat.sub_add_cancel (by omega)).symm⟩
    rw [String.utf8Len_cons, hm, List.cons_append, takeBytes?, if_pos (by omega), ← hm,
      Nat.add_sub_cancel, ih, Option.map_some]

theorem dropBytes?_eq_some_iff : dropBytes? cs n = some last ↔
    ∃ first, cs = first ++ last ∧ utf8Len first = n := by
  constructor
  · intro h
    fun_induction dropBytes? cs n with
    | case1 cs => exact ⟨[], Option.some.inj h, String.utf8Len_nil⟩
    | case2 n => cases h
    | case3 c cs n hc ih =>
      obtain ⟨first, rfl, hlen⟩ := ih h
      exact ⟨c :: first, rfl, by rw [String.utf8Len_cons]; omega⟩
    | case4 c cs n hc => cases h
  · rintro ⟨first, rfl, rfl⟩
    exact dropBytes?_append first last

theorem takeBytes?_eq_some_iff : takeBytes? cs n = some first ↔
    ∃ last, cs = first ++ last ∧ utf8Len first = n := by
  constructor
  · intro h
    fun_induction takeBytes? cs n generalizing first with
    | case1 cs =>
      obtain rfl := Option.some.inj h
      exact ⟨cs, rfl, String.utf8Len_nil⟩
    | case2 n => cases h
    | case3 c cs n hc ih =>
      obtain ⟨rest, hrest, rfl⟩ := Option.map_eq_some_iff.mp h
      obtain ⟨last, rfl, hlen⟩ := ih hrest
      exact ⟨last, rfl, by rw [String.utf8Len_cons]; omega⟩
    | case4 c cs n hc => cases h
  · rintro ⟨last, rfl, rfl⟩
    exact takeBytes?_append first last

theorem slice?_eq_some_iff {start stop : Nat} {middle : List Char} :
    slice? cs start stop = some middle ↔ ∃ before after, cs = before ++ middle ++ after ∧
      utf8Len before = start ∧ start + utf8Len middle = stop := by
  unfold slice?
  constructor
  · intro h
    split_ifs at h with hle
    obtain ⟨rest, hrest, hmiddle⟩ := Option.bind_eq_some_iff.mp h
    obtain ⟨before, rfl, hbefore⟩ := dropBytes?_eq_some_iff.mp hrest
    obtain ⟨after, rfl, hlen⟩ := takeBytes?_eq_some_iff.mp hmiddle
    exact ⟨before, after, (List.append_assoc ..).symm, hbefore, by omega⟩
  · rintro ⟨before, after, rfl, rfl, rfl⟩
    rw [if_pos (Nat.le_add_right ..), List.append_assoc, dropBytes?_append, Option.bind_some,
      Nat.add_sub_cancel_left, takeBytes?_append]

/-- What lies between two places lies between any two boundaries around them. -/
theorem exists_slice?_of_boundaries {source : String} {start stop outerStart outerStop : Nat}
    {before middle after : List Char} (hsource : source.toList = before ++ middle ++ after)
    (hstart : utf8Len before = start) (hstop : start + utf8Len middle = stop)
    (houterStart : IsBoundary source outerStart) (houterStop : IsBoundary source outerStop)
    (hle : outerStart ≤ start) (hge : stop ≤ outerStop) :
    ∃ outside inside inside' outside', before = outside ++ inside ∧ after = inside' ++ outside' ∧
      slice? source.toList outerStart outerStop = some (inside ++ middle ++ inside') := by
  obtain ⟨outside, rest, hfirst, rfl⟩ := houterStart
  obtain ⟨first', outside', hlast, rfl⟩ := houterStop
  rw [← hstart] at hle
  rw [← hstop, ← hstart, ← String.utf8Len_append] at hge
  obtain ⟨inside, rfl, -⟩ := exists_append_of_utf8Len_le
    (hfirst.symm.trans (hsource.trans (List.append_assoc ..))) hle
  obtain ⟨inside', rfl, rfl⟩ := exists_append_of_utf8Len_le (hsource.symm.trans hlast) hge
  refine ⟨outside, inside, inside', outside', rfl, rfl, slice?_eq_some_iff.mpr
    ⟨outside, outside', ?_, rfl, ?_⟩⟩
  · simp only [hsource, List.append_assoc]
  · simp only [String.utf8Len_append]
    omega

end TsxLint.Text
