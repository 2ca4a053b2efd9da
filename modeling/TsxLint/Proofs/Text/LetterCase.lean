import Mathlib.Data.String.Basic
import TsxLint.Text.Blank
import TsxLint.Text.Case

/-!
# Lower case

In lower case a text may get longer or shorter, and a capital sigma looks at its neighbours. But what
is in lower case stays as it is: no table changes a character that another entry leads to, which is
read off the stretches of code points in the tables.

Letters and digits of ASCII stand in ranges, so that facts about them are facts about numbers. Each
ASCII character is lowered by itself to one character of the same length.

## Main definitions

* `Text.CaseRun.misses`: a run whose images another one does not change.
* `Text.IsAscii`: a text of ASCII characters.

## Main results

* `Text.lowerChar_of_mem_lowerFrom`: a text in lower case is made of characters in lower case.
* `Text.lower_eq_self`: such a text stays as it is.
* `Text.lower_append`: the parts of an ASCII text are lowered one by one.
* `Text.utf8ByteSize_lower`: an ASCII text keeps its length.
-/

namespace TsxLint.Text

/-! ### Characters in lower case -/

/-- Whether no image of one run is a code point of another. Most runs lie apart; the images of the
others are tried one by one. -/
def CaseRun.misses (r s : CaseRun) : Bool :=
  s.last.blt r.image || (r.image + (r.last - r.first)).blt s.first ||
    (List.range (r.last - r.first + 1)).all fun i =>
      i % r.step != 0 || (s.map? (r.image + i)).isNone

theorem CaseRun.map?_eq_none_of_misses {r s : CaseRun} (h : r.misses s = true) {n image : Nat}
    (himage : r.map? n = some image) : s.map? image = none := by
  unfold map? at himage
  split_ifs at himage with hn
  obtain rfl := Option.some.inj himage
  simp only [misses, Bool.or_eq_true, Nat.blt_eq, List.all_eq_true, List.mem_range, bne_iff_ne,
    Option.isNone_iff_eq_none] at h
  rcases h with (habove | hbelow) | htried
  · rw [map?, if_neg (by omega)]
  · rw [map?, if_neg (by omega)]
  · exact (htried (n - r.first) (by omega)).resolve_left fun hne => hne hn.2.2

/-- The code points that lower case changes, those with a sequence as a run each. -/
def changedRuns : List CaseRun := lowerRuns ++ lowerSpecial.map fun e => ⟨e.1, e.1, 1, e.1⟩

theorem misses_changedRuns {r s : CaseRun} (hr : r ∈ lowerRuns) (hs : s ∈ changedRuns) :
    r.misses s = true := by
  have hall : lowerRuns.all (fun r => changedRuns.all r.misses) = true := by decide +kernel
  exact List.all_eq_true.mp (List.all_eq_true.mp hall r hr) s hs

theorem lowerChar_eq (c : Char) : lowerChar c =
    match lowerSpecial.lookup c.toNat with
    | some images => images.map Char.ofNat
    | none => [((lowerRuns.findSome? (·.map? c.toNat)).map Char.ofNat).getD c] := rfl

theorem lowerChar_eq_self {c : Char} (h : ∀ r ∈ changedRuns, r.map? c.toNat = none) :
    lowerChar c = [c] := by
  have hspecial : lowerSpecial.lookup c.toNat = none := by
    refine List.lookup_eq_none_iff.mpr fun e he => bne_iff_ne.mpr fun heq => ?_
    have hnone := h ⟨e.1, e.1, 1, e.1⟩ (List.mem_append_right _ (List.mem_map_of_mem he))
    simp [CaseRun.map?, heq] at hnone
  have hruns : lowerRuns.findSome? (·.map? c.toNat) = none :=
    List.findSome?_eq_none_iff.mpr fun r hr => h r (List.mem_append_left _ hr)
  rw [lowerChar_eq, hspecial, hruns, Option.map_none, Option.getD_none]

theorem lowerChar_ofNat {n : Nat} (h : ∀ r ∈ changedRuns, r.map? n = none) :
    lowerChar (Char.ofNat n) = [Char.ofNat n] := by
  by_cases hn : n.isValidChar
  · have hcode : (Char.ofNat n).toNat = n := by
      rw [Char.ofNat, dif_pos hn]
      rfl
    exact lowerChar_eq_self (hcode.symm ▸ h)
  · rw [Char.ofNat, dif_neg hn]
    decide

/-- What a character is lowered to is in lower case. -/
theorem lowerChar_of_mem_lowerChar {c d : Char} (h : d ∈ lowerChar c) : lowerChar d = [d] := by
  rw [lowerChar_eq] at h
  split at h
  · rename_i images hlookup
    have hall : ∀ e ∈ lowerSpecial, ∀ n ∈ e.2, lowerChar (Char.ofNat n) = [Char.ofNat n] := by
      decide +kernel
    obtain ⟨before, after, htable, -⟩ := List.lookup_eq_some_iff.mp hlookup
    obtain ⟨n, hn, rfl⟩ := List.mem_map.mp h
    exact hall (c.toNat, images) (by simp [htable]) n hn
  · rename_i hlookup
    obtain rfl := List.mem_singleton.mp h
    cases himage : lowerRuns.findSome? (·.map? c.toNat) with
    | none =>
      rw [Option.map_none, Option.getD_none, lowerChar_eq, hlookup, himage]
      rfl
    | some n =>
      obtain ⟨r, hr, hn⟩ := List.exists_of_findSome?_eq_some himage
      exact lowerChar_ofNat fun s hs => CaseRun.map?_eq_none_of_misses (misses_changedRuns hr hs) hn

/-! ### Texts in lower case -/

/-- A text in lower case is made of characters in lower case. -/
theorem lowerChar_of_mem_lowerFrom {before cs : List Char} {d : Char}
    (h : d ∈ lowerFrom before cs) : lowerChar d = [d] := by
  induction cs generalizing before with
  | nil => exact absurd h List.not_mem_nil
  | cons c cs ih =>
    rw [lowerFrom, List.mem_append] at h
    rcases h with himage | hrest
    · -- Either form of a sigma is in lower case.
      split_ifs at himage
      · obtain rfl := List.mem_singleton.mp himage
        decide +kernel
      · obtain rfl := List.mem_singleton.mp himage
        decide +kernel
      · exact lowerChar_of_mem_lowerChar himage
    · exact ih hrest

theorem lowerFrom_eq_self {before cs : List Char} (h : ∀ c ∈ cs, lowerChar c = [c]) :
    lowerFrom before cs = cs := by
  induction cs generalizing before with
  | nil => rfl
  | cons c cs ih =>
    obtain ⟨hc, hcs⟩ := List.forall_mem_cons.mp h
    have hsigma : c ≠ 'Σ' := by
      rintro rfl
      revert hc
      decide +kernel
    rw [lowerFrom, ih hcs, if_neg hsigma, hc, List.singleton_append]

/-- A text of characters in lower case stays as it is. -/
theorem lower_eq_self {s : String} (h : ∀ c ∈ s.toList, lowerChar c = [c]) : lower s = s := by
  rw [lower, lowerFrom_eq_self h, String.ofList_toList]

/-! ### Characters of ASCII -/

theorem toNat_of_isUpper {c : Char} (h : c.isUpper = true) : 65 ≤ c.toNat ∧ c.toNat ≤ 90 := by
  have hrange : 'A'.val ≤ c.val ∧ c.val ≤ 'Z'.val := of_decide_eq_true h
  exact hrange.imp UInt32.le_iff_toNat_le.mp UInt32.le_iff_toNat_le.mp

theorem toNat_of_isLower {c : Char} (h : c.isLower = true) : 97 ≤ c.toNat ∧ c.toNat ≤ 122 := by
  have hrange := Bool.and_eq_true_iff.mp h
  exact ⟨UInt32.le_iff_toNat_le.mp (of_decide_eq_true hrange.1),
    UInt32.le_iff_toNat_le.mp (of_decide_eq_true hrange.2)⟩

theorem toNat_of_isDigit {c : Char} (h : c.isDigit = true) : 48 ≤ c.toNat ∧ c.toNat ≤ 57 := by
  have hrange := Bool.and_eq_true_iff.mp h
  exact ⟨UInt32.le_iff_toNat_le.mp (of_decide_eq_true hrange.1),
    UInt32.le_iff_toNat_le.mp (of_decide_eq_true hrange.2)⟩

/-- A text of ASCII characters. -/
def IsAscii (s : String) : Prop := ∀ c ∈ s.toList, c.toNat < 128

instance (s : String) : Decidable (IsAscii s) :=
  decidable_of_iff (s.toList.all (·.toNat < 128) = true) (by simp [IsAscii])

theorem lowerChar_of_ascii {c : Char} (hc : c.toNat < 128) : lowerChar c = [c.toLower] := by
  have hall : ∀ n < 128, lowerChar (Char.ofNat n) = [(Char.ofNat n).toLower] := by decide +kernel
  simpa only [Char.ofNat_toNat] using hall c.toNat hc

/-- Small ASCII letters are in lower case, and they are not blank. -/
theorem lowerChar_of_isLower {c : Char} (hc : c.isLower = true) :
    lowerChar c = [c] ∧ isBlank c = false := by
  have hall : ∀ n < 128, 97 ≤ n → n ≤ 122 → (Char.ofNat n).toLower = Char.ofNat n ∧
      isBlank (Char.ofNat n) = false := by
    decide +kernel
  obtain ⟨hlow, hhigh⟩ := toNat_of_isLower hc
  have hlimit : c.toNat < 128 := by omega
  have hletter := hall c.toNat hlimit hlow hhigh
  rw [Char.ofNat_toNat] at hletter
  exact ⟨by rw [lowerChar_of_ascii hlimit, hletter.1], hletter.2⟩

theorem utf8Size_toLower_of_ascii {c : Char} (hc : c.toNat < 128) :
    c.toLower.utf8Size = c.utf8Size := by
  have hall : ∀ n < 128, (Char.ofNat n).toLower.utf8Size = (Char.ofNat n).utf8Size := by
    decide +kernel
  simpa only [Char.ofNat_toNat] using hall c.toNat hc

theorem lowerFrom_of_ascii {before cs : List Char} (hcs : ∀ c ∈ cs, c.toNat < 128) :
    lowerFrom before cs = cs.map Char.toLower := by
  induction cs generalizing before with
  | nil => rfl
  | cons c cs ih =>
    obtain ⟨hc, hcs⟩ := List.forall_mem_cons.mp hcs
    have hsigma : c ≠ 'Σ' := by
      rintro rfl
      exact absurd hc (by decide)
    rw [lowerFrom, ih hcs, if_neg hsigma, lowerChar_of_ascii hc, List.singleton_append,
      List.map_cons]

variable {s t : String}

theorem lower_of_ascii (hs : IsAscii s) : lower s = asciiLower s := by
  rw [lower, lowerFrom_of_ascii hs, asciiLower]

theorem isAscii_append : IsAscii (s ++ t) ↔ IsAscii s ∧ IsAscii t := by
  simp only [IsAscii, String.toList_append, List.forall_mem_append]

/-- The parts of an ASCII text are lowered one by one. -/
theorem lower_append (h : IsAscii (s ++ t)) : lower (s ++ t) = lower s ++ lower t := by
  obtain ⟨hs, ht⟩ := isAscii_append.mp h
  simp only [lower_of_ascii h, lower_of_ascii hs, lower_of_ascii ht, asciiLower,
    String.toList_append, List.map_append, String.ofList_append]

/-- An ASCII text keeps its length in lower case. -/
theorem utf8ByteSize_lower (hs : IsAscii s) : (lower s).utf8ByteSize = s.utf8ByteSize := by
  have hlen (cs : List Char) (hcs : ∀ c ∈ cs, c.toNat < 128) :
      String.utf8Len (cs.map Char.toLower) = String.utf8Len cs := by
    induction cs with
    | nil => rfl
    | cons c cs ih =>
      obtain ⟨hc, hcs⟩ := List.forall_mem_cons.mp hcs
      rw [List.map_cons, String.utf8Len_cons, String.utf8Len_cons, ih hcs,
        utf8Size_toLower_of_ascii hc]
  rw [lower_of_ascii hs, asciiLower, String.utf8ByteSize_ofList, hlen _ hs, String.utf8Len_toList]

end TsxLint.Text
