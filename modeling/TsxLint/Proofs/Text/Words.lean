import Mathlib.Data.List.TakeWhile
import TsxLint.Proofs.Text.Cuts
import TsxLint.Proofs.Text.LetterCase
import TsxLint.Rule.HelperName

/-!
# Words that are found in a text

The words that begin with a given word are found from left to right: a word starts at an edge and
takes the identifier characters that follow, all of them ASCII. A name of such characters that
stands apart from what is around it is found as a whole, whatever else the text holds. A search that
has passed over something before the name has not gone into it, for a word that is taken ends at the
latest where the identifier characters end. A name with any other character is never found.

## Main definitions

* `Text.StandsApart`: nothing before and after a name goes on with it.

## Main results

* `Text.isIdentifierChar_of_mem_identifiersFrom`: what the words that are found are made of.
* `Text.mem_identifiersFrom`: names that stand apart are found.
-/

namespace TsxLint.Text

/-- Whether what lies before and after a name cannot go on with it: no letter, mark, digit or
connector of any script and no `$` before it, and no identifier character after it. -/
def StandsApart (before after : List Char) : Prop :=
  before.getLast?.all (fun c => !isWordChar c && c != '$') = true ∧
    after.head?.all (fun c => !isIdentifierChar c) = true

instance (before after : List Char) : Decidable (StandsApart before after) :=
  inferInstanceAs (Decidable (_ ∧ _))

/-- What stands apart from a text stands apart from the part of it nearby. -/
theorem StandsApart.of_append {outside inside inside' outside' : List Char}
    (h : StandsApart (outside ++ inside) (inside' ++ outside')) : StandsApart inside inside' := by
  constructor
  · have hlast := h.1
    rw [List.getLast?_append] at hlast
    cases hinside : inside.getLast? with
    | none => rfl
    | some c => rwa [hinside] at hlast
  · have hhead := h.2
    rw [List.head?_append] at hhead
    cases hinside : inside'.head? with
    | none => rfl
    | some c => rwa [hinside] at hhead

/-- Words are made of identifier characters, the dollar sign apart. -/
theorem isWordChar_of_isIdentifierChar {c : Char} (hc : isIdentifierChar c = true)
    (hdollar : c ≠ '$') : isWordChar c = true := by
  have hall : ∀ n < 128, isIdentifierChar (Char.ofNat n) = true → Char.ofNat n ≠ '$' →
      isWordChar (Char.ofNat n) = true := by
    decide +kernel
  have hlimit : c.toNat < 128 := by
    rw [isIdentifierChar, Bool.or_eq_true, Bool.or_eq_true, Bool.or_eq_true, beq_iff_eq,
      beq_iff_eq] at hc
    rcases hc with ((halpha | hdigit) | rfl) | rfl
    · rcases Bool.or_eq_true_iff.mp halpha with hupper | hlower
      · exact Nat.lt_of_le_of_lt (toNat_of_isUpper hupper).2 (by decide)
      · exact Nat.lt_of_le_of_lt (toNat_of_isLower hlower).2 (by decide)
    · exact Nat.lt_of_le_of_lt (toNat_of_isDigit hdigit).2 (by decide)
    · decide
    · decide
  have hchar := hall c.toNat hlimit
  rw [Char.ofNat_toNat] at hchar
  exact hchar hc hdollar

/-- The identifier characters at the start of a text that a name begins. -/
theorem takeWhile_append_of_boundary {p : Char → Bool} {name after : List Char}
    (hname : ∀ c ∈ name, p c = true) (hafter : ∀ c ∈ after.head?, p c = false) :
    (name ++ after).takeWhile p = name := by
  rw [List.takeWhile_append_of_pos hname]
  cases after with
  | nil => rw [List.takeWhile_nil, List.append_nil]
  | cons c after => rw [List.takeWhile_cons_of_neg (by simp [hafter c rfl]), List.append_nil]

variable {start before after more : List Char} {previous : Option Char}

/-! ### The search -/

/-- A word at the start of a text, at an edge. The search goes on after its identifier characters.
-/
theorem identifiersFrom_append (hne : start ≠ []) (hedge : previous.any isWordChar = false) :
    identifiersFrom start previous (start ++ more) =
      (start ++ more.takeWhile isIdentifierChar) ::
        identifiersFrom start (start ++ more.takeWhile isIdentifierChar).getLast?
          (more.dropWhile isIdentifierChar) := by
  obtain ⟨c, rest, hcons⟩ := List.exists_cons_of_ne_nil (List.append_ne_nil_of_left_ne_nil hne more)
  have hafter : after? start (c :: rest) = some more := after?_eq_some_iff.mpr hcons.symm
  have hsplit : c :: rest = (start ++ more.takeWhile isIdentifierChar) ++
      more.dropWhile isIdentifierChar := by
    rw [← hcons, List.append_assoc, List.takeWhile_append_dropWhile]
  have hpos : 0 < (start ++ more.takeWhile isIdentifierChar).length :=
    List.length_pos_of_ne_nil (List.append_ne_nil_of_left_ne_nil hne _)
  have htake : (c :: rest).take (start ++ more.takeWhile isIdentifierChar).length =
      start ++ more.takeWhile isIdentifierChar := by
    rw [hsplit, List.take_left]
  have hdrop : rest.drop ((start ++ more.takeWhile isIdentifierChar).length - 1) =
      more.dropWhile isIdentifierChar := by
    rw [← List.drop_succ_cons, Nat.sub_add_cancel hpos, hsplit, List.drop_left]
  rw [hcons, identifiersFrom, hafter]
  simp only [hedge, Bool.false_eq_true, if_false, htake, hdrop]

/-- Where no word starts, the search goes on with the next character. -/
theorem identifiersFrom_cons {c : Char} {rest : List Char}
    (hnone : ∀ more, c :: rest = start ++ more → previous.any isWordChar = true) :
    identifiersFrom start previous (c :: rest) = identifiersFrom start (some c) rest := by
  rw [identifiersFrom]
  cases hafter : after? start (c :: rest) with
  | none => rfl
  | some more => exact if_pos (hnone more (after?_eq_some_iff.mp hafter))

/-- The words that are found are made of identifier characters. -/
theorem isIdentifierChar_of_mem_identifiersFrom {cs : List Char}
    (hstart : ∀ c ∈ start, isIdentifierChar c = true) :
    ∀ found ∈ identifiersFrom start previous cs, ∀ c ∈ found, isIdentifierChar c = true := by
  fun_induction identifiersFrom start previous cs with
  | case1 previous => exact fun found hfound => absurd hfound List.not_mem_nil
  | case2 previous c rest more hmore hword ih => exact ih
  | case3 previous c rest more hmore hedge found ih =>
    refine List.forall_mem_cons.mpr ⟨fun c hc => ?_, ih⟩
    rcases List.mem_append.mp hc with hc | hc
    · exact hstart c hc
    · exact List.mem_takeWhile_imp hc
  | case4 previous c rest hnone ih => exact ih

/-- A word of identifier characters ends before any other character that comes later. -/
theorem exists_eq_append_of_append_eq_cons {found rest : List Char} {last : Char}
    (hfound : ∀ c ∈ found, isIdentifierChar c = true) (hlast : isIdentifierChar last = false)
    (heq : found ++ more = before ++ last :: rest) :
    ∃ between, before = found ++ between ∧ more = between ++ last :: rest := by
  rcases List.append_eq_append_iff.mp heq with ⟨between, hbefore, hmore⟩ | ⟨beyond, hlonger, hrest⟩
  · exact ⟨between, hbefore, hmore⟩
  · cases beyond with
    | nil => exact ⟨[], by rw [hlonger, List.append_nil, List.append_nil], hrest.symm⟩
    | cons c beyond =>
      obtain ⟨rfl, -⟩ := List.cons.inj hrest
      have hmem : last ∈ found := hlonger ▸ List.mem_append_right before List.mem_cons_self
      rw [hfound last hmem] at hlast
      cases hlast

section

variable {name : List Char} (hne : start ≠ []) (hname : ∃ tail, name = start ++ tail)
  (hchars : ∀ c ∈ name, isIdentifierChar c = true)
  (hafter : ∀ c ∈ after.head?, isIdentifierChar c = false)
include hne hname hchars hafter

/-- A name at the start of a text, at an edge, is found. -/
theorem mem_identifiersFrom_append (hedge : previous.any isWordChar = false) :
    name ∈ identifiersFrom start previous (name ++ after) := by
  obtain ⟨tail, rfl⟩ := hname
  have htail : ∀ c ∈ tail, isIdentifierChar c = true :=
    fun c hc => hchars c (List.mem_append_right start hc)
  rw [List.append_assoc, identifiersFrom_append hne hedge,
    takeWhile_append_of_boundary htail hafter]
  exact List.mem_cons_self

/-- A name after a character that it cannot go on from is found. The search comes to that character
step by step or word by word, and no word goes beyond it. -/
theorem mem_identifiersFrom_append_cons {last : Char} (hword : isWordChar last = false)
    (hdollar : last ≠ '$') :
    name ∈ identifiersFrom start previous (before ++ last :: (name ++ after)) := by
  have hlast : isIdentifierChar last = false := by
    cases hchar : isIdentifierChar last with
    | false => rfl
    | true => rw [isWordChar_of_isIdentifierChar hchar hdollar] at hword; cases hword
  have hstart : ∀ c ∈ start, isIdentifierChar c = true := by
    obtain ⟨tail, rfl⟩ := hname
    exact fun c hc => hchars c (List.mem_append_left tail hc)
  induction hlength : before.length using Nat.strongRecOn generalizing before previous with
  | _ n ih =>
    subst hlength
    by_cases hstarts : previous.any isWordChar = false ∧
        ∃ more, before ++ last :: (name ++ after) = start ++ more
    · obtain ⟨hedge, more, hmore⟩ := hstarts
      have hfound : ∀ c ∈ start ++ more.takeWhile isIdentifierChar, isIdentifierChar c = true :=
        List.forall_mem_append.mpr ⟨hstart, fun c hc => List.mem_takeWhile_imp hc⟩
      have heq : (start ++ more.takeWhile isIdentifierChar) ++ more.dropWhile isIdentifierChar =
          before ++ last :: (name ++ after) := by
        rw [hmore, List.append_assoc, List.takeWhile_append_dropWhile]
      obtain ⟨between, rfl, hrest⟩ := exists_eq_append_of_append_eq_cons hfound hlast heq
      rw [hmore, identifiersFrom_append hne hedge, hrest]
      refine List.mem_cons_of_mem _ (ih between.length ?_ rfl)
      have := List.length_pos_of_ne_nil hne
      simp only [List.length_append]
      omega
    · have hnone : ∀ more, before ++ last :: (name ++ after) = start ++ more →
          previous.any isWordChar = true := by
        intro more hmore
        by_contra hedge
        exact hstarts ⟨Bool.eq_false_of_not_eq_true hedge, more, hmore⟩
      cases before with
      | nil =>
        rw [List.nil_append] at hnone ⊢
        rw [identifiersFrom_cons hnone]
        exact mem_identifiersFrom_append hne hname hchars hafter hword
      | cons c before =>
        rw [List.cons_append] at hnone ⊢
        rw [identifiersFrom_cons hnone]
        exact ih before.length (Nat.lt_succ_self _) rfl

end

/-- Names that begin with the given word and stand apart are found. -/
theorem mem_identifiersFrom {name : List Char} (hne : start ≠ [])
    (hname : ∃ tail, name = start ++ tail) (hchars : ∀ c ∈ name, isIdentifierChar c = true)
    (hapart : StandsApart before after) :
    name ∈ identifiersFrom start none (before ++ name ++ after) := by
  obtain ⟨hlast, hhead⟩ := hapart
  have hafter : ∀ c ∈ after.head?, isIdentifierChar c = false := by
    intro c hc
    rw [Option.mem_def.mp hc] at hhead
    simpa using hhead
  rw [List.append_assoc]
  rcases List.eq_nil_or_concat' before with rfl | ⟨init, last, rfl⟩
  · exact mem_identifiersFrom_append hne hname hchars hafter rfl
  · rw [List.getLast?_concat, Option.all_some, Bool.and_eq_true, Bool.not_eq_true',
      bne_iff_ne] at hlast
    rw [List.append_assoc, List.singleton_append]
    exact mem_identifiersFrom_append_cons hne hname hchars hafter hlast.1 hlast.2

end TsxLint.Text
