import TsxLint.Naming.Vocabulary
import TsxLint.Proofs.Data.FirstOccurrences
import TsxLint.Proofs.Data.StableSort
import TsxLint.Proofs.Text.Cuts
import TsxLint.Proofs.Text.LetterCase

/-!
# Merged vocabularies

A vocabulary holds each word once, in one spelling: in lower case and without white space. What is
in lower case stays so, and a word without white space has none to lose, so this spelling is a normal
form. Longer words come before shorter ones, and words of one length in the order in which they first
occur. Only one list fits this description of the vocabulary of some words. So what merging gives is
known from the description, and a vocabulary that is extended with words that it has stays the same:
it still fits.

Two words of one length cannot both begin a text. So a scan for a word that begins a text ends at the
longest one.

## Main definitions

* `Naming.Precedes`, `Naming.IsVocabulary`: the order of a vocabulary and what it is altogether.
* `Naming.HasWords`: a vocabulary has some words, in whatever spelling.
* `Naming.IsLongest`: the longest word that passes a test.

## Main results

* `Naming.normalizeWord_normalizeWord`: the spelling of a vocabulary is a normal form.
* `Naming.IsVocabulary.unique`: only one list is the vocabulary of some words.
* `Naming.isVocabulary_iff`: merging gives the vocabulary of the known and the added words.
* `Naming.isLongest_iff`: the longest word is the first one.
* `Naming.vocabularies_merge_without_loss`: vocabularies lose no word, scans find the longest one.
-/

namespace TsxLint.Naming

variable {defaults extension words more vocabulary vocabulary' : List String} {word : String}

/-! ### Words as vocabularies hold them -/

theorem normalizeWord_eq_self
    (h : ∀ c ∈ word.toList, Text.lowerChar c = [c] ∧ Text.isBlank c = false) :
    normalizeWord word = word := by
  have htrim : Text.trim word = word := by
    rw [Text.trim, Text.trimChars_of_forall_not_blank fun c hc => (h c hc).2, String.ofList_toList]
  rw [normalizeWord, htrim, Text.lower_eq_self fun c hc => (h c hc).1,
    List.filter_eq_self.mpr fun c hc => ?_, String.ofList_toList]
  rw [(h c hc).2, Bool.not_false]

/-- A word stays as a vocabulary holds it. -/
theorem normalizeWord_normalizeWord (word : String) :
    normalizeWord (normalizeWord word) = normalizeWord word := by
  refine normalizeWord_eq_self fun c hc => ?_
  rw [normalizeWord, String.toList_ofList, List.mem_filter, Text.lower, String.toList_ofList] at hc
  exact ⟨Text.lowerChar_of_mem_lowerFrom hc.1, by simpa using hc.2⟩

/-- Words of small ASCII letters stand in vocabularies as they are. -/
theorem normalizeWord_of_isLower (h : word.toList.all Char.isLower = true) :
    normalizeWord word = word :=
  normalizeWord_eq_self fun c hc => Text.lowerChar_of_isLower (List.all_eq_true.mp h c hc)

/-! ### The vocabulary of some words -/

/-- One word stands before another because it is longer, or as long and the first of them to occur
among the words that are given. -/
def Precedes (given : List String) (a b : String) : Prop :=
  b.utf8ByteSize < a.utf8ByteSize ∨
    b.utf8ByteSize = a.utf8ByteSize ∧ given.idxOf a < given.idxOf b

/-- The vocabulary of some words: what they are normalized to, once each and without the empty word,
longer ones first and those of one length in order of first occurrence. -/
structure IsVocabulary (words vocabulary : List String) : Prop where
  nodup : vocabulary.Nodup
  mem_iff : ∀ word, word ∈ vocabulary ↔ word ≠ "" ∧ ∃ raw ∈ words, normalizeWord raw = word
  inOrder : vocabulary.Pairwise (Precedes (words.map normalizeWord))

/-- A vocabulary has some words, in whatever spelling: what they are normalized to is among its
words, unless nothing is left of them. -/
def HasWords (vocabulary words : List String) : Prop :=
  ∀ raw ∈ words, normalizeWord raw ≠ "" → normalizeWord raw ∈ vocabulary

namespace IsVocabulary

/-- Some words have one vocabulary only. -/
theorem unique (h : IsVocabulary words vocabulary) (h' : IsVocabulary words vocabulary') :
    vocabulary = vocabulary' := by
  have hperm : vocabulary.Perm vocabulary' :=
    (List.perm_ext_iff_of_nodup h.nodup h'.nodup).mpr fun word =>
      (h.mem_iff word).trans (h'.mem_iff word).symm
  refine hperm.eq_of_pairwise (fun a b _ _ hab hba => ?_) h.inOrder h'.inOrder
  unfold Precedes at hab hba
  omega

theorem normalizeWord_of_mem (h : IsVocabulary words vocabulary) (hword : word ∈ vocabulary) :
    normalizeWord word = word := by
  obtain ⟨-, raw, -, rfl⟩ := (h.mem_iff word).mp hword
  exact normalizeWord_normalizeWord raw

/-- More words leave a vocabulary as it is exactly if it has them. -/
theorem append_iff (h : IsVocabulary words vocabulary) :
    IsVocabulary (words ++ more) vocabulary ↔ HasWords vocabulary more := by
  constructor
  · intro hmore raw hraw hne
    exact (hmore.mem_iff _).mpr ⟨hne, raw, List.mem_append_right _ hraw, rfl⟩
  · intro hmore
    refine ⟨h.nodup, fun word => ?_, h.inOrder.imp_of_mem fun {a b} ha hb hab => ?_⟩
    · rw [h.mem_iff]
      refine and_congr_right fun hne => ⟨?_, ?_⟩
      · rintro ⟨raw, hraw, rfl⟩
        exact ⟨raw, List.mem_append_left _ hraw, rfl⟩
      · rintro ⟨raw, hraw, rfl⟩
        rcases List.mem_append.mp hraw with hraw | hraw
        · exact ⟨raw, hraw, rfl⟩
        · exact ((h.mem_iff _).mp (hmore raw hraw hne)).2
    · have hmem {word : String} (hword : word ∈ vocabulary) : word ∈ words.map normalizeWord :=
        List.mem_map.mpr ((h.mem_iff word).mp hword).2
      rwa [Precedes, List.map_append, List.idxOf_append_of_mem (hmem ha),
        List.idxOf_append_of_mem (hmem hb)]

/-- A vocabulary is the vocabulary of its own words. -/
theorem self (h : IsVocabulary words vocabulary) : IsVocabulary vocabulary vocabulary where
  nodup := h.nodup
  mem_iff := by
    intro word
    constructor
    · intro hword
      exact ⟨((h.mem_iff word).mp hword).1, word, hword, h.normalizeWord_of_mem hword⟩
    · rintro ⟨-, raw, hraw, rfl⟩
      rwa [h.normalizeWord_of_mem hraw]
  inOrder := by
    have hfirst : vocabulary.Pairwise fun a b => vocabulary.idxOf a < vocabulary.idxOf b :=
      List.pairwise_iff_getElem.mpr fun i j hi hj hij => by
        rwa [h.nodup.idxOf_getElem, h.nodup.idxOf_getElem]
    rw [List.map_congr_left fun word hword => h.normalizeWord_of_mem hword, List.map_id']
    refine (h.inOrder.and hfirst).imp fun ⟨hgiven, hlt⟩ => ?_
    exact hgiven.imp_right fun hsize => ⟨hsize.1, hlt⟩

end IsVocabulary

/-! ### Merging -/

theorem distinctWords_eq (words : List String) :
    distinctWords words = ComponentGraph.dedup (words.filter (· != "")) := by
  rw [distinctWords, ComponentGraph.dedup, List.foldl_filter]
  congr! 3 with kept word
  by_cases hword : word = "" <;> simp [hword]

theorem distinctWords_listsFirsts (words : List String) :
    ListsFirsts (words.filter (· != "")) (distinctWords words) :=
  distinctWords_eq words ▸ ComponentGraph.dedup_listsFirsts _

theorem pairwise_longestFirst {R : String → String → Prop} (h : words.Pairwise R) :
    (longestFirst words).Pairwise fun a b => b.utf8ByteSize < a.utf8ByteSize ∨
      b.utf8ByteSize = a.utf8ByteSize ∧ R a b := by
  have htotal (a b : String) :
      (decide (b.utf8ByteSize ≤ a.utf8ByteSize) || decide (a.utf8ByteSize ≤ b.utf8ByteSize)) =
        true := by
    simp only [Bool.or_eq_true, decide_eq_true_eq]
    exact le_total ..
  have htrans (a b c : String) (hab : decide (b.utf8ByteSize ≤ a.utf8ByteSize) = true)
      (hbc : decide (c.utf8ByteSize ≤ b.utf8ByteSize) = true) :
      decide (c.utf8ByteSize ≤ a.utf8ByteSize) = true :=
    decide_eq_true ((of_decide_eq_true hbc).trans (of_decide_eq_true hab))
  refine (StableSort.pairwise_mergeSort_of_pairwise htotal htrans h).imp fun ⟨hle, htie⟩ => ?_
  rcases (of_decide_eq_true hle).lt_or_eq with hlt | heq
  · exact .inl hlt
  · exact .inr ⟨heq, htie (decide_eq_true heq.ge)⟩

/-- Merging gives the vocabulary of the known and the added words. -/
theorem mergeVocabulary_isVocabulary (defaults extension : List String) :
    IsVocabulary (defaults ++ extension) (mergeVocabulary defaults extension) where
  nodup := (List.mergeSort_perm _ _).nodup_iff.mpr (distinctWords_listsFirsts _).nodup
  mem_iff := by
    intro word
    rw [mergeVocabulary, longestFirst, List.mem_mergeSort, (distinctWords_listsFirsts _).mem_iff,
      List.mem_filter, List.mem_map, bne_iff_ne, and_comm]
  inOrder := pairwise_longestFirst (distinctWords_listsFirsts _).pairwise_of_filter

theorem isVocabulary_iff : IsVocabulary (defaults ++ extension) vocabulary ↔
    mergeVocabulary defaults extension = vocabulary := by
  have hmerged := mergeVocabulary_isVocabulary defaults extension
  exact ⟨hmerged.unique, fun h => h ▸ hmerged⟩

-- A longer word comes first wherever it is added, and one that is there already adds nothing.
example : mergeVocabulary ["open", "change"] [" Toggle ", "OPEN", "", "key press"] =
    ["keypress", "change", "toggle", "open"] := by cbv

/-- The words of a vocabulary: the known ones and the added ones as vocabularies hold them. -/
theorem mem_mergeVocabulary_iff : word ∈ mergeVocabulary defaults extension ↔
    word ≠ "" ∧ ∃ raw ∈ defaults ++ extension, normalizeWord raw = word :=
  (mergeVocabulary_isVocabulary defaults extension).mem_iff word

/-- A vocabulary lists longer words first. -/
theorem pairwise_mergeVocabulary (defaults extension : List String) :
    (mergeVocabulary defaults extension).Pairwise fun a b => b.utf8ByteSize ≤ a.utf8ByteSize :=
  (mergeVocabulary_isVocabulary defaults extension).inOrder.imp fun h =>
    h.elim Nat.le_of_lt fun htie => htie.1.le

/-- The words of a vocabulary whose known words are of small ASCII letters. -/
theorem mem_mergeVocabulary_iff_of_isLower
    (h : ∀ word ∈ defaults, word ≠ "" ∧ word.toList.all Char.isLower = true) :
    word ∈ mergeVocabulary defaults extension ↔
      word ∈ defaults ∨ word ≠ "" ∧ ∃ raw ∈ extension, normalizeWord raw = word := by
  rw [mem_mergeVocabulary_iff]
  constructor
  · rintro ⟨hne, raw, hraw, rfl⟩
    rcases List.mem_append.mp hraw with hraw | hraw
    · left
      rwa [normalizeWord_of_isLower (h raw hraw).2]
    · exact .inr ⟨hne, raw, hraw, rfl⟩
  · rintro (hword | ⟨hne, raw, hraw, rfl⟩)
    · exact ⟨(h word hword).1, word, List.mem_append_left _ hword,
        normalizeWord_of_isLower (h word hword).2⟩
    · exact ⟨hne, raw, List.mem_append_right _ hraw, rfl⟩

/-! ### Scanning -/

/-- The longest word that passes a test. -/
structure IsLongest (words : List String) (test : String → Bool) (word : String) : Prop where
  mem : word ∈ words
  passes : test word = true
  longest : ∀ other ∈ words, test other = true → other.utf8ByteSize ≤ word.utf8ByteSize

/-- Where longer words come first and no two words of one length pass, the longest word that passes
is the first one. -/
theorem isLongest_iff {test : String → Bool}
    (hsorted : words.Pairwise fun a b => b.utf8ByteSize ≤ a.utf8ByteSize)
    (htest : ∀ a b, test a = true → test b = true → a.utf8ByteSize = b.utf8ByteSize → a = b) :
    IsLongest words test word ↔ test word = true ∧ ∃ before after,
      words = before ++ word :: after ∧ ∀ other ∈ before, ¬ test other = true := by
  constructor
  · intro h
    obtain ⟨before, after, rfl, hnew⟩ := List.eq_append_cons_of_mem h.mem
    refine ⟨h.passes, before, after, rfl, fun other hother hpasses => hnew ?_⟩
    have hle := h.longest other (List.mem_append_left _ hother) hpasses
    have hge := (List.pairwise_append.mp hsorted).2.2 other hother word List.mem_cons_self
    rwa [htest word other h.passes hpasses (hge.antisymm hle)]
  · rintro ⟨hpasses, before, after, rfl, hbefore⟩
    refine ⟨List.mem_append_right _ List.mem_cons_self, hpasses, fun other hother hother' => ?_⟩
    have hafter := (List.pairwise_cons.mp (List.pairwise_append.mp hsorted).2.1).1
    rcases List.mem_append.mp hother with hother | hother
    · exact absurd hother' (hbefore other hother)
    · rcases List.mem_cons.mp hother with rfl | hother
      · exact le_rfl
      · exact hafter other hother

/-- **Vocabularies are merged without loss and scanned longest first.** Merging gives the vocabulary
of the known and the added words. Its first word that a text starts with is the longest one. Its
words are in normal form, and words that are added to it, in whatever spelling, leave it as it is
exactly if it has them. -/
theorem vocabularies_merge_without_loss (defaults extension : List String) :
    IsVocabulary (defaults ++ extension) (mergeVocabulary defaults extension) ∧
    (∀ text word, (mergeVocabulary defaults extension).find? (Text.startsWith text) = some word ↔
      IsLongest (mergeVocabulary defaults extension) (Text.startsWith text) word) ∧
    (∀ word ∈ mergeVocabulary defaults extension, normalizeWord word = word) ∧
    ∀ more,
      (mergeVocabulary defaults (extension ++ more) = mergeVocabulary defaults extension ↔
        HasWords (mergeVocabulary defaults extension) more) ∧
      (mergeVocabulary (mergeVocabulary defaults extension) more =
          mergeVocabulary defaults extension ↔
        HasWords (mergeVocabulary defaults extension) more) := by
  have hmerged := mergeVocabulary_isVocabulary defaults extension
  refine ⟨hmerged, fun text word => ?_, fun word => hmerged.normalizeWord_of_mem, fun more => ?_⟩
  · rw [isLongest_iff (pairwise_mergeVocabulary ..) fun a b => Text.eq_of_startsWith,
      List.find?_eq_some_iff_append]
    simp only [Bool.not_eq_true, Bool.not_eq_true']
  · rw [← isVocabulary_iff, ← isVocabulary_iff, ← List.append_assoc]
    exact ⟨hmerged.append_iff, hmerged.self.append_iff⟩

end TsxLint.Naming
