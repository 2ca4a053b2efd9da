import Mathlib.Data.List.DropRight
import TsxLint.Proofs.Linter.MessageOrder
import TsxLint.Proofs.Text.Cuts

/-!
# Positions

A position is read off the text before it: the line is one more than the line feeds in it, the
column one more than the characters behind the last of them. So positions grow with every character,
and to sort messages by line and column is to sort them by where the findings start.

The search among the starts of lines finds the same. Up to a boundary, the starts are those of the
text before it, and the last of them is where its last line begins.

## Main definitions

* `Position.atEnd`, `Position.key`: the position where a text ends; lines before columns.

## Main results

* `LineIndex.position_eq`: the position of a boundary, and of what lies past the end.
* `key_position_lt_iff`: positions of boundaries are in the order of the boundaries.
* `Linter.positions_exact_and_ordered`: both, the order of messages, and the number of lines.
-/

namespace TsxLint

open String (utf8Len)

/-! ### The end of a text -/

namespace Position

/-- The position where a text ends. -/
def atEnd (cs : List Char) : Position :=
  ⟨1 + cs.count '\n', 1 + (cs.rtakeWhile (· != '\n')).length⟩

/-- What positions are compared by: the line, then the column. -/
def key (p : Position) : ℕ ×ₗ ℕ := toLex (p.line, p.column)

theorem key_atEnd_concat (cs : List Char) (c : Char) :
    (atEnd cs).key < (atEnd (cs ++ [c])).key := by
  rw [key, key, Prod.Lex.toLex_lt_toLex]
  by_cases hc : c = '\n'
  · left
    simp [atEnd, hc]
  · right
    have hcolumn := List.rtakeWhile_concat_pos (p := (· != '\n')) cs c (by simpa using hc)
    simp [atEnd, hc, hcolumn]

theorem key_atEnd_append {cs ds : List Char} (hds : ds ≠ []) :
    (atEnd cs).key < (atEnd (cs ++ ds)).key := by
  induction ds using List.reverseRecOn with
  | nil => exact absurd rfl hds
  | append_singleton ds d ih =>
    rw [← List.append_assoc]
    rcases eq_or_ne ds [] with rfl | hne
    · rw [List.append_nil]
      exact key_atEnd_concat cs d
    · exact (ih hne).trans (key_atEnd_concat _ d)

end Position

/-- A text is cut before its last line: behind the last line feed, or at the start. -/
theorem exists_last_line (cs : List Char) : ∃ head line, cs = head ++ line ∧ '\n' ∉ line ∧
    (head = [] ∨ ∃ before, head = before ++ ['\n']) ∧
    Position.atEnd cs = ⟨1 + head.count '\n', 1 + line.length⟩ := by
  have hcut : cs.rdropWhile (· != '\n') ++ cs.rtakeWhile (· != '\n') = cs :=
    List.rdropWhile_append_rtakeWhile
  have hline : '\n' ∉ cs.rtakeWhile (· != '\n') := fun h => by
    simpa using List.mem_rtakeWhile_imp h
  refine ⟨_, _, hcut.symm, hline, ?_, ?_⟩
  · rcases eq_or_ne (cs.rdropWhile (· != '\n')) [] with hnil | hne
    · exact .inl hnil
    · have hlast := List.rdropWhile_last_not _ _ hne
      rw [bne_iff_ne, not_not] at hlast
      have hends := List.dropLast_append_getLast hne
      rw [hlast] at hends
      exact .inr ⟨_, hends.symm⟩
  · have hcount : cs.count '\n' = (cs.rdropWhile (· != '\n')).count '\n' := by
      conv_lhs => rw [← hcut]
      rw [List.count_append, List.count_eq_zero.mpr hline, Nat.add_zero]
    rw [Position.atEnd, hcount]

/-! ### The starts of lines -/

theorem capped_of_le {n : Nat} (h : n ≤ 4294967295) : capped n = n := min_eq_left h

namespace LineIndex

variable {cs head : List Char} {offset start : Nat}

theorem startsAfter_append (offset : Nat) (cs ds : List Char) : startsAfter offset (cs ++ ds) =
    startsAfter offset cs ++ startsAfter (offset + utf8Len cs) ds := by
  induction cs generalizing offset with
  | nil => rfl
  | cons c cs ih =>
    have hstart : offset + c.utf8Size + utf8Len cs = offset + utf8Len (c :: cs) := by
      rw [String.utf8Len_cons]
      omega
    simp only [List.cons_append, startsAfter, ih, hstart]
    split_ifs <;> rfl

theorem length_startsAfter (offset : Nat) (cs : List Char) :
    (startsAfter offset cs).length = cs.count '\n' := by
  induction cs generalizing offset with
  | nil => rfl
  | cons c cs ih =>
    rw [startsAfter]
    split_ifs with hc
    · rw [List.length_cons, ih, hc, List.count_cons_self]
    · rw [ih, List.count_cons_of_ne hc]

theorem startsAfter_eq_nil (h : '\n' ∉ cs) : startsAfter offset cs = [] := by
  rw [← List.length_eq_zero_iff, length_startsAfter, List.count_eq_zero.mpr h]

/-- A line starts behind its line feed. -/
theorem mem_startsAfter (h : start ∈ startsAfter offset cs)
    (hsize : offset + utf8Len cs ≤ 4294967295) :
    offset < start ∧ start ≤ offset + utf8Len cs := by
  induction cs generalizing offset with
  | nil => cases h
  | cons c cs ih =>
    have hpos := c.utf8Size_pos
    rw [String.utf8Len_cons] at hsize ⊢
    have hlater (h : start ∈ startsAfter (offset + c.utf8Size) cs) := ih h (by omega)
    rw [startsAfter] at h
    split_ifs at h
    · rcases List.mem_cons.mp h with rfl | h
      · rw [capped]
        omega
      · have := hlater h
        omega
    · have := hlater h
      omega

/-- Among the starts of some lines, the last is the end of the text. -/
theorem starts_of_lines (hhead : head = [] ∨ ∃ before, head = before ++ ['\n'])
    (hsize : utf8Len head ≤ 4294967295) : ∃ earlier,
      0 :: startsAfter 0 head = earlier ++ [utf8Len head] ∧ earlier.length = head.count '\n' ∧
        ∀ start ∈ earlier, start < utf8Len head := by
  rcases hhead with rfl | ⟨before, rfl⟩
  · exact ⟨[], rfl, rfl, by simp⟩
  · have hlast : utf8Len (before ++ ['\n']) = utf8Len before + 1 := by
      rw [String.utf8Len_append, String.utf8Len_cons, String.utf8Len_nil]
      rfl
    rw [hlast] at hsize ⊢
    refine ⟨0 :: startsAfter 0 before, ?_, ?_, ?_⟩
    · rw [startsAfter_append, Nat.zero_add, ← capped_of_le hsize]
      rfl
    · rw [List.length_cons, length_startsAfter, List.count_append, List.count_singleton_self]
    · refine List.forall_mem_cons.mpr ⟨Nat.succ_pos _, fun start hstart => ?_⟩
      have := mem_startsAfter hstart (by omega)
      omega

section

variable {earlier later : List Nat}

theorem takeWhile_lt_append (hearlier : ∀ s ∈ earlier, s < offset)
    (hlater : ∀ s ∈ later, offset ≤ s) : (earlier ++ later).takeWhile (· < offset) = earlier := by
  rw [List.takeWhile_append_of_pos fun s hs => decide_eq_true (hearlier s hs)]
  cases later with
  | nil => rw [List.takeWhile_nil, List.append_nil]
  | cons s later =>
    have hs : ¬ s < offset := not_lt.mpr (hlater s List.mem_cons_self)
    rw [List.takeWhile_cons, if_neg (by simpa using hs), List.append_nil]

theorem search_eq_ok (hearlier : ∀ s ∈ earlier, s < offset) (hlater : ∀ s ∈ later, offset < s) :
    search (earlier ++ offset :: later) offset = .ok earlier.length := by
  have hbelow := takeWhile_lt_append hearlier
    (List.forall_mem_cons.mpr ⟨le_rfl, fun s hs => (hlater s hs).le⟩)
  simp [search, hbelow]

theorem search_eq_error (hearlier : ∀ s ∈ earlier, s < offset)
    (hlater : ∀ s ∈ later, offset < s) :
    search (earlier ++ later) offset = .error earlier.length := by
  have hbelow := takeWhile_lt_append hearlier fun s hs => (hlater s hs).le
  have hnext : (earlier ++ later)[earlier.length]? ≠ some offset := by
    rw [List.getElem?_append_right le_rfl, Nat.sub_self]
    intro h
    exact lt_irrefl _ (hlater offset (List.mem_of_getElem? h))
  rw [search, hbelow, if_neg hnext]

/-- The last start that is not past an offset is found. -/
theorem lineAt_eq (hearlier : ∀ s ∈ earlier, s < start) (hstart : start ≤ offset)
    (hlater : ∀ s ∈ later, offset < s) :
    lineAt ⟨earlier ++ start :: later⟩ offset = earlier.length := by
  rcases hstart.eq_or_lt with rfl | hlt
  · rw [lineAt, search_eq_ok hearlier hlater]
  · have hbefore : ∀ s ∈ earlier ++ [start], s < offset := by
      simpa [or_imp, forall_and, hlt] using fun s hs => (hearlier s hs).trans hlt
    have hsearch := search_eq_error hbefore hlater
    rw [List.append_assoc, List.singleton_append] at hsearch
    rw [lineAt, hsearch, List.length_append, List.length_singleton]
    rfl

end

theorem length_le_utf8Len (cs : List Char) : cs.length ≤ utf8Len cs := by
  induction cs with
  | nil => exact le_rfl
  | cons c cs ih =>
    have := c.utf8Size_pos
    rw [List.length_cons, String.utf8Len_cons]
    omega

/-- The position of a boundary is where the text before it ends. What lies past the end of the
source has the position of the end. -/
theorem position_eq {source : String} {first rest : List Char}
    (hsize : source.utf8ByteSize < 4294967295) (hsource : source.toList = first ++ rest)
    (hoffset : offset = utf8Len first ∨ rest = [] ∧ utf8Len first ≤ offset) :
    (ofSource source).position source offset = .atEnd first := by
  obtain ⟨head, line, rfl, hline, hhead, hend⟩ := exists_last_line first
  have hlength : utf8Len head + utf8Len line + utf8Len rest = source.utf8ByteSize := by
    rw [← String.utf8Len_toList, hsource, String.utf8Len_append, String.utf8Len_append]
  rw [String.utf8Len_append] at hoffset
  obtain ⟨earlier, hstarts, hcount, hearlier⟩ := starts_of_lines hhead (by omega)
  have hindex : ofSource source =
      ⟨earlier ++ utf8Len head :: startsAfter (utf8Len head + utf8Len line) rest⟩ := by
    rw [ofSource, hsource, startsAfter_append, startsAfter_append, startsAfter_eq_nil hline,
      List.append_nil, ← List.cons_append, hstarts, Nat.zero_add, String.utf8Len_append,
      List.append_assoc, List.singleton_append]
  have hlater : ∀ s ∈ startsAfter (utf8Len head + utf8Len line) rest, offset < s := by
    intro s hs
    rcases hoffset with rfl | ⟨rfl, -⟩
    · exact (mem_startsAfter hs (by omega)).1
    · cases hs
  have hat : (ofSource source).lineAt offset = earlier.length := by
    rw [hindex, lineAt_eq hearlier (by omega) hlater]
  have hlineStart : (ofSource source).starts.getD earlier.length 0 = utf8Len head := by
    simp [hindex]
  have hstop : min offset source.utf8ByteSize = utf8Len head + utf8Len line := by
    rcases hoffset with rfl | ⟨rfl, hle⟩
    · omega
    · rw [String.utf8Len_nil] at hlength
      omega
  have hcolumn : Text.slice? source.toList (utf8Len head) (utf8Len head + utf8Len line) =
      some line :=
    Text.slice?_eq_some_iff.mpr ⟨head, rest, hsource, rfl, rfl⟩
  have hcountLe := (List.count_le_length (a := '\n') (l := head)).trans (length_le_utf8Len head)
  have hlineLe := length_le_utf8Len line
  rw [position, hat, hlineStart, hstop, hcolumn, hend, hcount, Option.getD_some,
    capped_of_le (by omega), capped_of_le (by omega), Nat.add_comm 1, Nat.add_comm 1]

end LineIndex

/-! ### Boundaries -/

section

variable {source : String} (hsize : source.utf8ByteSize < 4294967295) {a b : Nat}
include hsize

theorem key_position_lt (ha : Text.IsBoundary source a) (hb : Text.IsBoundary source b)
    (hlt : a < b) : ((LineIndex.ofSource source).position source a).key <
      ((LineIndex.ofSource source).position source b).key := by
  obtain ⟨first, rest, hfirst, rfl⟩ := ha
  obtain ⟨longer, rest', hlonger, rfl⟩ := hb
  rw [LineIndex.position_eq hsize hfirst (.inl rfl), LineIndex.position_eq hsize hlonger (.inl rfl)]
  obtain ⟨middle, rfl, -⟩ :=
    Text.exists_append_of_utf8Len_le (hfirst.symm.trans hlonger) hlt.le
  refine Position.key_atEnd_append fun hnil => ?_
  rw [hnil, List.append_nil] at hlt
  exact lt_irrefl _ hlt

/-- Positions of boundaries are in the order of the boundaries. -/
theorem key_position_lt_iff (ha : Text.IsBoundary source a) (hb : Text.IsBoundary source b) :
    ((LineIndex.ofSource source).position source a).key <
      ((LineIndex.ofSource source).position source b).key ↔ a < b := by
  refine ⟨fun h => ?_, key_position_lt hsize ha hb⟩
  rcases lt_trichotomy a b with hlt | rfl | hgt
  · exact hlt
  · exact absurd h (lt_irrefl _)
  · exact absurd h (key_position_lt hsize hb ha hgt).not_gt

theorem key_position_eq_iff (ha : Text.IsBoundary source a) (hb : Text.IsBoundary source b) :
    ((LineIndex.ofSource source).position source a).key =
      ((LineIndex.ofSource source).position source b).key ↔ a = b := by
  refine ⟨fun h => ?_, fun h => by rw [h]⟩
  refine le_antisymm (not_lt.mp fun hlt => ?_) (not_lt.mp fun hlt => ?_)
  · exact (key_position_lt hsize hb ha hlt).ne' h
  · exact (key_position_lt hsize ha hb hlt).ne h

end

/-- Messages are compared by where they start first. -/
theorem LintMessage.le_iff_start {m n : LintMessage} : m.le n = true ↔
    m.start.key < n.start.key ∨
      m.start.key = n.start.key ∧ toLex (m.ruleKey, m.message) ≤ toLex (n.ruleKey, n.message) := by
  have hkey : m.start.key = n.start.key ↔
      m.start.line = n.start.line ∧ m.start.column = n.start.column := by
    simp only [Position.key, EmbeddingLike.apply_eq_iff_eq, Prod.mk.injEq]
  rw [le_iff, hkey]
  simp only [sortKey, Position.key, Prod.Lex.toLex_le_toLex, Prod.Lex.toLex_lt_toLex]
  tauto

namespace Linter

/-- **Positions are exact and in order.** A boundary has the position where the text before it ends,
and positions are ordered as boundaries are. So messages are sorted by where their findings start,
and by rule and text where two findings start together. Past the end is the position of the end, and
there is one line more than there are line feeds. -/
theorem positions_exact_and_ordered (source : String) (hsize : source.utf8ByteSize < 2 ^ 32 - 1) :
    (∀ first rest, source.toList = first ++ rest →
      (LineIndex.ofSource source).position source (utf8Len first) = .atEnd first) ∧
    (∀ a b, Text.IsBoundary source a → Text.IsBoundary source b →
      (((LineIndex.ofSource source).position source a).key <
        ((LineIndex.ofSource source).position source b).key ↔ a < b)) ∧
    (∀ path cst file, SourceFile.read path source cst = .ok file → ∀ active active' d d',
      Text.IsBoundary source d.span.start → Text.IsBoundary source d'.span.start →
      ((message active file d).le (message active' file d') = true ↔
        d.span.start < d'.span.start ∨ d.span.start = d'.span.start ∧
          toLex (active.rule.name, active.rule.render d) ≤
            toLex (active'.rule.name, active'.rule.render d'))) ∧
    (∀ offset, source.utf8ByteSize ≤ offset →
      (LineIndex.ofSource source).position source offset = .atEnd source.toList) ∧
    (LineIndex.ofSource source).lineCount = 1 + source.toList.count '\n' := by
  have hlimit : source.utf8ByteSize < 4294967295 := hsize
  refine ⟨fun first rest hsource => ?_, fun a b ha hb => key_position_lt_iff hlimit ha hb,
    fun path cst file hread active active' d d' hd hd' => ?_, fun offset hoffset => ?_, ?_⟩
  · exact LineIndex.position_eq hlimit hsource (.inl rfl)
  · obtain ⟨dialect, rfl⟩ := SourceFile.eq_of_read hread
    rw [LintMessage.le_iff_start, ← key_position_lt_iff hlimit hd hd',
      ← key_position_eq_iff hlimit hd hd']
    rfl
  · refine LineIndex.position_eq hlimit (List.append_nil _).symm (.inr ⟨rfl, ?_⟩)
    rwa [String.utf8Len_toList]
  · rw [LineIndex.lineCount, LineIndex.ofSource, List.length_cons, LineIndex.length_startsAfter,
      Nat.add_comm]

/-- The two lines of `é` and `b`. -/
theorem positions_of_two_lines :
    (LineIndex.ofSource "é\nb").position "é\nb" 2 = ⟨1, 2⟩ ∧
    (LineIndex.ofSource "é\nb").position "é\nb" 3 = ⟨2, 1⟩ ∧
    (LineIndex.ofSource "é\nb").position "é\nb" 9 = ⟨2, 2⟩ ∧
    (LineIndex.ofSource "é\nb").lineCount = 2 := by
  obtain ⟨hexact, -, -, hpast, hcount⟩ := positions_exact_and_ordered "é\nb" (by decide +kernel)
  exact ⟨hexact ['é'] ['\n', 'b'] rfl, hexact ['é', '\n'] ['b'] rfl, hpast 9 (by decide), hcount⟩

end Linter

end TsxLint
