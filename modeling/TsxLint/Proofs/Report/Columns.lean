import Mathlib.Data.List.DropRight
import Mathlib.Data.List.Forall2
import TsxLint.Proofs.Linter.Positions
import TsxLint.Proofs.Text.LetterCase
import TsxLint.Report.Stylish

/-!
# Columns of a block

The entries of a column are padded up to the number of bytes of the widest one, a blank for every
character that is missing. No entry has more characters than bytes, so after padding all entries of
a column have the same number of characters, and the next column starts at one offset on all lines.
The white space cut off at the end of a line is only padding, or the end of the last entry: between
any two offsets a line shows the same before and after the cut.

## Main definitions

* `Stylish.cell`: what a line shows between two offsets.
* `Stylish.Columns`: the offsets at which columns start, and `Stylish.Columns.Shows`, the lines that
  show a message there.

## Main results

* `Stylish.cell_trimEnd`: a line that is cut off shows the same.
* `Stylish.shows_lines`: the lines of a block show its messages in one set of columns.
-/

namespace TsxLint.Stylish

open List (rdropWhile)

/-! ### White space at the end -/

section

variable {α : Type} {p : α → Bool} {a : α} {as bs : List α}

theorem rdropWhile_cons : rdropWhile p (a :: as) =
    if rdropWhile p as = [] ∧ p a = true then [] else a :: rdropWhile p as := by
  rw [rdropWhile, List.reverse_cons, List.dropWhile_append]
  by_cases has : rdropWhile p as = []
  · have hdropped : as.reverse.dropWhile p = [] := List.reverse_eq_nil_iff.mp has
    cases ha : p a <;> simp [has, hdropped, ha]
  · have hkept : as.reverse.dropWhile p ≠ [] := fun h => has (List.reverse_eq_nil_iff.mpr h)
    simp [hkept, rdropWhile]

theorem rdropWhile_append_of_forall (hbs : ∀ b ∈ bs, p b = true) :
    rdropWhile p (as ++ bs) = rdropWhile p as := by
  have hreversed : ∀ b ∈ bs.reverse, p b = true := by simpa using hbs
  rw [rdropWhile, List.reverse_append, List.dropWhile_append_of_pos hreversed, rdropWhile]

/-- Dropping from the front and from the end commute. -/
theorem rdropWhile_drop (n : Nat) (as : List α) :
    rdropWhile p (as.drop n) = (rdropWhile p as).drop n := by
  induction as generalizing n with
  | nil => simp
  | cons a as ih =>
    cases n with
    | zero => rfl
    | succ n =>
      rw [List.drop_succ_cons, ih, rdropWhile_cons]
      split
      case isTrue h => rw [h.1, List.drop_nil, List.drop_nil]
      case isFalse => rw [List.drop_succ_cons]

/-- What was dropped from the end is not missed where the end is dropped anyway. -/
theorem rdropWhile_take_rdropWhile (n : Nat) (as : List α) :
    rdropWhile p ((rdropWhile p as).take n) = rdropWhile p (as.take n) := by
  conv => rhs; rw [← List.rdropWhile_append_rtakeWhile (p := p) (l := as), List.take_append]
  rw [rdropWhile_append_of_forall]
  exact fun b hb => List.mem_rtakeWhile_imp (List.mem_of_mem_take hb)

end

theorem toList_trimEnd (text : String) :
    (trimEnd text).toList = rdropWhile Text.isBlank text.toList := by
  rw [trimEnd, String.toList_ofList, rdropWhile]

theorem trimEnd_append_blanks (text : String) {blanks : String}
    (hblanks : ∀ c ∈ blanks.toList, Text.isBlank c = true) :
    trimEnd (text ++ blanks) = trimEnd text := by
  rw [← String.toList_inj, toList_trimEnd, toList_trimEnd, String.toList_append,
    rdropWhile_append_of_forall hblanks]

/-- A text that ends in another character than white space is not cut off. -/
theorem trimEnd_append_of_forall (text : String) {last : String} (hne : last ≠ "")
    (hlast : ∀ c ∈ last.toList, Text.isBlank c = false) :
    trimEnd (text ++ last) = text ++ last := by
  have hne' : last.toList ≠ [] := fun h => hne (String.toList_eq_nil_iff.mp h)
  rw [← String.toList_inj, toList_trimEnd, List.rdropWhile_eq_self_iff]
  intro hl
  have hgetLast : (text ++ last).toList.getLast hl = last.toList.getLast hne' := by
    simp only [String.toList_append]
    exact List.getLast_append_of_ne_nil _ hne'
  rw [hgetLast, hlast _ (List.getLast_mem hne')]
  exact Bool.false_ne_true

/-! ### Cells -/

/-- What a line shows from one offset up to another, in characters, without the white space
behind. -/
def cell (line : String) (start stop : Nat) : String :=
  trimEnd (String.ofList ((line.toList.take stop).drop start))

theorem toList_cell (line : String) (start stop : Nat) : (cell line start stop).toList =
    (rdropWhile Text.isBlank (line.toList.take stop)).drop start := by
  rw [cell, toList_trimEnd, String.toList_ofList, rdropWhile_drop]

/-- A line that is cut off shows the same. -/
theorem cell_trimEnd (line : String) (start stop : Nat) :
    cell (trimEnd line) start stop = cell line start stop := by
  rw [← String.toList_inj, toList_cell, toList_cell, toList_trimEnd, rdropWhile_take_rdropWhile]

/-- A part of a line is what it shows between the ends of that part. -/
theorem cell_append (before part after : String) {start stop : Nat} (hstart : before.length = start)
    (hstop : start + part.length = stop) :
    cell (before ++ part ++ after) start stop = trimEnd part := by
  rw [← String.length_toList] at hstart hstop
  rw [cell, String.toList_append, String.toList_append, List.take_left' (by simp [hstart, hstop]),
    List.drop_left' hstart, String.ofList_toList]

/-- What a line shows behind an offset is what is behind it before the line is cut off. -/
theorem drop_trimEnd_append (before after : String) {start : Nat} (hstart : before.length = start) :
    String.ofList ((trimEnd (before ++ after)).toList.drop start) = trimEnd after := by
  rw [← String.length_toList] at hstart
  rw [← String.toList_inj, String.toList_ofList, toList_trimEnd, toList_trimEnd, ← rdropWhile_drop,
    String.toList_append, List.drop_left' hstart]

/-- A line of four parts shows each of them where it starts. -/
theorem cells_of_parts (first second third last : String) {start middle stop : Nat}
    (hfirst : first.length = start) (hsecond : start + second.length = middle)
    (hthird : middle + third.length = stop) :
    let line := trimEnd (first ++ second ++ third ++ last)
    cell line 0 start = trimEnd first ∧ cell line start middle = trimEnd second ∧
      cell line middle stop = trimEnd third ∧
      String.ofList (line.toList.drop stop) = trimEnd last := by
  intro line
  refine ⟨?_, ?_, ?_, ?_⟩
  · rw [cell_trimEnd, String.append_assoc, String.append_assoc,
      ← String.empty_append (s := first ++ _), ← String.append_assoc]
    exact cell_append "" first _ rfl ((Nat.zero_add _).trans hfirst)
  · rw [cell_trimEnd, String.append_assoc]
    exact cell_append first second _ hfirst hsecond
  · rw [cell_trimEnd]
    have hlength : (first ++ second).length = middle := by
      rw [String.length_append, hfirst, hsecond]
    exact cell_append (first ++ second) third _ hlength hthird
  · refine drop_trimEnd_append _ _ ?_
    rw [String.length_append, String.length_append, hfirst, hsecond, hthird]

/-! ### Entries -/

theorem forall_blanks (n : Nat) : ∀ c ∈ (String.ofList (List.replicate n ' ')).toList,
    Text.isBlank c = true := by
  intro c hc
  rw [String.toList_ofList] at hc
  rw [List.eq_of_mem_replicate hc]
  rfl

/-- An entry that has no more bytes than its column is wide is as long as the column when padded. -/
theorem length_padded {width : Nat} {text : String} (h : text.utf8ByteSize ≤ width) :
    (padded width text).length = width := by
  -- Widths count bytes and padding counts characters, of which there are no more.
  have hlength : text.length ≤ width := by
    rw [← String.length_toList]
    exact (LineIndex.length_le_utf8Len _).trans (by rwa [String.utf8Len_toList])
  rw [padded, String.length_append, String.length_ofList, List.length_replicate]
  omega

/-- Padding and the gap to the next column are cut off. -/
theorem trimEnd_padded (before : String) (width : Nat) (text : String) :
    trimEnd (before ++ padded width text ++ "  ") = trimEnd (before ++ text) := by
  have hgap : ∀ c ∈ ("  " : String).toList, Text.isBlank c = true := forall_blanks 2
  rw [padded, trimEnd_append_blanks _ hgap, ← String.append_assoc,
    trimEnd_append_blanks _ (forall_blanks _)]

theorem trimEnd_padded_end (width : Nat) (text : String) :
    trimEnd (padded width text ++ "  ") = trimEnd text := by
  simpa only [String.empty_append] using trimEnd_padded "" width text

theorem isDigit_of_mem_repr {n : Nat} {c : Char} (hc : c ∈ n.repr.toList) : c.isDigit = true := by
  rw [Nat.toList_repr] at hc
  exact Nat.isDigit_of_mem_toDigits (by decide) (by decide) hc

theorem isBlank_of_isDigit {c : Char} (hc : c.isDigit = true) : Text.isBlank c = false := by
  have hdigits : ∀ n < 58, 48 ≤ n → Text.blankPoints.contains n = false := by decide
  obtain ⟨hlow, hhigh⟩ := Text.toNat_of_isDigit hc
  exact hdigits c.toNat (by omega) hlow

theorem trimEnd_severityWord (severity : Severity) :
    trimEnd (severityWord severity) = severityWord severity := by
  cases severity <;> decide

/-- A place ends in a digit. -/
theorem trimEnd_position (start : String) (m : LintMessage) :
    trimEnd (start ++ (Row.ofMessage m).position) = start ++ (Row.ofMessage m).position := by
  have hne : m.start.column.repr ≠ "" := by
    rw [ne_eq, ← String.toList_eq_nil_iff, Nat.toList_repr]
    exact Nat.toDigits_ne_nil
  simp only [Row.ofMessage, ← String.append_assoc]
  exact trimEnd_append_of_forall _ hne fun c hc => isBlank_of_isDigit (isDigit_of_mem_repr hc)

/-! ### Lines -/

/-- Where the columns of a block start, in characters. -/
structure Columns where
  severity : Nat
  message : Nat
  rule : Nat

/-- A line that shows a message in columns: each entry starts where its column does, and but for
white space it is all that the line shows up to the next column. -/
structure Columns.Shows (columns : Columns) (m : LintMessage) (line : String) : Prop where
  position : cell line 0 columns.severity =
    "  " ++ toString m.start.line ++ ":" ++ toString m.start.column
  severity : cell line columns.severity columns.message = severityWord m.severity
  message : cell line columns.message columns.rule = trimEnd m.message
  rule : String.ofList (line.toList.drop columns.rule) = trimEnd (m.rule.getD "")

namespace Widths

/-- The columns that padding to some widths makes. -/
def columns (widths : Widths) : Columns where
  severity := 2 + widths.position + 2
  message := 2 + widths.position + 2 + (widths.severity + 2)
  rule := 2 + widths.position + 2 + (widths.severity + 2) + (widths.message + 2)

/-- Widths that a row does not exceed. -/
structure Cover (widths : Widths) (row : Row) : Prop where
  position : row.position.utf8ByteSize ≤ widths.position
  severity : row.severity.utf8ByteSize ≤ widths.severity
  message : row.message.utf8ByteSize ≤ widths.message

/-- Where widths are not exceeded, the line of a message shows it in the columns that they make. -/
theorem Cover.shows {widths : Widths} {m : LintMessage} (h : widths.Cover (Row.ofMessage m)) :
    widths.columns.Shows m ((Row.ofMessage m).line widths) := by
  have hfirst : ("  " ++ padded widths.position (Row.ofMessage m).position ++ "  ").length =
      2 + widths.position + 2 := by
    rw [String.length_append, String.length_append, length_padded h.position]
    rfl
  have hsecond : (padded widths.severity (Row.ofMessage m).severity ++ "  ").length =
      widths.severity + 2 := by
    rw [String.length_append, length_padded h.severity]
    rfl
  have hthird : (padded widths.message (Row.ofMessage m).message ++ "  ").length =
      widths.message + 2 := by
    rw [String.length_append, length_padded h.message]
    rfl
  have hline : (Row.ofMessage m).line widths =
      trimEnd (("  " ++ padded widths.position (Row.ofMessage m).position ++ "  ") ++
        (padded widths.severity (Row.ofMessage m).severity ++ "  ") ++
        (padded widths.message (Row.ofMessage m).message ++ "  ") ++ (Row.ofMessage m).rule) := by
    simp only [Row.line, String.append_assoc]
  obtain ⟨hposition, hseverity, hmessage, hrule⟩ := cells_of_parts _ _ _ (Row.ofMessage m).rule
    hfirst (congrArg _ hsecond) (congrArg _ hthird)
  rw [← hline] at hposition hseverity hmessage hrule
  refine ⟨hposition.trans ?_, hseverity.trans ?_, hmessage.trans ?_, hrule⟩
  · rw [trimEnd_padded, trimEnd_position]
    simp only [Row.ofMessage, String.append_assoc]
  · rw [trimEnd_padded_end]
    exact trimEnd_severityWord m.severity
  · rw [trimEnd_padded_end]
    rfl

end Widths

theorem largest_le_iff {sizes : List Nat} {n : Nat} :
    largest sizes ≤ n ↔ ∀ size ∈ sizes, size ≤ n := by
  have hgeneral (start : Nat) :
      sizes.foldl max start ≤ n ↔ start ≤ n ∧ ∀ size ∈ sizes, size ≤ n := by
    induction sizes generalizing start with
    | nil => simp
    | cons size sizes ih => rw [List.foldl_cons, ih, List.forall_mem_cons, max_le_iff, and_assoc]
  rw [largest, hgeneral, and_iff_right (Nat.zero_le n)]

theorem Widths.cover_ofRows {rows : List Row} {row : Row} (h : row ∈ rows) :
    (Widths.ofRows rows).Cover row where
  position := largest_le_iff.mp le_rfl _ (List.mem_map_of_mem h)
  severity := largest_le_iff.mp le_rfl _ (List.mem_map_of_mem h)
  message := largest_le_iff.mp le_rfl _ (List.mem_map_of_mem h)

/-- The lines of a block show its messages, one each and in order, in one set of columns. -/
theorem shows_lines (messages : List LintMessage) :
    let widths := Widths.ofRows (messages.map Row.ofMessage)
    List.Forall₂ widths.columns.Shows messages
      ((messages.map Row.ofMessage).map (Row.line widths)) := by
  intro widths
  rw [List.map_map, List.forall₂_map_right_iff, List.forall₂_same]
  exact fun m hm => (Widths.cover_ofRows (List.mem_map_of_mem hm)).shows

end TsxLint.Stylish
