import TsxLint.Proofs.Files.Paths
import TsxLint.Proofs.Report.Columns

/-!
# Blocks and totals

Read line by line, the text of a report is a block for each file with messages and, if there is a
block, a line with the totals. The totals are counted in the reports; they are also what a reader
counts in the blocks, by the entries in the columns for severities. No line is broken by what it
shows, as long as no path, message or rule has a line feed. A report whose columns cannot be padded,
because the widest message has more bytes than padding can count, has no text.

## Main definitions

* `Stylish.IsOneLine`, `FileReport.IsPlain`: what can be shown on a line.
* `Stylish.Block`: a block, and `Stylish.Block.IsOf`, the blocks that show a report.
* `Stylish.LaysOut`: a text that lays out reports in blocks.

## Main results

* `Stylish.render?_eq_none_iff`: the reports without a text.
* `Stylish.laid_out_unless_too_wide`: the text of all other reports lays them out.
-/

namespace TsxLint

namespace Stylish

/-! ### Text and lines -/

/-- A text without line feeds. -/
def IsOneLine (text : String) : Prop := '\n' ∉ text.toList

instance : DecidablePred IsOneLine := fun text => inferInstanceAs (Decidable ('\n' ∉ text.toList))

@[simp] theorem isOneLine_append {first last : String} :
    IsOneLine (first ++ last) ↔ IsOneLine first ∧ IsOneLine last := by
  simp [IsOneLine, not_or]

/-- Reading the lines of a text gives them back, and the empty line behind the last line feed. -/
theorem splitAt_textOf {lines : List String} (hlines : ∀ line ∈ lines, IsOneLine line) :
    Text.splitAt '\n' (textOf lines) = lines ++ [""] := by
  induction lines with
  | nil => rfl
  | cons line lines ih =>
    obtain ⟨hline, hlines⟩ := List.forall_mem_cons.mp hlines
    have hcons : textOf (line :: lines) = line ++ String.ofList ['\n'] ++ textOf lines := by
      rw [textOf, List.map_cons, String.join_cons, textOf]
    rw [hcons, Text.splitAt_append_separator, Text.splitAt_of_free hline, ih hlines,
      List.singleton_append, List.cons_append]

theorem isOneLine_trimEnd {text : String} (h : IsOneLine text) : IsOneLine (trimEnd text) := by
  intro hmem
  rw [toList_trimEnd] at hmem
  exact h ((List.rdropWhile_prefix _ _).subset hmem)

@[simp] theorem isOneLine_padded {width : Nat} {text : String} :
    IsOneLine (padded width text) ↔ IsOneLine text := by
  rw [padded, isOneLine_append, and_iff_left]
  intro hmem
  rw [String.toList_ofList] at hmem
  exact absurd (List.eq_of_mem_replicate hmem) (by decide)

@[simp] theorem isOneLine_repr (n : Nat) : IsOneLine n.repr := by
  intro hmem
  exact absurd (isDigit_of_mem_repr hmem) (by decide)

theorem isOneLine_seenFrom {project path : String} (h : IsOneLine path) :
    IsOneLine (Path.seenFrom project path) := by
  intro hmem
  rcases Path.mem_of_mem_seenFrom hmem with hslash | hmem
  · exact absurd hslash (by decide)
  · exact h hmem

@[simp] theorem isOneLine_severityWord (severity : Severity) : IsOneLine (severityWord severity) := by
  cases severity <;> decide

end Stylish

/-- A report that lines can show: nothing in it has a line feed, and every message is an error or a
warning. -/
structure FileReport.IsPlain (report : FileReport) : Prop where
  path : Stylish.IsOneLine report.path
  message : ∀ m ∈ report.messages, Stylish.IsOneLine m.message
  rule : ∀ m ∈ report.messages, ∀ rule ∈ m.rule, Stylish.IsOneLine rule
  severity : ∀ m ∈ report.messages, m.severity ≠ .off

namespace Stylish

variable {project : String} {report : FileReport}

theorem isOneLine_line (widths : Widths) {m : LintMessage} (hmessage : IsOneLine m.message)
    (hrule : ∀ rule ∈ m.rule, IsOneLine rule) : IsOneLine ((Row.ofMessage m).line widths) := by
  have hshown : IsOneLine (m.rule.getD "") := by
    cases hm : m.rule with
    | none => decide
    | some rule => exact hrule rule hm
  refine isOneLine_trimEnd ?_
  simp +decide [Row.ofMessage, hmessage, hshown]

/-! ### Blocks -/

/-- A block of a report, with the columns that its rows are set in. -/
structure Block where
  header : String
  rows : List String
  columns : Columns

namespace Block

/-- The lines of a block. -/
def lines (b : Block) : List String := b.header :: b.rows ++ [""]

/-- The rows that show a severity. -/
def rowsOf (b : Block) (severity : Severity) : List String :=
  b.rows.filter fun row =>
    cell row b.columns.severity b.columns.message == severityWord severity

/-- What a reader of some blocks counts in them. -/
def summary (blocks : List Block) : Summary where
  errors := (blocks.flatMap (·.rowsOf .error)).length
  warnings := (blocks.flatMap (·.rowsOf .warn)).length

/-- A block that shows a report: its path as seen from the project, and each message in one row, in
order and in the same columns. -/
structure IsOf (project : String) (report : FileReport) (b : Block) : Prop where
  header : b.header = Path.seenFrom project report.path
  rows : List.Forall₂ b.columns.Shows report.messages b.rows

/-- The block of a report. -/
def ofReport (project : String) (report : FileReport) : Block :=
  let rows := report.messages.map Row.ofMessage
  let widths := Widths.ofRows rows
  ⟨Path.seenFrom project report.path, rows.map (Row.line widths), widths.columns⟩

theorem isOf_ofReport (project : String) (report : FileReport) :
    IsOf project report (ofReport project report) where
  header := rfl
  rows := shows_lines report.messages

end Block

/-- A text that lays out reports in blocks: a block for each report that is not clean, in order, and
behind the last of them a line with the totals. Nothing is written about clean reports alone. -/
structure LaysOut (project : String) (reports : List FileReport) (output : String)
    (blocks : List Block) : Prop where
  shown : List.Forall₂ (Block.IsOf project) (reports.filter fun r => !r.isClean) blocks
  lines : Text.splitAt '\n' output = blocks.flatMap Block.lines ++
    (if reports.all (·.isClean) then [] else [(Block.summary blocks).text]) ++ [""]
  problems : (Block.summary blocks).problems = (blocks.flatMap Block.rows).length
  silent : output = "" ↔ ∀ r ∈ reports, r.isClean = true

/-! ### Totals -/

theorem severityWord_injective : Function.Injective severityWord := by
  intro a b
  cases a <;> cases b <;> decide

/-- The rows that show a severity are those of the messages of that severity. -/
theorem Block.IsOf.length_rowsOf {b : Block} (h : IsOf project report b) (severity : Severity) :
    (b.rowsOf severity).length = (report.messages.filter (·.severity == severity)).length := by
  refine (List.Forall₂.length_eq (R := b.columns.Shows) (List.rel_filter ?_ h.rows)).symm
  intro m row hrow
  simp only [hrow.severity, beq_iff_eq]
  exact ⟨congrArg severityWord, fun h => severityWord_injective h⟩

variable {reports : List FileReport} {blocks : List Block}

theorem ofReports_eq (reports : List FileReport) : Summary.ofReports reports =
    ⟨((reports.flatMap FileReport.messages).filter (·.severity == .error)).length,
      ((reports.flatMap FileReport.messages).filter (·.severity == .warn)).length⟩ := by
  induction reports with
  | nil => rfl
  | cons r reports ih =>
    obtain ⟨herrors, hwarnings⟩ := Summary.mk.inj ih
    simp only [Summary.ofReports, List.foldr_cons, List.flatMap_cons, List.filter_append,
      List.length_append, herrors, hwarnings]
    rfl

/-- Only clean reports are left out, which have no messages. -/
theorem flatMap_messages_filter (reports : List FileReport) :
    (reports.filter fun r => !r.isClean).flatMap FileReport.messages =
      reports.flatMap FileReport.messages := by
  induction reports with
  | nil => rfl
  | cons r reports ih =>
    rw [List.filter_cons, List.flatMap_cons, ← ih]
    cases hclean : r.isClean with
    | true => simp [List.isEmpty_iff.mp hclean]
    | false => simp

/-- What a reader counts in the blocks are the totals of the reports. -/
theorem summary_eq
    (h : List.Forall₂ (Block.IsOf project) (reports.filter fun r => !r.isClean) blocks) :
    Block.summary blocks = Summary.ofReports reports := by
  -- The reports that are shown are generalized: the induction is on the blocks and their reports.
  have hcount (severity : Severity) : (blocks.flatMap (·.rowsOf severity)).length =
      ((reports.flatMap FileReport.messages).filter (·.severity == severity)).length := by
    rw [← flatMap_messages_filter]
    generalize (reports.filter fun r => !r.isClean) = shown at h
    induction h with
    | nil => rfl
    | cons hfirst _ ih =>
      rw [List.flatMap_cons, List.flatMap_cons, List.filter_append, List.length_append,
        List.length_append, hfirst.length_rowsOf, ih]
  rw [ofReports_eq, Block.summary, hcount, hcount]

/-- Every message that lines can show is an error or a warning. -/
theorem problems_ofReports (hreports : ∀ r ∈ reports, r.IsPlain) :
    (Summary.ofReports reports).problems = (reports.flatMap FileReport.messages).length := by
  have hwarning : ∀ m ∈ reports.flatMap FileReport.messages,
      (m.severity == .warn) = !(m.severity == .error) := by
    intro m hm
    obtain ⟨r, hr, hm⟩ := List.mem_flatMap.mp hm
    cases hseverity : m.severity with
    | off => exact absurd hseverity ((hreports r hr).severity m hm)
    | warn | error => rfl
  rw [ofReports_eq, Summary.problems, List.filter_congr hwarning,
    ← List.length_eq_length_filter_add]

/-- The totals are the number of rows. -/
theorem problems_summary (hreports : ∀ r ∈ reports, r.IsPlain)
    (h : List.Forall₂ (Block.IsOf project) (reports.filter fun r => !r.isClean) blocks) :
    (Block.summary blocks).problems = (blocks.flatMap Block.rows).length := by
  rw [summary_eq h, problems_ofReports hreports, ← flatMap_messages_filter]
  generalize (reports.filter fun r => !r.isClean) = shown at h
  induction h with
  | nil => rfl
  | cons hfirst _ ih =>
    rw [List.flatMap_cons, List.flatMap_cons, List.length_append, List.length_append,
      hfirst.rows.length_eq, ih]

theorem totals_eq (hreports : ∀ r ∈ reports, r.IsPlain) :
    totals (Summary.ofReports reports) =
      if reports.all (·.isClean) then [] else [(Summary.ofReports reports).text] := by
  have hnone : (Summary.ofReports reports).problems = 0 ↔ reports.all (·.isClean) = true := by
    rw [problems_ofReports hreports, List.length_eq_zero_iff, List.flatMap_eq_nil_iff]
    simp [FileReport.isClean]
  rw [totals]
  cases hall : reports.all (·.isClean) with
  | true => simp [hnone.mpr hall]
  | false => simp [Nat.pos_iff_ne_zero, hnone, hall]

/-! ### Reports without a text -/

/-- A block can be padded unless one of its messages is too wide. -/
theorem fit_iff {messages : List LintMessage} :
    (Widths.ofRows (messages.map Row.ofMessage)).fit = true ↔
      ∀ m ∈ messages, m.message.utf8ByteSize ≤ widthLimit := by
  simp [Widths.fit, Widths.ofRows, largest_le_iff, Row.ofMessage]

theorem block?_eq (project : String) (report : FileReport) : block? project report =
    if (∀ m ∈ report.messages, m.message.utf8ByteSize ≤ widthLimit) then
      some (Block.ofReport project report).lines else none := by
  simp only [block?, fit_iff]
  rfl

theorem mapM_eq_none_iff {α β : Type} {f : α → Option β} {as : List α} :
    as.mapM f = none ↔ ∃ a ∈ as, f a = none := by
  induction as with
  | nil => simp
  | cons a as ih =>
    rw [List.mapM_cons]
    cases ha : f a with
    | none => simp [ha]
    | some b => cases has : as.mapM f <;> simpa [ha, has] using ih

theorem eq_map_of_mapM_eq_some {α β : Type} {f : α → Option β} {g : α → β}
    (hfg : ∀ a b, f a = some b → b = g a) {as : List α} {bs : List β}
    (h : as.mapM f = some bs) : bs = as.map g := by
  induction as generalizing bs with
  | nil => simpa using h.symm
  | cons a as ih =>
    rw [List.mapM_cons] at h
    cases ha : f a with
    | none => simp [ha] at h
    | some b =>
      cases has : as.mapM f with
      | none => simp [ha, has] at h
      | some rest =>
        obtain rfl : b :: rest = bs := by simpa [ha, has] using h
        rw [List.map_cons, ← hfg a b ha, ← ih has]

/-- **Reports without a text.** A report has no text if and only if one of its messages has more
bytes than padding can count. -/
theorem render?_eq_none_iff (project : String) (reports : List FileReport) :
    render? project reports = none ↔
      ∃ r ∈ reports, ∃ m ∈ r.messages, widthLimit < m.message.utf8ByteSize := by
  have hlines : lines? project reports = none ↔
      (reports.filter fun r => !r.isClean).mapM (block? project) = none := by
    cases h : (reports.filter fun r => !r.isClean).mapM (block? project) <;> simp [lines?, h]
  rw [render?, Option.map_eq_none_iff, hlines, mapM_eq_none_iff]
  constructor
  · rintro ⟨r, hr, hblock⟩
    rw [block?_eq, ite_eq_right_iff] at hblock
    have hwide : ¬∀ m ∈ r.messages, m.message.utf8ByteSize ≤ widthLimit := fun h => nomatch hblock h
    push Not at hwide
    exact ⟨r, (List.mem_filter.mp hr).1, hwide⟩
  · rintro ⟨r, hr, m, hm, hwide⟩
    have hclean : r.isClean = false := List.isEmpty_eq_false_iff_exists_mem.mpr ⟨m, hm⟩
    refine ⟨r, List.mem_filter.mpr ⟨hr, by simp [hclean]⟩, ?_⟩
    rw [block?_eq, if_neg fun h => Nat.not_le_of_lt hwide (h m hm)]

/-! ### Reports with a text -/

/-- The lines of a report are those of its blocks and the totals. -/
theorem eq_of_lines?_eq_some {lines : List String}
    (h : lines? project reports = some lines) :
    lines =
      ((reports.filter fun r => !r.isClean).map (Block.ofReport project)).flatMap Block.lines ++
        totals (Summary.ofReports reports) := by
  obtain ⟨blocks, hblocks, hlines⟩ := Option.bind_eq_some_iff.mp h
  have hmap : blocks = (reports.filter fun r => !r.isClean).map fun r =>
      (Block.ofReport project r).lines := by
    refine eq_map_of_mapM_eq_some (fun r lines hblock => ?_) hblocks
    rw [block?_eq] at hblock
    split at hblock
    · exact (Option.some.inj hblock).symm
    · cases hblock
  obtain rfl := Option.some.inj hlines
  rw [hmap, List.flatMap_map, List.flatMap_def]

/-- No line of a block is broken by what it shows. -/
theorem isOneLine_of_mem_block (h : report.IsPlain) {line : String}
    (hline : line ∈ (Block.ofReport project report).lines) : IsOneLine line := by
  simp only [Block.lines, Block.ofReport, List.mem_append, List.mem_cons, List.mem_map,
    List.not_mem_nil, or_false] at hline
  rcases hline with (rfl | ⟨_, ⟨m, hm, rfl⟩, rfl⟩) | rfl
  · exact isOneLine_seenFrom h.path
  · exact isOneLine_line _ (h.message m hm) (h.rule m hm)
  · decide

@[simp] theorem isOneLine_counted {count : Nat} {noun : String} :
    IsOneLine (Summary.counted count noun) ↔ IsOneLine noun := by
  unfold Summary.counted
  split <;> simp +decide

theorem isOneLine_text (summary : Summary) : IsOneLine summary.text := by
  simp +decide [Summary.text]

theorem isOneLine_of_lines?_eq_some (hreports : ∀ r ∈ reports, r.IsPlain) {lines : List String}
    (h : lines? project reports = some lines) : ∀ line ∈ lines, IsOneLine line := by
  intro line hline
  rw [eq_of_lines?_eq_some h, List.mem_append] at hline
  rcases hline with hline | hline
  · obtain ⟨b, hb, hline⟩ := List.mem_flatMap.mp hline
    obtain ⟨r, hr, rfl⟩ := List.mem_map.mp hb
    exact isOneLine_of_mem_block (hreports r (List.mem_filter.mp hr).1) hline
  · rw [totals] at hline
    split at hline
    · rw [List.mem_singleton.mp hline]
      exact isOneLine_text _
    · cases hline

/-- A text of blocks and totals is empty if there is no block, and only then. -/
theorem eq_empty_iff {output : String}
    (hshown : List.Forall₂ (Block.IsOf project) (reports.filter fun r => !r.isClean) blocks)
    (hlines : Text.splitAt '\n' output = blocks.flatMap Block.lines ++
      (if reports.all (·.isClean) then [] else [(Block.summary blocks).text]) ++ [""]) :
    output = "" ↔ ∀ r ∈ reports, r.isClean = true := by
  constructor
  · rintro rfl
    have hnone := List.self_eq_append_left.mp hlines
    rw [List.append_eq_nil_iff, ite_eq_left_iff] at hnone
    by_contra hall
    exact absurd (hnone.2 (by simpa using hall)) (List.cons_ne_nil _ _)
  · intro hall
    have hfilter : (reports.filter fun r => !r.isClean) = [] :=
      List.filter_eq_nil_iff.mpr fun r hr => by simp [hall r hr]
    rw [hfilter, List.forall₂_nil_left_iff] at hshown
    rw [hshown, if_pos (List.all_eq_true.mpr hall)] at hlines
    exact Text.eq_empty_of_splitAt hlines

/-- **Reports are laid out unless a message is too wide.** For reports that lines can show, the text
is missing if and only if a message has more bytes than padding can count. Otherwise it is read line
by line as a block for each report with messages, each message in one row and each column of a block
at one offset on all rows, and then, if there are messages, as a line with the numbers of rows, of
rows that show an error and of rows that show a warning. It is empty if and only if there are no
messages. -/
theorem laid_out_unless_too_wide (project : String) (reports : List FileReport)
    (hreports : ∀ r ∈ reports, r.IsPlain) :
    (render? project reports = none ↔
      ∃ r ∈ reports, ∃ m ∈ r.messages, widthLimit < m.message.utf8ByteSize) ∧
    ∀ output, render? project reports = some output →
      ∃ blocks, LaysOut project reports output blocks := by
  refine ⟨render?_eq_none_iff project reports, fun output houtput => ?_⟩
  obtain ⟨lines, hlines, rfl⟩ := Option.map_eq_some_iff.mp houtput
  have hshown : List.Forall₂ (Block.IsOf project) (reports.filter fun r => !r.isClean)
      ((reports.filter fun r => !r.isClean).map (Block.ofReport project)) :=
    List.forall₂_map_right_iff.mpr
      (List.forall₂_same.mpr fun r _ => Block.isOf_ofReport project r)
  have hsplit : Text.splitAt '\n' (textOf lines) =
      ((reports.filter fun r => !r.isClean).map (Block.ofReport project)).flatMap Block.lines ++
        (if reports.all (·.isClean) then [] else [(Summary.ofReports reports).text]) ++ [""] := by
    rw [splitAt_textOf (isOneLine_of_lines?_eq_some hreports hlines), ← totals_eq hreports,
      ← eq_of_lines?_eq_some hlines]
  rw [← summary_eq hshown] at hsplit
  exact ⟨_, hshown, hsplit, problems_summary hreports hshown, eq_empty_iff hshown hsplit⟩

/-- A clean report, and one with a message of more bytes than characters and a message without a
rule. -/
private def mixedReports : List FileReport :=
  [⟨"/work/app/src/Clean.tsx", []⟩,
    ⟨"/work/app/src/Card.tsx",
      [⟨some "prefer-const", .warn, some "const", "'größe' is never reassigned.", ⟨3, 7⟩, ⟨3, 12⟩,
          false⟩,
        .fatal "Syntax error" ⟨12, 1⟩]⟩]

example : render? "/work/app" mixedReports = some ("src/Card.tsx\n" ++
    "  3:7   warning  'größe' is never reassigned.    prefer-const\n" ++
    "  12:1  error    Syntax error\n\n✖ 2 problems (1 error, 1 warning)\n") := by
  decide +kernel

/-- The columns are the same with and without a rule, and with more bytes than characters. -/
theorem mixed_reports_laid_out : (∀ r ∈ mixedReports, r.IsPlain) ∧
    ∃ output blocks, render? "/work/app" mixedReports = some output ∧
      LaysOut "/work/app" mixedReports output blocks := by
  have hplain : ∀ r ∈ mixedReports, r.IsPlain := by
    intro r hr
    simp only [mixedReports, List.mem_cons, List.not_mem_nil, or_false] at hr
    rcases hr with rfl | rfl <;> exact ⟨by decide, by decide, by decide, by decide⟩
  obtain ⟨hnone, hsome⟩ := laid_out_unless_too_wide "/work/app" mixedReports hplain
  cases houtput : render? "/work/app" mixedReports with
  | none => exact absurd (hnone.mp houtput) (by decide)
  | some output =>
    obtain ⟨blocks, hblocks⟩ := hsome output houtput
    exact ⟨hplain, output, blocks, rfl, hblocks⟩

/-- A message with one byte more than padding can count. -/
private def wideMessage : LintMessage :=
  ⟨some "prefer-const", .warn, some "const", String.ofList (List.replicate 65536 'a'), ⟨1, 5⟩,
    ⟨1, 6⟩, false⟩

theorem isOneLine_wideMessage : IsOneLine wideMessage.message := by
  intro hmem
  rw [wideMessage, String.toList_ofList] at hmem
  exact absurd (List.eq_of_mem_replicate hmem) (by decide)

theorem widthLimit_lt_wideMessage : widthLimit < wideMessage.message.utf8ByteSize := by
  have hlength := LineIndex.length_le_utf8Len (List.replicate 65536 'a')
  rw [List.length_replicate] at hlength
  rw [wideMessage, String.utf8ByteSize_ofList]
  exact Nat.lt_of_succ_le hlength

/-- A report that lines can show, but that no text lays out. -/
theorem wide_report_not_laid_out :
    (∀ r ∈ [FileReport.mk "src/wide.ts" [wideMessage]], r.IsPlain) ∧
      ¬∃ output blocks, render? "" [⟨"src/wide.ts", [wideMessage]⟩] = some output ∧
        LaysOut "" [⟨"src/wide.ts", [wideMessage]⟩] output blocks := by
  constructor
  · refine List.forall_mem_singleton.mpr ⟨by decide, ?_, ?_, ?_⟩
    · exact List.forall_mem_singleton.mpr isOneLine_wideMessage
    · refine List.forall_mem_singleton.mpr fun rule hrule => ?_
      obtain rfl : "prefer-const" = rule := Option.some.inj hrule
      decide
    · exact List.forall_mem_singleton.mpr (by decide : Severity.warn ≠ .off)
  · rintro ⟨output, blocks, houtput, -⟩
    have hnone := (render?_eq_none_iff "" [⟨"src/wide.ts", [wideMessage]⟩]).mpr
      ⟨_, List.mem_singleton_self _, _, List.mem_singleton_self _, widthLimit_lt_wideMessage⟩
    rw [hnone] at houtput
    cases houtput

end Stylish

end TsxLint
