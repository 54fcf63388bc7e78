/-
When the parser of diffs comes back: every loop of it moves on, so that only a number of more
than 32 bits keeps it from an answer or an error.
-/
import Mathlib.Data.List.Infix
import Gnostr.TuiGit.DiffCuts

namespace Gnostr

namespace TuiGit

open CursorParser
open String (utf8Len)

variable {before word after text : List Char}

/-- No number of the text has more than 32 bits. -/
def numbersFit (text : List Char) : Bool :=
  text.tails.all fun rest =>
    rest.takeWhile Char.isDigit = [] ||
      (parseUnsigned (2 ^ 32) (rest.takeWhile Char.isDigit)).isSome

section Loops

theorem ne_nil_of_bind {α β : Type} {p : Parser α} {next : α → Parser β} [Forward p]
    [∀ value, Forward (next value)]
    (hp : ∀ {before word after value}, p.Reads before word after value → word ≠ []) {value : β}
    (hreads : (p >>= next).Reads before word after value) : word ≠ [] := by
  obtain ⟨first, last, _, rfl, hfirst, -⟩ := bind_reads_iff.mp hreads
  exact List.append_ne_nil_of_left_ne_nil (hp hfirst) last

theorem consume_ne_nil {expected : String} (hexpected : expected.toList ≠ []) {span : Span}
    (hreads : (consume expected).Reads before word after span) : word ≠ [] := by
  rwa [(consume_reads_iff.mp hreads).1]

theorem skipLine_ne_nil {value : Unit} (hreads : skipLine.Reads before word after value) :
    word ≠ [] := by
  refine ne_nil_of_bind (fun {_ _ _ spans} hreads => ?_) hreads
  obtain ⟨skipped, last, rfl, -, hline, -⟩ := consumeUntil_reads_iff.mp hreads
  apply List.append_ne_nil_of_right_ne_nil
  rcases newline_reads hline with rfl | rfl <;> exact List.cons_ne_nil _ _

theorem hunk_ne_nil {read : Hunk} (hreads : hunk.Reads before word after read) : word ≠ [] := by
  refine ne_nil_of_bind (fun hheader => ?_) (position_bind_leads_iff.mp hreads)
  refine ne_nil_of_bind (fun hold => ?_) (position_bind_leads_iff.mp hheader)
  exact ne_nil_of_bind (fun hlead => consume_ne_nil (by decide) hlead) hold

theorem fileHeader_ne_nil {start : ℕ} {header : DiffHeader}
    (hreads : (fileHeader start).Reads before word after header) : word ≠ [] := by
  refine ne_nil_of_bind (fun hnames => ?_) hreads
  rcases orElse_reads_iff.mp hnames with hconflicted | ⟨first, last, rfl, -, hnames⟩
  · exact ne_nil_of_bind (fun hlead => consume_ne_nil (by decide) hlead) hconflicted
  · apply List.append_ne_nil_of_right_ne_nil
    exact ne_nil_of_bind (fun hlead => consume_ne_nil (by decide) hlead) hnames

theorem diffHeader_ne_nil {header : DiffHeader}
    (hreads : diffHeader.Reads before word after header) : word ≠ [] := by
  rcases orElse_reads_iff.mp (position_bind_leads_iff.mp hreads) with
    hunmerged | ⟨first, last, rfl, -, hreads⟩
  · exact ne_nil_of_bind (fun hlead => consume_ne_nil (by decide) hlead) hunmerged
  · exact List.append_ne_nil_of_right_ne_nil _ (fileHeader_ne_nil hreads)

theorem LinesOf.head?_of_nil {p : Char → Bool} (hlines : LinesOf p after []) :
    after.head?.any p = false := by
  cases hlines with
  | nil hafter => exact hafter

/-- Where a line of a hunk begins, a change with the lines around it is not empty. -/
theorem contextAndChange_ne_nil {changed : Change}
    (hline : (word ++ after).head?.any isHunkLine = true)
    (hreads : contextAndChange.Reads before word after changed) : word ≠ [] := by
  obtain ⟨gap, rest, _, rfl, hgap, hreads⟩ := bind_reads_iff.mp hreads
  obtain ⟨middle, rest, _, rfl, hchange, -⟩ := bind_reads_iff.mp hreads
  obtain ⟨removed, removedMark, added, addedMark, rfl, hremoved, -, hadded, -, -⟩ :=
    change_reads hchange
  have hgap := contextLines_reads hgap
  intro hnil
  simp only [List.append_eq_nil_iff] at hnil
  obtain ⟨rfl, ⟨rfl, rfl, rfl, rfl⟩, rfl⟩ := hnil
  have hcontext := hgap.head?_of_nil
  have hminus := hremoved.head?_of_nil
  have hplus := hadded.head?_of_nil
  simp only [List.nil_append, List.append_nil] at hline hcontext hminus hplus
  cases after with
  | nil => cases hline
  | cons c after =>
      rw [List.head?_cons, Option.any_some] at hline hcontext hminus hplus
      rw [isHunkLine, hcontext, hminus, hplus] at hline
      cases hline

instance advances_line (pred : Test) :
    Advances (fun input cursor => decide (cursor < utf8Len input) && pred input cursor)
      (scanUntil newlineOrEof) where
  ne_nil := by
    rintro before word after spans hcondition hreads rfl
    rcases scanLine_reads hreads with ⟨init, hnil, -⟩ | ⟨rfl, -⟩
    · exact List.append_ne_nil_of_right_ne_nil init (List.cons_ne_nil _ _) hnil.symm
    · simp at hcondition

instance advances_skipLine (condition : Test) : Advances condition skipLine where
  ne_nil _ hreads := skipLine_ne_nil hreads

instance advances_contextAndChange : Advances atHunkLine contextAndChange where
  ne_nil hcondition hreads :=
    contextAndChange_ne_nil ((looksAt_hunkLine _ _).symm.trans hcondition) hreads

instance advances_hunk (condition : Test) : Advances condition hunk where
  ne_nil _ hreads := hunk_ne_nil hreads

instance advances_fileDiff (condition : Test) : Advances condition fileDiff where
  ne_nil _ hreads := ne_nil_of_bind diffHeader_ne_nil (position_bind_leads_iff.mp hreads)

end Loops

section Ends

instance comesBack_consume (expected : String) : ComesBack text (consume expected) where
  not_panics _ _ _ _ hpanics := by
    rw [Panics, Leads, consume] at hpanics
    split_ifs at hpanics <;> cases congrArg Prod.fst hpanics

instance comesBack_eof : ComesBack text eof where
  not_panics _ _ _ _ hpanics := by
    rw [Panics, Leads, eof] at hpanics
    split_ifs at hpanics <;> cases congrArg Prod.fst hpanics

instance comesBack_asciiLowercase : ComesBack text asciiLowercase where
  not_panics _ _ _ _ hpanics := by
    rw [Panics, Leads, asciiLowercase] at hpanics
    split_ifs at hpanics <;> cases congrArg Prod.fst hpanics

instance comesBack_number [hfit : Fact (numbersFit text = true)] : ComesBack text number where
  not_panics before word after htext hpanics := by
    have hsome := List.all_eq_true.mp hfit.out (word ++ after)
      ((List.mem_tails _ _).mpr ⟨before, htext⟩)
    rw [Panics, Leads, number_append] at hpanics
    split_ifs at hpanics with hdigits
    · cases congrArg Prod.fst hpanics
    · rw [decide_eq_false hdigits, Bool.false_or, Option.isSome_iff_exists] at hsome
      obtain ⟨value, hvalue⟩ := hsome
      rw [hvalue] at hpanics
      cases congrArg Prod.fst hpanics

instance comesBack_newline : ComesBack text newline := by unfold newline; infer_instance

instance comesBack_newlineOrEof : ComesBack text newlineOrEof := by
  unfold newlineOrEof; infer_instance

instance comesBack_diffHeaderPathPrefix : ComesBack text diffHeaderPathPrefix := by
  unfold diffHeaderPathPrefix; infer_instance

instance comesBack_skipLine : ComesBack text skipLine := by unfold skipLine; infer_instance

instance comesBack_consumeLinesWhilePrefixed (pred : Test) :
    ComesBack text (consumeLinesWhilePrefixed pred) := by
  unfold consumeLinesWhilePrefixed; infer_instance

instance comesBack_change : ComesBack text change := by unfold change; infer_instance

instance comesBack_contextAndChange : ComesBack text contextAndChange := by
  unfold contextAndChange; infer_instance

instance comesBack_hunkContent : ComesBack text hunkContent := by
  unfold hunkContent; infer_instance

instance comesBack_functionContext : ComesBack text functionContext := by
  unfold functionContext; infer_instance

instance comesBack_unmergedFile : ComesBack text unmergedFile := by
  unfold unmergedFile; infer_instance

instance comesBack_conflictedFile : ComesBack text conflictedFile := by
  unfold conflictedFile; infer_instance

set_option synthInstance.maxSize 256 in
instance comesBack_oldNewFileHeader : ComesBack text oldNewFileHeader := by
  unfold oldNewFileHeader; infer_instance

instance comesBack_lineIf (pattern : String) (found missed : Status) :
    ComesBack text (lineIf pattern found missed) := by
  unfold lineIf; infer_instance

instance comesBack_indexLine (pattern : String) : ComesBack text (indexLine pattern) := by
  unfold indexLine; infer_instance

instance comesBack_modeLines : ComesBack text modeLines := by unfold modeLines; infer_instance

instance comesBack_nameLines (target : String) (found : Status) :
    ComesBack text (nameLines target found) := by
  unfold nameLines; infer_instance

instance comesBack_createdOrDeleted (status : Status) :
    ComesBack text (createdOrDeleted status) := by
  unfold createdOrDeleted; infer_instance

set_option synthInstance.maxSize 512 in
instance comesBack_changedStatus (status : Status) : ComesBack text (changedStatus status) := by
  unfold changedStatus; infer_instance

instance comesBack_indexIds : ComesBack text indexIds := by unfold indexIds; infer_instance

instance comesBack_binaryFiles : ComesBack text binaryFiles := by
  unfold binaryFiles; infer_instance

instance comesBack_fileNames : ComesBack text fileNames := by unfold fileNames; infer_instance

instance comesBack_extendedHeader (status : Status) : ComesBack text (extendedHeader status) := by
  unfold extendedHeader; infer_instance

instance comesBack_contentHeader : ComesBack text contentHeader := by
  unfold contentHeader; infer_instance

instance comesBack_fileHeader (start : ℕ) : ComesBack text (fileHeader start) := by
  unfold fileHeader; infer_instance

instance comesBack_diffHeader : ComesBack text diffHeader := by unfold diffHeader; infer_instance

instance comesBack_skipUntilDiffHeader : ComesBack text skipUntilDiffHeader := by
  unfold skipUntilDiffHeader; infer_instance

variable [Fact (numbersFit text = true)]

instance comesBack_lineCount : ComesBack text lineCount := by unfold lineCount; infer_instance

instance comesBack_lineNumbers (lead : String) : ComesBack text (lineNumbers lead) := by
  unfold lineNumbers; infer_instance

instance comesBack_hunkHeader : ComesBack text hunkHeader := by unfold hunkHeader; infer_instance

instance comesBack_hunk : ComesBack text hunk := by unfold hunk; infer_instance

instance comesBack_fileHunks (status : Status) : ComesBack text (fileHunks status) := by
  unfold fileHunks; infer_instance

instance comesBack_fileDiff : ComesBack text fileDiff := by unfold fileDiff; infer_instance

instance comesBack_parseDiff : ComesBack text parseDiff := by unfold parseDiff; infer_instance

set_option synthInstance.maxSize 256 in
instance comesBack_commitHeader : ComesBack text commitHeader := by
  unfold commitHeader; infer_instance

instance comesBack_parseCommit : ComesBack text parseCommit := by
  unfold parseCommit; infer_instance

end Ends

/-- A text with no number of more than 32 bits is parsed, or an error says why not. -/
theorem parseDiff_answers (hfit : numbersFit text = true) :
    (∃ files stop, parseDiff text 0 = (.ok files, stop)) ∨
      ∃ error stop, parseDiff text 0 = (.err error, stop) :=
  have := Fact.mk hfit
  comesBack_parseDiff.answers

theorem parseDiff_answers_doc : (∃ files stop, parseDiff docDiff 0 = (.ok files, stop)) ∨
    ∃ error stop, parseDiff docDiff 0 = (.err error, stop) :=
  parseDiff_answers (by decide +kernel)

/-- A line number of 33 bits. -/
example : parseDiff "diff --git a/foo b/foo\n@@ -4294967296 +1 @@\n".toList 0 = (.panic, 37) := by
  decide +kernel

theorem parseCommit_answers (hfit : numbersFit text = true) :
    (∃ commit stop, parseCommit text 0 = (.ok commit, stop)) ∨
      ∃ error stop, parseCommit text 0 = (.err error, stop) :=
  have := Fact.mk hfit
  comesBack_parseCommit.answers

theorem parseCommit_answers_foo :
    (∃ commit stop, parseCommit fooCommit 0 = (.ok commit, stop)) ∨
      ∃ error stop, parseCommit fooCommit 0 = (.err error, stop) :=
  parseCommit_answers (by decide +kernel)

end TuiGit

end Gnostr
