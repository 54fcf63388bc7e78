/-
What the ranges of a parsed diff say: the pieces of the files, one behind the other, are
the text, and the changes of a hunk are its lines with a sign, among lines without one.
-/
import Gnostr.TuiGit.GituDiff

namespace Gnostr

namespace TuiGit

open CursorParser
open String (utf8Len)

/-- `text[span]`. -/
def slice (text : List Char) (span : Span) : Option (List Char) :=
  getRange text span.start span.stop

/-- The span of a word behind the first part of a text. -/
def spanAt (before word : List Char) : Span :=
  ⟨utf8Len before, utf8Len before + utf8Len word⟩

def Hunk.pieces (hunk : Hunk) : List Span := [hunk.header.range, hunk.content.range]

/-- The header and what is behind it: the hunks, or in an unmerged file all the lines. -/
def FileDiff.pieces (file : FileDiff) : List Span :=
  file.header.range ::
    if file.header.status = .unmerged then [⟨file.header.range.stop, file.range.stop⟩]
    else file.hunks.flatMap Hunk.pieces

def Commit.pieces (commit : Commit) : List Span :=
  commit.header.range :: commit.diff.flatMap FileDiff.pieces

/-- Spans that cut a word up, behind the first part of a text. -/
def Cuts : List Char → List Char → List Span → Prop
  | _, word, [] => word = []
  | before, word, span :: spans => ∃ first last, word = first ++ last ∧
      span = spanAt before first ∧ Cuts (before ++ first) last spans

/-- All the next lines that begin with a character of a kind; the last one may end with the
text. -/
inductive LinesOf (p : Char → Bool) (after : List Char) : List Char → Prop
  | nil (hafter : after.head?.any p = false) : LinesOf p after []
  | line {c : Char} {init rest : List Char} (hc : p c = true) (hinit : '\n' ∉ c :: init)
      (hrest : LinesOf p after rest) : LinesOf p after (c :: init ++ '\n' :: rest)
  | last {c : Char} {init : List Char} (hc : p c = true) (hinit : '\n' ∉ c :: init)
      (hafter : after = []) : LinesOf p after (c :: init)

def isContext (c : Char) : Bool := c = ' ' || c = '\\'

def isHunkLine (c : Char) : Bool := isContext c || c = '-' || c = '+'

/-- The lines of a hunk: context, removed lines and their mark, added lines and their mark,
and context, over and over. -/
inductive ChangesCut : List Char → List Char → List Char → List Change → Prop
  | nil {before after : List Char} (hafter : after.head?.any isHunkLine = false) :
      ChangesCut before [] after []
  | cons {before gap removed removedMark added addedMark gap' rest after : List Char}
      {changes : List Change}
      (hgap : LinesOf isContext (removed ++ (removedMark ++ (added ++ (addedMark ++
        (gap' ++ (rest ++ after)))))) gap)
      (hremoved : LinesOf (· = '-') (removedMark ++ (added ++ (addedMark ++
        (gap' ++ (rest ++ after))))) removed)
      (hremovedMark : LinesOf (· = '\\') (added ++ (addedMark ++ (gap' ++ (rest ++ after))))
        removedMark)
      (hadded : LinesOf (· = '+') (addedMark ++ (gap' ++ (rest ++ after))) added)
      (haddedMark : LinesOf (· = '\\') (gap' ++ (rest ++ after)) addedMark)
      (hgap' : LinesOf isContext (rest ++ after) gap')
      (hrest : ChangesCut (before ++ (gap ++ (removed ++ (removedMark ++ (added ++
        (addedMark ++ gap')))))) rest after changes) :
      ChangesCut before
        (gap ++ (removed ++ (removedMark ++ (added ++ (addedMark ++ (gap' ++ rest)))))) after
        (⟨spanAt (before ++ gap) (removed ++ removedMark),
          spanAt (before ++ gap ++ (removed ++ removedMark)) (added ++ addedMark)⟩ :: changes)

/-- The lines of a hunk of a text, and its changes among them. -/
def Hunk.CutIn (text : List Char) (hunk : Hunk) : Prop :=
  ∃ before word after, text = before ++ (word ++ after) ∧
    hunk.content.range = spanAt before word ∧ ChangesCut before word after hunk.content.changes

/-- The slices of these spans, one behind the other, are the text. -/
def CutUp (text : List Char) (spans : List Span) : Prop :=
  ∃ words, spans.mapM (slice text) = some words ∧ words.flatten = text

/-- A test that looks at one character. -/
def LooksAt (pred : Test) (p : Char → Bool) : Prop :=
  ∀ before rest, pred (before ++ rest) (utf8Len before) = rest.head?.any p

variable {before word after : List Char}

section Cutting

theorem Cuts.append {first last : List Char} {spans spans' : List Span}
    (hfirst : Cuts before first spans) (hlast : Cuts (before ++ first) last spans') :
    Cuts before (first ++ last) (spans ++ spans') := by
  induction spans generalizing before first with
  | nil =>
      obtain rfl : first = [] := hfirst
      simpa using hlast
  | cons span spans ih =>
      obtain ⟨head, tail, rfl, hspan, htail⟩ := hfirst
      refine ⟨head, tail ++ last, List.append_assoc _ _ _, hspan, ih htail ?_⟩
      simpa using hlast

/-- The slices of the pieces, one behind the other, are the word. -/
theorem Cuts.slices {spans : List Span} (hcuts : Cuts before word spans) (after : List Char) :
    ∃ words, spans.mapM (slice (before ++ (word ++ after))) = some words ∧
      words.flatten = word := by
  induction spans generalizing before word with
  | nil =>
      obtain rfl : word = [] := hcuts
      exact ⟨[], rfl, rfl⟩
  | cons span spans ih =>
      obtain ⟨first, last, rfl, rfl, hlast⟩ := hcuts
      obtain ⟨words, hwords, hflatten⟩ := ih hlast
      have hslice : slice (before ++ (first ++ last ++ after)) (spanAt before first) =
          some first :=
        getRange_eq_some_iff.mpr ⟨before, last ++ after, by simp, rfl, rfl⟩
      refine ⟨first :: words, ?_, by rw [List.flatten_cons, hflatten]⟩
      rw [List.append_assoc] at hwords
      rw [List.mapM_cons, hslice, List.append_assoc first, hwords]
      rfl

theorem Cuts.cutUp {spans : List Span} (hcuts : Cuts [] word spans) : CutUp word spans := by
  obtain ⟨words, hwords, hflatten⟩ := hcuts.slices []
  rw [List.nil_append, List.append_nil] at hwords
  exact ⟨words, hwords, hflatten⟩

end Cutting

section Lines

theorem newline_reads {span : Span} (hreads : newline.Reads before word after span) :
    word = ['\r', '\n'] ∨ word = ['\n'] := by
  rcases orElse_reads_iff.mp (mapErr_reads_iff.mp hreads) with
    hcrlf | ⟨first, last, rfl, hfails, hlf⟩
  · exact Or.inl (consume_reads_iff.mp hcrlf).1
  · obtain ⟨rfl, -⟩ := consume_fails_iff.mp hfails
    exact Or.inr (consume_reads_iff.mp hlf).1

theorem newline_fails (hfails : newline.Fails before word after) :
    word = [] ∧ ¬ ['\n'] <+: after := by
  obtain ⟨first, last, rfl, hcrlf, hlf⟩ := orElse_fails_iff.mp (mapErr_fails_iff.mp hfails)
  obtain ⟨rfl, -⟩ := consume_fails_iff.mp hcrlf
  obtain ⟨rfl, hnot⟩ := consume_fails_iff.mp hlf
  exact ⟨rfl, hnot⟩

theorem newlineOrEof_reads {span : Span} (hreads : newlineOrEof.Reads before word after span) :
    (word = ['\r', '\n'] ∨ word = ['\n']) ∨ word = [] ∧ after = [] := by
  rcases orElse_reads_iff.mp (mapErr_reads_iff.mp hreads) with
    hline | ⟨first, last, rfl, hfails, hend⟩
  · exact Or.inl (newline_reads hline)
  · obtain ⟨rfl, -⟩ := newline_fails hfails
    obtain ⟨rfl, rfl, -⟩ := eof_reads_iff.mp hend
    exact Or.inr ⟨rfl, rfl⟩

theorem not_prefix_of_failsAt {rest : List Char} (hfails : newlineOrEof.FailsAt before rest) :
    ¬ ['\n'] <+: rest := by
  obtain ⟨word, after, rfl, hfails⟩ := hfails
  obtain ⟨first, last, rfl, hline, hend⟩ := orElse_fails_iff.mp (mapErr_fails_iff.mp hfails)
  obtain ⟨rfl, hnot⟩ := newline_fails hline
  rwa [List.nil_append]

/-- What a scan for the end of a line goes over: no line feed, and then the end. -/
theorem scanLine_reads {spans : Span × Span}
    (hreads : (scanUntil newlineOrEof).Reads before word after spans) :
    (∃ init, word = init ++ ['\n'] ∧ '\n' ∉ init) ∨ after = [] ∧ '\n' ∉ word := by
  obtain ⟨skipped, last, rfl, -, hend, hearlier⟩ := consumeUntil_reads_iff.mp hreads
  have hskipped : '\n' ∉ skipped := by
    intro hmem
    obtain ⟨first, between, rfl⟩ := List.append_of_mem hmem
    have hfails := hearlier first ('\n' :: between) rfl (List.cons_ne_nil _ _)
    exact not_prefix_of_failsAt hfails ⟨between ++ (last ++ after), rfl⟩
  rcases newlineOrEof_reads hend with (rfl | rfl) | ⟨rfl, rfl⟩
  · exact Or.inl ⟨skipped ++ ['\r'], by simp, by simpa using hskipped⟩
  · exact Or.inl ⟨skipped, rfl, hskipped⟩
  · exact Or.inr ⟨rfl, by simpa using hskipped⟩

theorem LooksAt.within {pred : Test} {p : Char → Bool} (hpred : LooksAt pred p) :
    LooksAt (fun input cursor => decide (cursor < utf8Len input) && pred input cursor) p := by
  intro before rest
  change (decide _ && pred (before ++ rest) (utf8Len before)) = _
  rw [hpred]
  cases rest with
  | nil => rw [List.head?_nil, Option.any_none, Bool.and_false]
  | cons c rest =>
      have hlt : utf8Len before < utf8Len (before ++ c :: rest) := by
        have hsize := c.utf8Size_pos
        simp only [String.utf8Len_append, String.utf8Len_cons]
        omega
      rw [decide_eq_true hlt, Bool.true_and]

theorem Repeats.linesOf {pred : Test} {p : Char → Bool} (hpred : LooksAt pred p)
    (hnewline : p '\n' = false) {lines : List (Span × Span)}
    (hrepeats : Repeats pred (scanUntil newlineOrEof) before word after lines) :
    LinesOf p after word := by
  induction hrepeats with
  | done hcondition => exact .nil ((hpred _ _).symm.trans hcondition)
  | @go before first last after line lines hcondition hbody hlast ih =>
      have hfirst := (hpred before (first ++ (last ++ after))).symm.trans hcondition
      rcases scanLine_reads hbody with ⟨init, rfl, hinit⟩ | ⟨hend, hnone⟩
      · cases init with
        | nil =>
            rw [List.nil_append, List.singleton_append, List.head?_cons, Option.any_some,
              hnewline] at hfirst
            cases hfirst
        | cons c init =>
            rw [List.append_assoc]
            exact .line hfirst hinit ih
      · obtain ⟨rfl, rfl⟩ := List.append_eq_nil_iff.mp hend
        cases first with
        | nil => cases hfirst
        | cons c first =>
            rw [List.append_nil]
            exact .last hfirst hnone rfl

theorem consumeLinesWhilePrefixed_reads {pred : Test} {p : Char → Bool} (hpred : LooksAt pred p)
    (hnewline : p '\n' = false) {span : Span}
    (hreads : (consumeLinesWhilePrefixed pred).Reads before word after span) :
    LinesOf p after word ∧ span = spanAt before word := by
  obtain ⟨⟨lines, hlines⟩, hspan⟩ := spanOf_reads_iff.mp hreads
  exact ⟨Repeats.linesOf hpred.within hnewline (Reads.repeats hlines), hspan⟩

theorem looksAt_peek {pattern : String} {c : Char} (hpattern : pattern.toList = [c]) :
    LooksAt (peek pattern) (· = c) := by
  intro before rest
  rw [peek_append, hpattern]
  cases rest with
  | nil => rfl
  | cons d rest =>
      rw [List.head?_cons, Option.any_some, List.isPrefixOf, List.isPrefixOf, Bool.and_true,
        Bool.beq_eq_decide_eq, decide_eq_decide]
      exact eq_comm

theorem looksAt_context : LooksAt atContext isContext := by
  intro before rest
  have hspace : LooksAt (peek " ") (· = ' ') := looksAt_peek rfl
  have hmark : LooksAt (peek "\\") (· = '\\') := looksAt_peek rfl
  rw [atContext, hspace, hmark]
  cases rest <;> rfl

end Lines

section Changes

theorem contextLines_reads {span : Span}
    (hreads : (consumeLinesWhilePrefixed atContext).Reads before word after span) :
    LinesOf isContext after word :=
  (consumeLinesWhilePrefixed_reads looksAt_context rfl hreads).1

theorem signedLines_reads {pattern : String} {c : Char} (hpattern : pattern.toList = [c])
    (hnewline : c ≠ '\n') {span : Span}
    (hreads : (consumeLinesWhilePrefixed (peek pattern)).Reads before word after span) :
    LinesOf (· = c) after word ∧ span = spanAt before word :=
  consumeLinesWhilePrefixed_reads (looksAt_peek hpattern)
    (decide_eq_false hnewline.symm) hreads

theorem change_reads {changed : Change} (hreads : change.Reads before word after changed) :
    ∃ removed removedMark added addedMark,
      word = removed ++ (removedMark ++ (added ++ addedMark)) ∧
      LinesOf (· = '-') (removedMark ++ (added ++ (addedMark ++ after))) removed ∧
      LinesOf (· = '\\') (added ++ (addedMark ++ after)) removedMark ∧
      LinesOf (· = '+') (addedMark ++ after) added ∧
      LinesOf (· = '\\') after addedMark ∧
      changed = ⟨spanAt before (removed ++ removedMark),
        spanAt (before ++ (removed ++ removedMark)) (added ++ addedMark)⟩ := by
  obtain ⟨removed, rest, removedSpan, rfl, hremoved, hreads⟩ := bind_reads_iff.mp hreads
  obtain ⟨removedMark, rest, markSpan, rfl, hmark, hreads⟩ := bind_reads_iff.mp hreads
  obtain ⟨added, rest, addedSpan, rfl, hadded, hreads⟩ := bind_reads_iff.mp hreads
  obtain ⟨addedMark, none, markSpan', rfl, hmark', hnone⟩ := bind_reads_iff.mp hreads
  obtain ⟨rfl, rfl⟩ := pure_reads_iff.mp hnone
  obtain ⟨hlines, rfl⟩ := signedLines_reads (c := '-') rfl (by decide) hremoved
  obtain ⟨hlinesMark, rfl⟩ := signedLines_reads (c := '\\') rfl (by decide) hmark
  obtain ⟨hlinesAdded, rfl⟩ := signedLines_reads (c := '+') rfl (by decide) hadded
  obtain ⟨hlinesMark', rfl⟩ := signedLines_reads (c := '\\') rfl (by decide) hmark'
  refine ⟨removed, removedMark, added, addedMark, by simp, ?_, ?_, ?_, ?_, ?_⟩
  · simpa using hlines
  · simpa using hlinesMark
  · simpa using hlinesAdded
  · exact hlinesMark'
  · simp [spanAt, Nat.add_assoc]

theorem looksAt_hunkLine : LooksAt atHunkLine isHunkLine := by
  apply LooksAt.within
  intro before rest
  have hspace : LooksAt (peek " ") (· = ' ') := looksAt_peek rfl
  have hremoved : LooksAt (peek "-") (· = '-') := looksAt_peek rfl
  have hadded : LooksAt (peek "+") (· = '+') := looksAt_peek rfl
  have hmark : LooksAt (peek "\\") (· = '\\') := looksAt_peek rfl
  beta_reduce
  rw [List.any_cons, List.any_cons, List.any_cons, List.any_cons, List.any_nil, hspace,
    hremoved, hadded, hmark]
  cases rest with
  | nil => rfl
  | cons c rest =>
      simp only [List.head?_cons, Option.any_some, isHunkLine, isContext, Bool.or_false]
      ac_rfl

theorem hunkContent_cut {changes : List Change}
    (hrepeats : Repeats atHunkLine contextAndChange before word after changes) :
    ChangesCut before word after changes := by
  induction hrepeats with
  | done hend => exact .nil ((looksAt_hunkLine _ _).symm.trans hend)
  | @go before first last after changed changes hcondition hbody hlast ih =>
      obtain ⟨gap, rest, gapSpan, rfl, hgap, hreads⟩ := bind_reads_iff.mp hbody
      obtain ⟨middle, rest, changed', rfl, hchange, hreads⟩ := bind_reads_iff.mp hreads
      obtain ⟨gap', none, gapSpan', rfl, hgap', hnone⟩ := bind_reads_iff.mp hreads
      obtain ⟨rfl, rfl⟩ := pure_reads_iff.mp hnone
      obtain ⟨removed, removedMark, added, addedMark, rfl, hremoved, hmark, hadded, hmark', rfl⟩ :=
        change_reads hchange
      have hgap := contextLines_reads hgap
      have hgap' := contextLines_reads hgap'
      simp only [List.append_nil, List.append_assoc] at hgap hremoved hmark hadded hmark'
      rw [List.nil_append] at hgap'
      simp only [List.append_nil, List.append_assoc] at ih ⊢
      have hcut := ChangesCut.cons hgap hremoved hmark hadded hmark' hgap' ih
      simpa only [List.append_assoc] using hcut

end Changes

end TuiGit

end Gnostr
