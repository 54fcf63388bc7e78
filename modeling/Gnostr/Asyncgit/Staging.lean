/-
`asyncgit/src/lib/sync/staging`: the new content of a file when some lines of a diff are
staged, unstaged or discarded.  One function does the three, with the content that is
edited on the old side of the diff or on the new one.
-/
import Gnostr.Lib.Bytes
import Gnostr.Lib.EditScript
import Gnostr.Lib.Outcome

namespace Gnostr

namespace Staging

section Source

/-- `git2::DiffLineType`. -/
inductive DiffLineType where
  | context
  | addition
  | deletion
  | contextEofnl
  | addEofnl
  | deleteEofnl
  | fileHeader
  | hunkHeader
  | binary
deriving DecidableEq, Repr

structure DiffLinePosition where
  oldLineno : Option ℕ
  newLineno : Option ℕ
deriving DecidableEq, Repr

/-- `git2::DiffLine`. -/
structure DiffLine where
  content : Bytes
  originValue : DiffLineType
  oldLineno : Option ℕ
  newLineno : Option ℕ
deriving DecidableEq, Repr

def DiffLine.position (line : DiffLine) : DiffLinePosition := ⟨line.oldLineno, line.newLineno⟩

structure HunkHeader where
  oldStart : ℕ
  oldLines : ℕ
  newStart : ℕ
  newLines : ℕ
deriving DecidableEq, Repr

structure HunkLines where
  hunk : HunkHeader
  lines : List DiffLine
deriving DecidableEq, Repr

inductive StagingError where
  | utf8
  | generic (message : String)
deriving DecidableEq, Repr

structure NewFromOldContent where
  lines : List String
  oldIndex : ℕ
deriving DecidableEq, Repr

/-- A text without the line break at its end. -/
def stripNewline (line : String) : String :=
  match line.toList.reverse with
  | '\n' :: rest => String.ofList rest.reverse
  | _ => line

namespace NewFromOldContent

def default : NewFromOldContent := ⟨[], 0⟩

def addFromHunk (content : NewFromOldContent) (line : DiffLine) :
    Outcome StagingError NewFromOldContent := do
  let text ← Outcome.okOr .utf8 (fromUtf8 line.content)
  return { content with lines := content.lines ++ [stripNewline text] }

def skipOldLine (content : NewFromOldContent) : NewFromOldContent :=
  { content with oldIndex := content.oldIndex + 1 }

def addOldLine (content : NewFromOldContent) (oldLines : List String) :
    Outcome StagingError NewFromOldContent := do
  let line ← Outcome.index oldLines content.oldIndex
  return ⟨content.lines ++ [line], content.oldIndex + 1⟩

def addOldLines (oldLines : List String) :
    ℕ → NewFromOldContent → Outcome StagingError NewFromOldContent
  | 0, content => .ok content
  | turns + 1, content => do addOldLines oldLines turns (← content.addOldLine oldLines)

/-- Every turn of the loop takes one line, until `old_index + 1` is the start. -/
def catchupToHunkstart (content : NewFromOldContent) (hunkStart : ℕ)
    (oldLines : List String) : Outcome StagingError NewFromOldContent :=
  addOldLines oldLines (hunkStart - (content.oldIndex + 1)) content

/-- The lines joined, with a line break behind a text that does not end with one. -/
def finishLines (lines : List String) : String :=
  let text := String.intercalate "\n" lines
  if text.toList.getLast? = some '\n' then text else text ++ "\n"

def finish (content : NewFromOldContent) (oldLines : List String) : String :=
  finishLines (content.lines ++ oldLines.drop content.oldIndex)

end NewFromOldContent

variable (lines : List DiffLinePosition) (oldLines : List String) (isStaged reverse : Bool)

def added : DiffLineType := if reverse then .deletion else .addition

def deleted : DiffLineType := if reverse then .addition else .deletion

/-- The body of the loop over the lines of a hunk, behind its `break`. -/
def applyLine (content : NewFromOldContent) (hunkLine : DiffLine) :
    Outcome StagingError NewFromOldContent :=
  let selectedLine := decide (hunkLine.position ∈ lines)
  if (isStaged && !selectedLine) || (!isStaged && selectedLine) then
    if hunkLine.originValue = added reverse then do
      let content ← content.addFromHunk hunkLine
      return if isStaged then content.skipOldLine else content
    else if hunkLine.originValue = deleted reverse then
      return if !isStaged then content.skipOldLine else content
    else content.addOldLine oldLines
  else do
    let content ←
      if hunkLine.originValue ≠ added reverse then content.addFromHunk hunkLine
      else .ok content
    return if (isStaged && hunkLine.originValue ≠ deleted reverse) ||
        (!isStaged && hunkLine.originValue ≠ added reverse)
      then content.skipOldLine else content

def isEofnl (hunkLine : DiffLine) : Bool :=
  hunkLine.originValue = .deleteEofnl || hunkLine.originValue = .addEofnl

def applyLines : List DiffLine → NewFromOldContent → Outcome StagingError NewFromOldContent
  | [], content => .ok content
  | hunkLine :: rest, content =>
      if isEofnl hunkLine then .ok content
      else do applyLines rest (← applyLine lines oldLines isStaged reverse content hunkLine)

def hunkStart (hunk : HunkHeader) : ℕ :=
  if isStaged || reverse then hunk.newStart else hunk.oldStart

/-- The loop over the hunks: those in front of the first one with a selected line are left
to the next that catches up. -/
def applyHunks : List HunkLines → Bool → NewFromOldContent →
    Outcome StagingError NewFromOldContent
  | [], _, content => .ok content
  | hunk :: rest, firstHunkEncountered, content =>
      let encountered := firstHunkEncountered ||
        hunk.lines.any fun line => decide (line.position ∈ lines)
      if encountered then do
        let content ← content.catchupToHunkstart (hunkStart isStaged reverse hunk.hunk) oldLines
        applyHunks rest encountered
          (← applyLines lines oldLines isStaged reverse hunk.lines content)
      else applyHunks rest encountered content

def applySelection (hunks : List HunkLines) : Outcome StagingError String := do
  let content ← applyHunks lines oldLines isStaged reverse hunks false .default
  return content.finish oldLines

end Source

section Rendering

/-- The diff line of an edit: every line ends with its line break. -/
def diffLine : Edit String × LineNumbers → DiffLine
  | (.keep line, numbers) => ⟨utf8 (line ++ "\n"), .context, numbers.1, numbers.2⟩
  | (.add line, numbers) => ⟨utf8 (line ++ "\n"), .addition, numbers.1, numbers.2⟩
  | (.del line, numbers) => ⟨utf8 (line ++ "\n"), .deletion, numbers.1, numbers.2⟩

/-- A side without lines is placed behind the line in front of it. -/
def start (before count : ℕ) : ℕ := if count = 0 then before else before + 1

/-- The header of a hunk with so many lines in front of it. -/
def header (hunk : EditHunk String) (oldBefore newBefore : ℕ) : HunkHeader :=
  let oldCount := (hunk.edits.flatMap Edit.old).length
  let newCount := (hunk.edits.flatMap Edit.new).length
  ⟨start (oldBefore + hunk.gap.length) oldCount, oldCount,
    start (newBefore + hunk.gap.length) newCount, newCount⟩

/-- The lines of a hunk, with what else is in it. -/
def hunkLines (hunk : EditHunk String) (oldBefore newBefore : ℕ) (after : List DiffLine) :
    HunkLines :=
  ⟨header hunk oldBefore newBefore, (hunk.numbered oldBefore newBefore).map diffLine ++ after⟩

/-- The hunks of a diff; the last one may go on behind the edits. -/
def diffHunks (eof : List DiffLine) : ℕ → ℕ → List (EditHunk String) → List HunkLines
  | _, _, [] => []
  | oldBefore, newBefore, hunk :: rest =>
      hunkLines hunk oldBefore newBefore (if rest = [] then eof else []) ::
      diffHunks eof (oldBefore + hunk.old.length) (newBefore + hunk.new.length) rest

/-- A hunk has a line of context, or begins where the file does. -/
def Anchored : ℕ → ℕ → List (EditHunk String) → Prop
  | _, _, [] => True
  | oldBefore, newBefore, hunk :: rest =>
      (hunk.edits.flatMap Edit.old = [] → oldBefore + hunk.gap.length = 0) ∧
      (hunk.edits.flatMap Edit.new = [] → newBefore + hunk.gap.length = 0) ∧
      Anchored (oldBefore + hunk.old.length) (newBefore + hunk.new.length) rest

/-- Nothing, or a mark that a side ends without a line break and the lines behind it. -/
def Cut (eof : List DiffLine) : Prop := ∀ line ∈ eof.head?, isEofnl line = true

end Rendering

section Mode

/-- The three uses of the selection. -/
inductive Mode where
  | stage
  | unstage
  | discard
deriving DecidableEq, Repr

namespace Mode

def isStaged : Mode → Bool
  | stage => false
  | unstage => true
  | discard => false

def reverse : Mode → Bool
  | stage => false
  | unstage => false
  | discard => true

/-- The side of the diff that is edited. -/
def base : Mode → Edit String → List String
  | stage => Edit.old
  | unstage => Edit.new
  | discard => Edit.new

/-- The changes that are in the result: the selected ones are staged, and the others are
left after the selected ones are taken back. -/
def chosen (lines : List DiffLinePosition) : Mode → LineNumbers → Bool
  | stage, numbers => decide (⟨numbers.1, numbers.2⟩ ∈ lines)
  | unstage, numbers => !decide (⟨numbers.1, numbers.2⟩ ∈ lines)
  | discard, numbers => !decide (⟨numbers.1, numbers.2⟩ ∈ lines)

def side (mode : Mode) (hunks : List (EditHunk String)) : List String :=
  hunks.flatMap fun hunk => hunk.gap ++ hunk.edits.flatMap mode.base

end Mode

theorem stripNewline_append (line : String) : stripNewline (line ++ "\n") = line := by
  simp [stripNewline]

variable {lines : List DiffLinePosition} {oldLines rest : List String}

theorem addFromHunk_of_content {content : NewFromOldContent} {hunkLine : DiffLine}
    {line : String} (hline : hunkLine.content = utf8 (line ++ "\n")) :
    content.addFromHunk hunkLine = .ok { content with lines := content.lines ++ [line] } := by
  rw [NewFromOldContent.addFromHunk, hline, fromUtf8_utf8, Outcome.okOr_some,
    Outcome.ok_bind, stripNewline_append]
  rfl

theorem addOldLine_of_drop {content : NewFromOldContent} {line : String}
    (hdrop : oldLines.drop content.oldIndex = line :: rest) :
    content.addOldLine oldLines = .ok ⟨content.lines ++ [line], content.oldIndex + 1⟩ := by
  have hget : oldLines[content.oldIndex]? = some line := by
    rw [← List.head?_drop, hdrop, List.head?_cons]
  simp [NewFromOldContent.addOldLine, Outcome.index, hget]

/-- One line of a hunk: what it leaves is added and what it has on the edited side is
passed. -/
theorem applyLine_diffLine (mode : Mode) {content : NewFromOldContent} {edit : Edit String}
    {numbers : LineNumbers}
    (hdrop : oldLines.drop content.oldIndex = mode.base edit ++ rest) :
    applyLine lines oldLines mode.isStaged mode.reverse content (diffLine (edit, numbers)) =
      .ok ⟨content.lines ++ edit.made (mode.chosen lines numbers),
        content.oldIndex + (mode.base edit).length⟩ := by
  have hkeep : ∀ line, edit = .keep line →
      content.addOldLine oldLines = .ok ⟨content.lines ++ [line], content.oldIndex + 1⟩ := by
    rintro line rfl
    cases mode <;> exact addOldLine_of_drop hdrop
  have hhunk : content.addFromHunk (diffLine (edit, numbers)) =
      .ok { content with lines := content.lines ++ [edit.line] } := by
    cases edit <;> exact addFromHunk_of_content rfl
  by_cases hselected : (⟨numbers.1, numbers.2⟩ : DiffLinePosition) ∈ lines
  all_goals
    cases mode <;> cases edit <;>
      simp_all [applyLine, diffLine, DiffLine.position, Mode.isStaged, Mode.reverse, Mode.base,
        Mode.chosen, added, deleted, Edit.made, Edit.old, Edit.new, Edit.line,
        NewFromOldContent.skipOldLine]

theorem drop_add_length {front : List String} {index : ℕ}
    (hdrop : oldLines.drop index = front ++ rest) :
    oldLines.drop (index + front.length) = rest := by
  rw [← List.drop_drop, hdrop, List.drop_left]

/-- The lines of a hunk, in front of what else is in it. -/
theorem applyLines_numbered (mode : Mode) (after : List DiffLine) (edits : List (Edit String))
    (oldLine newLine : ℕ) {content : NewFromOldContent}
    (hdrop : oldLines.drop content.oldIndex = edits.flatMap mode.base ++ rest) :
    applyLines lines oldLines mode.isStaged mode.reverse
        ((numbered oldLine newLine edits).map diffLine ++ after) content =
      applyLines lines oldLines mode.isStaged mode.reverse after
        ⟨content.lines ++ makeEdits (mode.chosen lines) (numbered oldLine newLine edits),
          content.oldIndex + (edits.flatMap mode.base).length⟩ := by
  induction edits generalizing oldLine newLine content with
  | nil => simp [numbered]
  | cons edit edits ih =>
      have hline : isEofnl (diffLine (edit, edit.numbers oldLine newLine)) = false := by
        cases edit <;> rfl
      rw [List.flatMap_cons, List.append_assoc] at hdrop
      have hrest := @ih (oldLine + edit.old.length) (newLine + edit.new.length)
        ⟨content.lines ++ edit.made (mode.chosen lines (edit.numbers oldLine newLine)),
          content.oldIndex + (mode.base edit).length⟩ (drop_add_length hdrop)
      simp only [numbered, List.map_cons, List.cons_append, applyLines, hline,
        Bool.false_eq_true, if_false, applyLine_diffLine mode hdrop, Outcome.ok_bind, hrest]
      simp [Nat.add_assoc]

/-- A mark ends the hunk. -/
theorem applyLines_of_cut (mode : Mode) {eof : List DiffLine} (hcut : Cut eof)
    (content : NewFromOldContent) :
    applyLines lines oldLines mode.isStaged mode.reverse eof content = .ok content := by
  cases eof with
  | nil => rfl
  | cons mark after =>
      have hmark : isEofnl mark = true := hcut mark rfl
      simp [applyLines, hmark]

theorem addOldLines_of_drop {gap : List String} {content : NewFromOldContent}
    (hdrop : oldLines.drop content.oldIndex = gap ++ rest) :
    NewFromOldContent.addOldLines oldLines gap.length content =
      .ok ⟨content.lines ++ gap, content.oldIndex + gap.length⟩ := by
  induction gap generalizing content with
  | nil => simp [NewFromOldContent.addOldLines]
  | cons line gap ih =>
      have hnext := @ih ⟨content.lines ++ [line], content.oldIndex + 1⟩
        (@drop_add_length oldLines (gap ++ rest) [line] _ hdrop)
      simp only [List.length_cons, NewFromOldContent.addOldLines, addOldLine_of_drop hdrop,
        Outcome.ok_bind, hnext]
      simp [Nat.add_left_comm, Nat.add_comm]

/-- With no line of it selected a hunk leaves the edited side as it is. -/
theorem makeEdits_eq_base (mode : Mode) {edits : List (Edit String)} {oldLine newLine : ℕ}
    (hnone : ∀ edit ∈ numbered oldLine newLine edits,
      (⟨edit.2.1, edit.2.2⟩ : DiffLinePosition) ∉ lines) :
    makeEdits (mode.chosen lines) (numbered oldLine newLine edits) = edits.flatMap mode.base := by
  cases mode with
  | stage =>
      refine Eq.trans (makeEdits_congr fun edit hedit => ?_)
        (makeEdits_numbered_false edits oldLine newLine)
      simp [Mode.chosen, hnone edit hedit]
  | unstage =>
      refine Eq.trans (makeEdits_congr fun edit hedit => ?_)
        (makeEdits_numbered_true edits oldLine newLine)
      simp [Mode.chosen, hnone edit hedit]
  | discard =>
      refine Eq.trans (makeEdits_congr fun edit hedit => ?_)
        (makeEdits_numbered_true edits oldLine newLine)
      simp [Mode.chosen, hnone edit hedit]

def Mode.before (oldBefore newBefore : ℕ) : Mode → ℕ
  | stage => oldBefore
  | unstage => newBefore
  | discard => newBefore

theorem hunkStart_header (mode : Mode) (hunk : EditHunk String) (oldBefore newBefore : ℕ) :
    hunkStart mode.isStaged mode.reverse (header hunk oldBefore newBefore) =
      start (mode.before oldBefore newBefore + hunk.gap.length)
        (hunk.edits.flatMap mode.base).length := by
  cases mode <;> rfl

theorem position_diffLine (edit : Edit String × LineNumbers) :
    (diffLine edit).position = ⟨edit.2.1, edit.2.2⟩ := by
  obtain ⟨edit, numbers⟩ := edit
  cases edit <;> rfl

/-- What is written so far and the lines that were passed over make up what is done, and
the rest of the edited side is ahead. -/
def Ready (oldLines done ahead : List String) (before : ℕ) (content : NewFromOldContent) :
    Prop :=
  ∃ passed, content.lines ++ passed = done ∧
    oldLines.drop content.oldIndex = passed ++ ahead ∧
    content.oldIndex + passed.length = before

theorem Ready.finish {done ahead : List String} {before : ℕ} {content : NewFromOldContent}
    (hready : Ready oldLines done ahead before content) :
    content.finish oldLines = NewFromOldContent.finishLines (done ++ ahead) := by
  obtain ⟨passed, rfl, hdrop, -⟩ := hready
  rw [NewFromOldContent.finish, hdrop, List.append_assoc]

/-- A line of the diff is selected. -/
def touches (lines : List DiffLinePosition) (hunks : List HunkLines) : Bool :=
  hunks.any fun hunk => hunk.lines.any fun line => decide (line.position ∈ lines)

section Hunk

variable {hunk : EditHunk String} {oldBefore newBefore : ℕ} {content : NewFromOldContent}
  {done ahead : List String}

/-- One hunk that is entered: the lines in front of it are taken over before those of it. -/
theorem exists_ready_of_entered (mode : Mode)
    (hempty : hunk.edits.flatMap mode.base = [] →
      mode.before oldBefore newBefore + hunk.gap.length = 0)
    (hready : Ready oldLines done (hunk.gap ++ (hunk.edits.flatMap mode.base ++ ahead))
      (mode.before oldBefore newBefore) content) :
    ∃ next, (oldLines.drop next.oldIndex = ahead ∧
        Ready oldLines (done ++ (hunk.gap ++ makeEdits (mode.chosen lines)
          (hunk.numbered oldBefore newBefore))) ahead (mode.before
            (oldBefore + hunk.old.length) (newBefore + hunk.new.length)) next) ∧
      ∀ after, (do
        let content ← content.catchupToHunkstart (hunkStart mode.isStaged mode.reverse
          (hunkLines hunk oldBefore newBefore after).hunk) oldLines
        applyLines lines oldLines mode.isStaged mode.reverse
          (hunkLines hunk oldBefore newBefore after).lines content) =
        applyLines lines oldLines mode.isStaged mode.reverse after next := by
  obtain ⟨passed, rfl, hdrop, hbefore⟩ := hready
  have hdrop : oldLines.drop content.oldIndex =
      (passed ++ hunk.gap) ++ (hunk.edits.flatMap mode.base ++ ahead) := by
    rw [hdrop, List.append_assoc]
  have hturns : start (mode.before oldBefore newBefore + hunk.gap.length)
      (hunk.edits.flatMap mode.base).length - (content.oldIndex + 1) =
      (passed ++ hunk.gap).length := by
    rw [start, List.length_append]
    split_ifs with hcount
    · have := hempty (List.length_eq_zero_iff.mp hcount)
      omega
    · omega
  have hlast := drop_add_length (drop_add_length hdrop)
  refine ⟨⟨content.lines ++ (passed ++ hunk.gap) ++ makeEdits (mode.chosen lines)
      (hunk.numbered oldBefore newBefore), content.oldIndex + (passed ++ hunk.gap).length +
      (hunk.edits.flatMap mode.base).length⟩, ⟨hlast, [], by simp, hlast, ?_⟩, ?_⟩
  · rw [List.length_append]
    cases mode <;> simp [Mode.before, Mode.base, EditHunk.old, EditHunk.new] at hbefore ⊢ <;>
      omega
  · intro after
    simp only [hunkLines]
    rw [NewFromOldContent.catchupToHunkstart, hunkStart_header, hturns,
      addOldLines_of_drop hdrop, Outcome.ok_bind]
    exact applyLines_numbered mode after hunk.edits _ _ (drop_add_length hdrop)

/-- One hunk that is left to the next: its lines stay as they are. -/
theorem ready_of_untouched (mode : Mode) {after : List DiffLine}
    (huntouched : touches lines [hunkLines hunk oldBefore newBefore after] = false)
    (hready : Ready oldLines done (hunk.gap ++ (hunk.edits.flatMap mode.base ++ ahead))
      (mode.before oldBefore newBefore) content) :
    Ready oldLines (done ++ (hunk.gap ++ makeEdits (mode.chosen lines)
      (hunk.numbered oldBefore newBefore))) ahead (mode.before
        (oldBefore + hunk.old.length) (newBefore + hunk.new.length)) content := by
  have hnone : ∀ edit ∈ hunk.numbered oldBefore newBefore,
      (⟨edit.2.1, edit.2.2⟩ : DiffLinePosition) ∉ lines := by
    intro edit hedit hmem
    rw [← position_diffLine edit] at hmem
    simp only [touches, hunkLines, List.any_cons, List.any_nil, Bool.or_false,
      List.any_eq_false, decide_eq_true_eq] at huntouched
    exact huntouched _ (List.mem_append_left _ (List.mem_map_of_mem hedit)) hmem
  obtain ⟨passed, rfl, hdrop, hbefore⟩ := hready
  refine ⟨passed ++ (hunk.gap ++ hunk.edits.flatMap mode.base), ?_, ?_, ?_⟩
  · rw [EditHunk.numbered, makeEdits_eq_base mode hnone, List.append_assoc]
  · simp [hdrop]
  · cases mode <;> simp [Mode.before, Mode.base, EditHunk.old, EditHunk.new] at hbefore ⊢ <;>
      omega

theorem anchored_base (mode : Mode) {hunks : List (EditHunk String)}
    (hanchored : Anchored oldBefore newBefore (hunk :: hunks)) :
    hunk.edits.flatMap mode.base = [] →
      mode.before oldBefore newBefore + hunk.gap.length = 0 := by
  obtain ⟨hold, hnew, -⟩ := hanchored
  cases mode with
  | stage => exact hold
  | unstage => exact hnew
  | discard => exact hnew

end Hunk

/-- The hunks: the chosen changes are made in all that is passed. -/
theorem exists_applyHunks_diffHunks (mode : Mode) {eof : List DiffLine} (hcut : Cut eof)
    {hunks : List (EditHunk String)} {oldBefore newBefore : ℕ}
    (hanchored : Anchored oldBefore newBefore hunks) {encountered : Bool}
    {content : NewFromOldContent} {done : List String}
    (hready : Ready oldLines done (mode.side hunks ++ rest)
      (mode.before oldBefore newBefore) content) :
    ∃ final, applyHunks lines oldLines mode.isStaged mode.reverse
        (diffHunks eof oldBefore newBefore hunks) encountered content = .ok final ∧
      Ready oldLines (done ++ makeHunks (mode.chosen lines) oldBefore newBefore hunks) rest
        (mode.before (oldBefore + (oldSide hunks).length) (newBefore + (newSide hunks).length))
        final := by
  induction hunks generalizing oldBefore newBefore encountered content done with
  | nil =>
      exact ⟨content, rfl, by simpa [makeHunks, Mode.side, oldSide, newSide] using hready⟩
  | cons hunk hunks ih =>
      have hready : Ready oldLines done (hunk.gap ++ (hunk.edits.flatMap mode.base ++
          (mode.side hunks ++ rest))) (mode.before oldBefore newBefore) content := by
        simpa [Mode.side] using hready
      have hcutHere : Cut (if hunks = [] then eof else []) := by
        split_ifs
        · exact hcut
        · exact fun line hline => absurd hline (Option.not_mem_none line)
      have hresult : done ++ makeHunks (mode.chosen lines) oldBefore newBefore (hunk :: hunks) =
          done ++ (hunk.gap ++ makeEdits (mode.chosen lines)
            (hunk.numbered oldBefore newBefore)) ++ makeHunks (mode.chosen lines)
              (oldBefore + hunk.old.length) (newBefore + hunk.new.length) hunks := by
        simp [makeHunks]
      have hcounts : mode.before (oldBefore + (oldSide (hunk :: hunks)).length)
          (newBefore + (newSide (hunk :: hunks)).length) =
          mode.before (oldBefore + hunk.old.length + (oldSide hunks).length)
            (newBefore + hunk.new.length + (newSide hunks).length) := by
        simp [EditHunk.old, EditHunk.new, Nat.add_assoc]
      rw [hresult, hcounts]
      simp only [diffHunks, applyHunks]
      generalize (if hunks = [] then eof else []) = after at hcutHere
      split_ifs with hfound
      · obtain ⟨next, ⟨-, hnext⟩, happly⟩ := @exists_ready_of_entered lines oldLines hunk
          _ _ _ _ _ mode (anchored_base mode hanchored) hready
        obtain ⟨final, hfinal, hdone⟩ := @ih _ _ hanchored.2.2 true next _ hnext
        refine ⟨final, ?_, hdone⟩
        rw [← bind_assoc, happly after, applyLines_of_cut mode hcutHere, Outcome.ok_bind,
          hfound]
        exact hfinal
      · rw [Bool.not_eq_true, Bool.or_eq_false_iff] at hfound
        have huntouched : touches lines [hunkLines hunk oldBefore newBefore after] = false := by
          simpa [touches] using hfound.2
        exact ih hanchored.2.2 (ready_of_untouched mode huntouched hready)

/-- The result is the side that is edited with the selected changes made, or taken back:
the lines behind a mark stay as they are on that side. -/
theorem applySelection_diffHunks (mode : Mode) {eof : List DiffLine} (hcut : Cut eof)
    {hunks : List (EditHunk String)} (hanchored : Anchored 0 0 hunks) :
    applySelection lines (mode.side hunks ++ rest) mode.isStaged mode.reverse
        (diffHunks eof 0 0 hunks) =
      .ok (NewFromOldContent.finishLines
        (makeHunks (mode.chosen lines) 0 0 hunks ++ rest)) := by
  have hstart : Ready (mode.side hunks ++ rest) [] (mode.side hunks ++ rest)
      (mode.before 0 0) .default := ⟨[], rfl, rfl, by cases mode <;> rfl⟩
  obtain ⟨final, hfinal, hready⟩ :=
    @exists_applyHunks_diffHunks lines _ _ mode eof hcut hunks 0 0 hanchored false _ _ hstart
  rw [applySelection, hfinal, Outcome.ok_bind, hready.finish]
  rfl

/-- A diff of two changes. -/
def twoChanges : List (EditHunk String) :=
  [⟨[], [.add "a", .keep "b"]⟩, ⟨["c"], [.keep "d", .del "e"]⟩]

theorem anchored_twoChanges : Anchored 0 0 twoChanges :=
  ⟨nofun, nofun, nofun, nofun, trivial⟩

theorem applySelection_diffHunks_twoChanges :
    applySelection [⟨some 4, none⟩] ["a", "b", "c", "d"] true false
        (diffHunks [] 0 0 twoChanges) =
      .ok (NewFromOldContent.finishLines ["a", "b", "c", "d", "e"]) :=
  @applySelection_diffHunks [⟨some 4, none⟩] [] .unstage [] nofun twoChanges
    anchored_twoChanges

theorem applyHunks_append (isStaged reverse : Bool) (first last : List HunkLines)
    (encountered : Bool) (content : NewFromOldContent) :
    applyHunks lines oldLines isStaged reverse (first ++ last) encountered content =
      applyHunks lines oldLines isStaged reverse first encountered content >>=
        applyHunks lines oldLines isStaged reverse last
          (encountered || touches lines first) := by
  induction first generalizing encountered content with
  | nil => simp [applyHunks, touches]
  | cons hunk first ih =>
      have htouches : (encountered || touches lines (hunk :: first)) =
          (encountered || touches lines [hunk] || touches lines first) := by
        simp [touches, Bool.or_assoc]
      have hhere : (hunk.lines.any fun line => decide (line.position ∈ lines)) =
          touches lines [hunk] := by
        simp [touches]
      simp only [List.cons_append, applyHunks, htouches, hhere, ih]
      split_ifs <;> simp [bind_assoc]

theorem diffHunks_concat (eof : List DiffLine) (hunks : List (EditHunk String))
    (hunk : EditHunk String) (oldBefore newBefore : ℕ) :
    diffHunks eof oldBefore newBefore (hunks ++ [hunk]) =
      diffHunks [] oldBefore newBefore hunks ++
        [hunkLines hunk (oldBefore + (oldSide hunks).length)
          (newBefore + (newSide hunks).length) eof] := by
  induction hunks generalizing oldBefore newBefore with
  | nil => simp [diffHunks, oldSide, newSide]
  | cons first hunks ih => simp [diffHunks, ih, EditHunk.old, EditHunk.new, Nat.add_assoc]

theorem makeHunks_concat (chosen : LineNumbers → Bool) (hunks : List (EditHunk String))
    (hunk : EditHunk String) (oldBefore newBefore : ℕ) :
    makeHunks chosen oldBefore newBefore (hunks ++ [hunk]) =
      makeHunks chosen oldBefore newBefore hunks ++ (hunk.gap ++ makeEdits chosen
        (hunk.numbered (oldBefore + (oldSide hunks).length)
          (newBefore + (newSide hunks).length))) := by
  induction hunks generalizing oldBefore newBefore with
  | nil => simp [makeHunks, oldSide, newSide]
  | cons first hunks ih => simp [makeHunks, ih, EditHunk.old, EditHunk.new, Nat.add_assoc]

theorem anchored_concat {hunks : List (EditHunk String)} {hunk : EditHunk String}
    {oldBefore newBefore : ℕ} (hanchored : Anchored oldBefore newBefore (hunks ++ [hunk])) :
    Anchored oldBefore newBefore hunks ∧
      Anchored (oldBefore + (oldSide hunks).length) (newBefore + (newSide hunks).length)
        [hunk] := by
  induction hunks generalizing oldBefore newBefore with
  | nil => exact ⟨trivial, by simpa [oldSide, newSide] using hanchored⟩
  | cons first hunks ih =>
      obtain ⟨hold, hnew, hrest⟩ := hanchored
      obtain ⟨hfirst, hlast⟩ := ih hrest
      refine ⟨⟨hold, hnew, hfirst⟩, ?_⟩
      simpa [EditHunk.old, EditHunk.new, Nat.add_assoc] using hlast

/-- The mark behind the last line of both sides is a line of context: it is written like
one of the diff, or looked up behind the end of the file. -/
theorem applyLine_contextEofnl (mode : Mode) {mark : DiffLine} {text : String}
    (hmark : mark.originValue = .contextEofnl) (htext : mark.content = utf8 (text ++ "\n"))
    {content : NewFromOldContent} (hend : oldLines.drop content.oldIndex = []) :
    applyLine lines oldLines mode.isStaged mode.reverse content mark =
      if mode.isStaged = decide (mark.position ∈ lines) then
        .ok ⟨content.lines ++ [text], content.oldIndex + 1⟩
      else .panic := by
  have hold : content.addOldLine oldLines = .panic := by
    rw [NewFromOldContent.addOldLine, Outcome.index_of_le (List.drop_eq_nil_iff.mp hend)]
    rfl
  have hhunk := @addFromHunk_of_content content mark text htext
  by_cases hselected : mark.position ∈ lines
  all_goals
    cases mode <;>
      simp [applyLine, hselected, Mode.isStaged, Mode.reverse, added, deleted, hmark, hold,
        hhunk, NewFromOldContent.skipOldLine]

/-- Staging a part of a diff and taking the rest of it back from the other side give the
same file, and so does discarding the rest. -/
theorem applySelection_stage_eq (mode : Mode) (hmode : mode ≠ .stage) {eof : List DiffLine}
    (hcut : Cut eof) {hunks : List (EditHunk String)} (hanchored : Anchored 0 0 hunks)
    {others : List DiffLinePosition}
    (hothers : ∀ edit ∈ numberedHunks 0 0 hunks,
      (⟨edit.2.1, edit.2.2⟩ : DiffLinePosition) ∈ others ↔
        (⟨edit.2.1, edit.2.2⟩ : DiffLinePosition) ∉ lines) :
    applySelection lines (Mode.stage.side hunks ++ rest) false false
        (diffHunks eof 0 0 hunks) =
      applySelection others (mode.side hunks ++ rest) mode.isStaged mode.reverse
        (diffHunks eof 0 0 hunks) := by
  have hsame : makeHunks (Mode.stage.chosen lines) 0 0 hunks =
      makeHunks (mode.chosen others) 0 0 hunks := by
    apply makeHunks_congr
    intro edit hedit
    congr 1
    have := hothers edit hedit
    cases mode with
    | stage => exact absurd rfl hmode
    | unstage => simp [Mode.chosen, this]
    | discard => simp [Mode.chosen, this]
  rw [applySelection_diffHunks mode hcut hanchored, ← hsame]
  exact applySelection_diffHunks .stage hcut hanchored

/-- A file whose two sides end with the same line and without a line break: the mark is
taken for a line. -/
theorem applySelection_contextEofnl (mode : Mode) {mark : DiffLine} {text : String}
    (hmark : mark.originValue = .contextEofnl) (htext : mark.content = utf8 (text ++ "\n"))
    {hunks : List (EditHunk String)} {hunk : EditHunk String}
    (hanchored : Anchored 0 0 (hunks ++ [hunk]))
    (htouches : touches lines (diffHunks [mark] 0 0 (hunks ++ [hunk])) = true) :
    applySelection lines (mode.side (hunks ++ [hunk])) mode.isStaged mode.reverse
        (diffHunks [mark] 0 0 (hunks ++ [hunk])) =
      if mode.isStaged = decide (mark.position ∈ lines) then
        .ok (NewFromOldContent.finishLines
          (makeHunks (mode.chosen lines) 0 0 (hunks ++ [hunk]) ++ [text]))
      else .panic := by
  obtain ⟨hfirst, hlast⟩ := anchored_concat hanchored
  have hstart : Ready (mode.side (hunks ++ [hunk])) [] (mode.side hunks ++
      (hunk.gap ++ (hunk.edits.flatMap mode.base ++ []))) (mode.before 0 0) .default :=
    ⟨[], rfl, by simp [Mode.side, NewFromOldContent.default], by cases mode <;> rfl⟩
  obtain ⟨reached, hreached, hready⟩ := @exists_applyHunks_diffHunks lines _ _ mode [] nofun
    hunks 0 0 hfirst false _ _ hstart
  obtain ⟨next, ⟨hend, hnext⟩, happly⟩ := @exists_ready_of_entered lines _ hunk _ _ _ _ _ mode
    (anchored_base mode hlast) hready
  have hmarked : isEofnl mark = false := by simp [isEofnl, hmark]
  have hlines := @applyLine_contextEofnl lines _ mode mark text hmark htext next hend
  rw [diffHunks_concat] at htouches ⊢
  have htouched : (false || touches lines (diffHunks [] 0 0 hunks) || touches lines
      [hunkLines hunk (0 + (oldSide hunks).length) (0 + (newSide hunks).length) [mark]]) =
      true := by
    simpa [touches] using htouches
  have hhere : ∀ last : HunkLines, (last.lines.any fun line => decide (line.position ∈ lines)) =
      touches lines [last] := by simp [touches]
  rw [applySelection, applyHunks_append, hreached, Outcome.ok_bind]
  simp only [applyHunks, hhere, htouched, if_true]
  rw [← bind_assoc, happly [mark]]
  simp only [applyLines, hmarked, Bool.false_eq_true, if_false, hlines]
  obtain ⟨passed, hdone, hdrop, -⟩ := hnext
  have hpassed : passed = [] := by simpa [hend] using hdrop.symm
  subst hpassed
  split_ifs with hselected
  · have hafter : (mode.side (hunks ++ [hunk])).drop (next.oldIndex + 1) = [] := by
      rw [← List.drop_drop, hend, List.drop_nil]
    rw [makeHunks_concat, ← List.append_nil next.lines, hdone]
    simp [NewFromOldContent.finish, hafter]
  · rfl

/-- The mark behind the last line of two sides that end without a line break. -/
def noNewline : DiffLine :=
  ⟨utf8 ("\n\\ No newline at end of file" ++ "\n"), .contextEofnl, some 2, some 3⟩

theorem applySelection_contextEofnl_noNewline :
    applySelection [⟨none, some 1⟩] ["a", "z"] true false
        (diffHunks [noNewline] 0 0 ([] ++ [⟨[], [.add "a", .keep "z"]⟩])) = .panic :=
  @applySelection_contextEofnl [⟨none, some 1⟩] .unstage noNewline _ rfl rfl []
    ⟨[], [.add "a", .keep "z"]⟩ ⟨nofun, nofun, trivial⟩ rfl

end Mode

end Staging

end Gnostr
