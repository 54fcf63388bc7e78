/-
The parser of git diffs behind the git screens: files with their headers, hunks with their
lines, and the changes among these, all of them as ranges of the text.
-/
import Gnostr.Lib.CursorParser
import Gnostr.Lib.Decimal

namespace Gnostr

namespace TuiGit

open CursorParser
open String (utf8Len)

inductive Status where
  | added
  | deleted
  | modified
  | renamed
  | copied
  | unmerged
deriving DecidableEq, Repr

structure DiffHeader where
  range : Span
  oldFile : Span
  newFile : Span
  status : Status
deriving DecidableEq, Repr

structure HunkHeader where
  range : Span
  oldLineStart : ℕ
  oldLineCount : ℕ
  newLineStart : ℕ
  newLineCount : ℕ
  fnCtx : Span
deriving DecidableEq, Repr

structure Change where
  old : Span
  new : Span
deriving DecidableEq, Repr

structure HunkContent where
  range : Span
  changes : List Change
deriving DecidableEq, Repr

structure Hunk where
  range : Span
  header : HunkHeader
  content : HunkContent
deriving DecidableEq, Repr

structure FileDiff where
  range : Span
  header : DiffHeader
  hunks : List Hunk
deriving DecidableEq, Repr

structure CommitHeader where
  range : Span
  hash : Span
deriving DecidableEq, Repr

structure Commit where
  header : CommitHeader
  diff : List FileDiff
deriving DecidableEq, Repr

inductive ParseError where
  | expected (cursor : ℕ) (expected : String)
  | notFound (cursor : ℕ) (expected : String)
deriving DecidableEq, Repr

def ParseError.text : ParseError → String
  | expected _ text => text
  | notFound _ text => text

abbrev Parser := CursorParser ParseError

/-- The pattern stands at the cursor. -/
def peek (pattern : String) : Test := fun input cursor =>
  (getFrom input cursor).any (pattern.toList.isPrefixOf ·)

def consume (expected : String) : Parser Span := fun input cursor =>
  if peek expected input cursor then
    (.ok ⟨cursor, cursor + utf8Len expected.toList⟩, cursor + utf8Len expected.toList)
  else (.err (.expected cursor expected), cursor)

def eof : Parser Span := fun input cursor =>
  if cursor = utf8Len input then (.ok ⟨cursor, cursor⟩, cursor)
  else (.err (.expected cursor "<eof>"), cursor)

def newline : Parser Span :=
  mapErr (orElse (consume "\r\n") (consume "\n")) (.expected · "<newline>")

def newlineOrEof : Parser Span :=
  mapErr (orElse newline eof) (.expected · "<newline or eof>")

/-- `consume_until`, with the error of `find`. -/
abbrev scanUntil (p : Parser Span) : Parser (Span × Span) :=
  consumeUntil p fun cursor error => .notFound cursor error.text

def asciiLowercase : Parser Span := fun input cursor =>
  if ((getFrom input cursor).bind List.head?).any Char.isLower then
    (.ok ⟨cursor, cursor + 1⟩, cursor + 1)
  else (.err (.expected cursor "<ascii lowercase char>"), cursor)

/-- A number of more than 32 bits panics. -/
def number : Parser ℕ := fun input cursor =>
  let digits := ((getFrom input cursor).getD []).takeWhile Char.isDigit
  if digits = [] then (.err (.expected cursor "<number>"), cursor)
  else
    match parseUnsigned (2 ^ 32) digits with
    | some value => (.ok value, cursor + digits.length)
    | none => (.panic, cursor + digits.length)

def diffHeaderPathPrefix : Parser Span :=
  spanOf (mapErr (do
    let _ ← consume " "
    let _ ← asciiLowercase
    consume "/")
    (.expected · "<diff header path prefix (' a/...' or ' b/...')>"))

/-- The rest of a line. -/
def skipLine : Parser Unit := do
  let _ ← scanUntil newline
  pure ()

def consumeLinesWhilePrefixed (pred : Test) : Parser Span :=
  spanOf (whileDo (fun input cursor => decide (cursor < utf8Len input) && pred input cursor)
    (scanUntil newlineOrEof))

def change : Parser Change := do
  let removed ← consumeLinesWhilePrefixed (peek "-")
  let removedMeta ← consumeLinesWhilePrefixed (peek "\\")
  let added ← consumeLinesWhilePrefixed (peek "+")
  let addedMeta ← consumeLinesWhilePrefixed (peek "\\")
  pure ⟨⟨removed.start, removedMeta.stop⟩, ⟨added.start, addedMeta.stop⟩⟩

/-- A line that is in no change. -/
def atContext : Test := fun input cursor => peek " " input cursor || peek "\\" input cursor

def contextAndChange : Parser Change := do
  let _ ← consumeLinesWhilePrefixed atContext
  let changed ← change
  let _ ← consumeLinesWhilePrefixed atContext
  pure changed

def atHunkLine : Test := fun input cursor =>
  decide (cursor < utf8Len input) &&
    [" ", "-", "+", "\\"].any fun pattern => peek pattern input cursor

def hunkContent : Parser HunkContent := do
  let start ← position
  let changes ← whileDo atHunkLine contextAndChange
  let stop ← position
  pure ⟨⟨start, stop⟩, changes⟩

/-- A number of lines, which is left out when it is one. -/
def lineCount : Parser ℕ := do
  if ← isOk (consume ",") then number else pure 1

/-- Where the lines of one side start, and how many they are. -/
def lineNumbers (lead : String) : Parser (ℕ × ℕ) := do
  let _ ← consume lead
  let start ← number
  let count ← lineCount
  pure (start, count)

/-- What stands behind the numbers of the lines. -/
def functionContext : Parser Span := do
  let _ ← consume " @@"
  let _ ← isOk (consume " ")
  let context ← scanUntil newline
  pure ⟨context.1.start, context.2.stop⟩

def hunkHeader : Parser HunkHeader := do
  let start ← position
  let old ← lineNumbers "@@ -"
  let new ← lineNumbers " +"
  let fnCtx ← functionContext
  let stop ← position
  pure ⟨⟨start, stop⟩, old.1, old.2, new.1, new.2, fnCtx⟩

def hunk : Parser Hunk := do
  let start ← position
  let header ← hunkHeader
  let content ← hunkContent
  let stop ← position
  pure ⟨⟨start, stop⟩, header, content⟩

def unmergedFile : Parser DiffHeader := do
  let path ← consume "* Unmerged path "
  let file ← scanUntil newlineOrEof
  let stop ← position
  pure ⟨⟨path.start, stop⟩, file.1, file.1, .unmerged⟩

def conflictedFile : Parser (Span × Span × Bool) := do
  let _ ← consume "diff --cc "
  let file ← scanUntil newlineOrEof
  pure (file.1, file.1, true)

def oldNewFileHeader : Parser (Span × Span × Bool) := do
  let _ ← consume "diff --git"
  let _ ← diffHeaderPathPrefix
  let oldPath ← scanUntil diffHeaderPathPrefix
  let newPath ← scanUntil newline
  pure (oldPath.1, newPath.1, false)

/-- A line with this beginning, whose rest is not read. -/
def lineIf (pattern : String) (found missed : Status) : Parser Status := do
  if ← ask (peek pattern) then
    skipLine
    pure found
  else pure missed

def indexLine (pattern : String) : Parser Unit := do
  if ← isOk (consume pattern) then skipLine else pure ()

def modeLines : Parser (List Unit) :=
  whileDo (fun input cursor => peek "old mode" input cursor || peek "new mode" input cursor)
    skipLine

/-- Two lines with the names that a file is copied or renamed from and to. -/
def nameLines (target : String) (found : Status) : Parser Status := do
  skipLine
  let _ ← consume target
  skipLine
  pure found

def createdOrDeleted (status : Status) : Parser Status := do
  if ← ask (peek "new file") then
    skipLine
    pure .added
  else lineIf "deleted file" .deleted status

def changedStatus (status : Status) : Parser Status := do
  if ← ask (peek "deleted file mode") then
    skipLine
    pure .deleted
  else if ← ask (peek "new file mode") then
    skipLine
    pure .added
  else if ← ask (peek "copy from") then nameLines "copy to" .copied
  else if ← ask (peek "rename from") then nameLines "rename to" .renamed
  else pure status

def indexIds : Parser Unit := do
  if ← ask (peek "index") then
    let _ ← consume "index "
    skipLine
  else pure ()

def binaryFiles : Parser Unit := do
  if ← ask (peek "Binary files ") then skipLine else pure ()

def fileNames : Parser Unit := do
  if ← ask (peek "---") then
    skipLine
    let _ ← consume "+++"
    skipLine
  else pure ()

/-- The lines that say how a file changed. -/
def extendedHeader (status : Status) : Parser Status := do
  let status ← createdOrDeleted status
  indexLine "similarity index"
  indexLine "dissimilarity index"
  let _ ← modeLines
  changedStatus status

/-- The lines between these and the hunks. -/
def contentHeader : Parser Unit := do
  indexIds
  binaryFiles
  fileNames

/-- The header of a file that is no unmerged path. -/
def fileHeader (start : ℕ) : Parser DiffHeader := do
  let files ← orElse conflictedFile oldNewFileHeader
  let status ← extendedHeader (if files.2.2 then .unmerged else .modified)
  contentHeader
  let stop ← position
  pure ⟨⟨start, stop⟩, files.1, files.2.1, status⟩

def diffHeader : Parser DiffHeader := do
  let start ← position
  orElse unmergedFile (fileHeader start)

def isAtDiffHeader : Test := fun input cursor => peek "diff" input cursor || peek "*" input cursor

def skipUntilDiffHeader : Parser (List (Span × Span)) :=
  whileDo (fun input cursor => decide (cursor < utf8Len input) && !isAtDiffHeader input cursor)
    (scanUntil newlineOrEof)

/-- What follows the header of a file. -/
def fileHunks (status : Status) : Parser (List Hunk) := do
  if status = .unmerged then
    let _ ← skipUntilDiffHeader
    pure []
  else whileDo (peek "@@") hunk

def fileDiff : Parser FileDiff := do
  let start ← position
  let header ← diffHeader
  let hunks ← fileHunks header.status
  let stop ← position
  pure ⟨⟨start, stop⟩, header, hunks⟩

def parseDiff : Parser (List FileDiff) := do
  if ← ask fun input _ => input.isEmpty then pure []
  else
    let diffs ← whileDo isAtDiffHeader fileDiff
    let _ ← eof
    pure diffs

def commitHeader : Parser CommitHeader := do
  let start ← position
  let _ ← consume "commit "
  let hash ← scanUntil newline
  let _ ← skipUntilDiffHeader
  let stop ← position
  pure ⟨⟨start, stop⟩, hash.1⟩

def parseCommit : Parser Commit := do
  let header ← commitHeader
  let diff ← parseDiff
  pure ⟨header, diff⟩

section Places

variable {before word after rest : List Char}

theorem peek_append (pattern : String) (before rest : List Char) :
    peek pattern (before ++ rest) (utf8Len before) = pattern.toList.isPrefixOf rest := by
  rw [peek, getFrom_append, Option.any_some]

theorem getFrom_eq_none_iff {text : List Char} {pos : ℕ} :
    getFrom text pos = none ↔ splitAtByte text pos = none := by
  rw [getFrom, Option.map_eq_none_iff]

theorem consume_append (expected : String) (before rest : List Char) :
    consume expected (before ++ rest) (utf8Len before) =
      if expected.toList <+: rest then
        (.ok ⟨utf8Len before, utf8Len before + utf8Len expected.toList⟩,
          utf8Len before + utf8Len expected.toList)
      else (.err (.expected (utf8Len before) expected), utf8Len before) := by
  simp only [consume, peek_append, List.isPrefixOf_iff_prefix]

instance forward_consume (expected : String) : Forward (consume expected) where
  forward before rest := by
    rw [consume_append]
    split_ifs with hprefixed
    · obtain ⟨after, rfl⟩ := hprefixed
      exact ⟨expected.toList, after, rfl, rfl⟩
    · exact ⟨[], rest, rfl, rfl⟩

theorem consume_reads_iff {expected : String} {span : Span} :
    (consume expected).Reads before word after span ↔
      word = expected.toList ∧ span = ⟨utf8Len before, utf8Len before + utf8Len word⟩ := by
  rw [Reads, Leads, consume_append]
  constructor
  · intro hreads
    split_ifs at hreads with hprefixed
    · obtain ⟨hspan, hmoved⟩ := Prod.ext_iff.mp hreads
      obtain ⟨rest, hrest⟩ := hprefixed
      obtain ⟨rfl, rfl⟩ := utf8Len_inj_of_append hrest hmoved
      exact ⟨rfl, (Outcome.ok.inj hspan).symm⟩
    · cases hreads
  · rintro ⟨rfl, rfl⟩
    rw [if_pos (List.prefix_append _ _)]

theorem consume_fails_iff {expected : String} :
    (consume expected).Fails before word after ↔
      word = [] ∧ ¬ expected.toList <+: after := by
  constructor
  · rintro ⟨error, hfails⟩
    rw [Leads, consume_append] at hfails
    split_ifs at hfails with hprefixed
    · cases hfails
    · have hnil := String.utf8Len_eq_zero.mp (Nat.left_eq_add.mp (Prod.ext_iff.mp hfails).2)
      subst hnil
      exact ⟨rfl, hprefixed⟩
  · rintro ⟨rfl, hnot⟩
    exact ⟨_, by rw [Leads, List.nil_append, consume_append, if_neg hnot]; rfl⟩

instance onPlaces_consume (expected : String) : OnPlaces (consume expected) where
  fails text pos hpos := by
    refine ⟨.expected pos expected, ?_⟩
    rw [consume, peek, getFrom_eq_none_iff.mpr hpos]
    rfl

instance unmoved_consume (expected : String) : Unmoved (consume expected) where
  eq {text pos error moved} hfails := by
    rw [consume] at hfails
    split_ifs at hfails <;> cases hfails
    rfl

instance ranged_consume (expected : String) : Ranged (consume expected) where
  eq {text pos span moved} hread := by
    rw [consume] at hread
    split_ifs at hread <;> cases hread
    rfl

instance forward_eof : Forward eof where
  forward before rest := by
    refine ⟨[], rest, rfl, ?_⟩
    rw [eof]
    split_ifs <;> rfl

theorem eof_reads_iff {span : Span} :
    eof.Reads before word after span ↔
      word = [] ∧ after = [] ∧ span = ⟨utf8Len before, utf8Len before⟩ := by
  rw [Reads, Leads, eof]
  constructor
  · intro hreads
    split_ifs at hreads with hend
    · obtain ⟨hspan, hmoved⟩ := Prod.ext_iff.mp hreads
      have hnil := String.utf8Len_eq_zero.mp (Nat.left_eq_add.mp hmoved)
      subst hnil
      rw [List.nil_append, String.utf8Len_append, Nat.left_eq_add] at hend
      exact ⟨rfl, String.utf8Len_eq_zero.mp hend, (Outcome.ok.inj hspan).symm⟩
    · cases hreads
  · rintro ⟨rfl, rfl, rfl⟩
    simp

instance onPlaces_eof : OnPlaces eof where
  fails text pos hpos := by
    refine ⟨.expected pos "<eof>", ?_⟩
    rw [eof, if_neg]
    rintro rfl
    rw [splitAtByte_length] at hpos
    cases hpos

instance unmoved_eof : Unmoved eof where
  eq {text pos error moved} hfails := by
    rw [eof] at hfails
    split_ifs at hfails <;> cases hfails
    rfl

instance ranged_eof : Ranged eof where
  eq {text pos span moved} hread := by
    rw [eof] at hread
    split_ifs at hread <;> cases hread
    rfl

instance forward_newline : Forward newline := inferInstanceAs (Forward (mapErr _ _))

instance onPlaces_newline : OnPlaces newline := inferInstanceAs (OnPlaces (mapErr _ _))

instance unmoved_newline : Unmoved newline := inferInstanceAs (Unmoved (mapErr _ _))

instance ranged_newline : Ranged newline := inferInstanceAs (Ranged (mapErr _ _))

instance forward_newlineOrEof : Forward newlineOrEof := inferInstanceAs (Forward (mapErr _ _))

instance onPlaces_newlineOrEof : OnPlaces newlineOrEof :=
  inferInstanceAs (OnPlaces (mapErr _ _))

instance ranged_newlineOrEof : Ranged newlineOrEof := inferInstanceAs (Ranged (mapErr _ _))

theorem utf8Size_of_le {c last : Char} (hc : c.val ≤ last.val) (hlast : last.val ≤ 127) :
    c.utf8Size = 1 :=
  Char.utf8Size_eq_one_iff.mpr (UInt32.le_trans hc hlast)

theorem utf8Len_digits {digits : List Char} (hdigits : digits.all Char.isDigit = true) :
    utf8Len digits = digits.length := by
  induction digits with
  | nil => simp
  | cons c digits ih =>
      simp only [List.all_cons, Bool.and_eq_true, Char.isDigit, decide_eq_true_eq] at hdigits
      rw [String.utf8Len_cons, utf8Size_of_le hdigits.1.2 (by decide), List.length_cons]
      rw [ih (by simpa [Char.isDigit] using hdigits.2)]

instance forward_asciiLowercase : Forward asciiLowercase where
  forward before rest := by
    rw [asciiLowercase, getFrom_append]
    cases rest with
    | nil => exact ⟨[], [], rfl, rfl⟩
    | cons c rest =>
        by_cases hc : c.isLower = true
        · refine ⟨[c], rest, rfl, ?_⟩
          have hlast : c.val ≤ 'z'.val := of_decide_eq_true (Bool.and_eq_true_iff.mp hc).2
          simp [hc, utf8Size_of_le hlast (by decide)]
        · exact ⟨[], c :: rest, rfl, by simp [hc]⟩

theorem number_append (before rest : List Char) :
    number (before ++ rest) (utf8Len before) =
      if rest.takeWhile Char.isDigit = [] then
        (.err (.expected (utf8Len before) "<number>"), utf8Len before)
      else
        match parseUnsigned (2 ^ 32) (rest.takeWhile Char.isDigit) with
        | some value => (.ok value, utf8Len before + utf8Len (rest.takeWhile Char.isDigit))
        | none => (.panic, utf8Len before + utf8Len (rest.takeWhile Char.isDigit)) := by
  rw [number, getFrom_append, Option.getD_some, utf8Len_digits List.all_takeWhile]

instance forward_number : Forward number where
  forward before rest := by
    rw [number_append]
    split_ifs
    · exact ⟨[], rest, rfl, rfl⟩
    · refine ⟨rest.takeWhile Char.isDigit, rest.dropWhile Char.isDigit,
        List.takeWhile_append_dropWhile.symm, ?_⟩
      cases parseUnsigned (2 ^ 32) (rest.takeWhile Char.isDigit) <;> rfl

instance forward_diffHeaderPathPrefix : Forward diffHeaderPathPrefix :=
  inferInstanceAs (Forward (spanOf _))

instance onPlaces_diffHeaderPathPrefix : OnPlaces diffHeaderPathPrefix :=
  inferInstanceAs (OnPlaces (spanOf _))

instance ranged_diffHeaderPathPrefix : Ranged diffHeaderPathPrefix :=
  inferInstanceAs (Ranged (spanOf _))

end Places

section Onwards

instance forward_skipLine : Forward skipLine := by unfold skipLine; infer_instance

instance forward_consumeLinesWhilePrefixed (pred : Test) :
    Forward (consumeLinesWhilePrefixed pred) := by
  unfold consumeLinesWhilePrefixed; infer_instance

instance forward_change : Forward change := by unfold change; infer_instance

instance forward_contextAndChange : Forward contextAndChange := by
  unfold contextAndChange; infer_instance

instance forward_hunkContent : Forward hunkContent := by unfold hunkContent; infer_instance

instance forward_lineCount : Forward lineCount := by unfold lineCount; infer_instance

instance forward_lineNumbers (lead : String) : Forward (lineNumbers lead) := by
  unfold lineNumbers; infer_instance

instance forward_functionContext : Forward functionContext := by
  unfold functionContext; infer_instance

instance forward_hunkHeader : Forward hunkHeader := by unfold hunkHeader; infer_instance

instance forward_hunk : Forward hunk := by unfold hunk; infer_instance

instance forward_unmergedFile : Forward unmergedFile := by unfold unmergedFile; infer_instance

instance forward_conflictedFile : Forward conflictedFile := by
  unfold conflictedFile; infer_instance

instance forward_oldNewFileHeader : Forward oldNewFileHeader := by
  unfold oldNewFileHeader; infer_instance

instance forward_lineIf (pattern : String) (found missed : Status) :
    Forward (lineIf pattern found missed) := by
  unfold lineIf; infer_instance

instance forward_indexLine (pattern : String) : Forward (indexLine pattern) := by
  unfold indexLine; infer_instance

instance forward_modeLines : Forward modeLines := by unfold modeLines; infer_instance

instance forward_nameLines (target : String) (found : Status) :
    Forward (nameLines target found) := by
  unfold nameLines; infer_instance

instance forward_createdOrDeleted (status : Status) : Forward (createdOrDeleted status) := by
  unfold createdOrDeleted; infer_instance

instance forward_changedStatus (status : Status) : Forward (changedStatus status) := by
  unfold changedStatus; infer_instance

instance forward_indexIds : Forward indexIds := by unfold indexIds; infer_instance

instance forward_binaryFiles : Forward binaryFiles := by unfold binaryFiles; infer_instance

instance forward_fileNames : Forward fileNames := by unfold fileNames; infer_instance

instance forward_extendedHeader (status : Status) : Forward (extendedHeader status) := by
  unfold extendedHeader; infer_instance

instance forward_contentHeader : Forward contentHeader := by
  unfold contentHeader; infer_instance

instance forward_fileHeader (start : ℕ) : Forward (fileHeader start) := by
  unfold fileHeader; infer_instance

instance forward_diffHeader : Forward diffHeader := by unfold diffHeader; infer_instance

instance forward_skipUntilDiffHeader : Forward skipUntilDiffHeader := by
  unfold skipUntilDiffHeader; infer_instance

instance forward_fileHunks (status : Status) : Forward (fileHunks status) := by
  unfold fileHunks; infer_instance

instance forward_fileDiff : Forward fileDiff := by unfold fileDiff; infer_instance

instance forward_parseDiff : Forward parseDiff := by unfold parseDiff; infer_instance

instance forward_commitHeader : Forward commitHeader := by unfold commitHeader; infer_instance

instance forward_parseCommit : Forward parseCommit := by unfold parseCommit; infer_instance

end Onwards

end TuiGit

end Gnostr
