/-
Runs of staging, unstaging and discarding lines of one file: whichever lines are selected
and in whatever order, no call panics and no line is made up, and with every line of a
diff selected the one side becomes the other.
-/
import Gnostr.Asyncgit.Staging
import Gnostr.Chat.Msg
import Gnostr.Lib.Lines
import Gnostr.Lib.Machine

namespace Gnostr

namespace Staging

open Chat (strLines)

section Source

/-- The contents of one path. -/
structure FileState where
  head : Option Bytes
  index : Option Bytes
  workdir : Option Bytes
deriving DecidableEq, Repr

/-- The patches the library finds between two contents, with one line of context. -/
abbrev Differ := Option Bytes → Option Bytes → Outcome StagingError (List (List HunkLines))

variable (differ : Differ)

def getDiffRaw (s : FileState) (stage : Bool) : Outcome StagingError (List (List HunkLines)) :=
  if stage then differ s.head s.index else differ s.index s.workdir

def getFileDiffPatch (s : FileState) (isStaged : Bool) :
    Outcome StagingError (List HunkLines) := do
  let patches ← getDiffRaw differ s isStaged
  if 1 < patches.length then .err (.generic "patch error")
  else Outcome.okOr (.generic "no patch found") patches.head?

def stageLines (isStage : Bool) (lines : List DiffLinePosition) (s : FileState) :
    Outcome StagingError FileState :=
  if lines = [] then .ok s
  else do
    let blob ← Outcome.okOr (.generic "only non new files supported") s.index
    let indexedContent ← Outcome.okOr .utf8 (fromUtf8 blob)
    let hunks ← getFileDiffPatch differ s isStage
    let newContent ← applySelection lines (strLines indexedContent) isStage false hunks
    if (utf8 newContent).length < 2 ^ 32 then
      return { s with index := some (utf8 newContent) }
    else .err (.generic "source value not representable by target")

def discardLines (lines : List DiffLinePosition) (s : FileState) :
    Outcome StagingError FileState :=
  if lines = [] then .ok s
  else do
    let hunks ← getFileDiffPatch differ s false
    let file ← Outcome.okOr (.generic "No such file or directory") s.workdir
    let workingContent ← Outcome.okOr .utf8 (fromUtf8 file)
    let newContent ← applySelection lines (strLines workingContent) false true hunks
    return { s with workdir := some (utf8 newContent) }

/-- A call of the interface. -/
def Mode.call (lines : List DiffLinePosition) (s : FileState) :
    Mode → Outcome StagingError FileState
  | stage => stageLines differ false lines s
  | unstage => stageLines differ true lines s
  | discard => discardLines differ lines s

/-- A file under any calls; a call that fails changes nothing. -/
def session : Machine FileState (Mode × List DiffLinePosition)
    (Outcome StagingError FileState) where
  step s input :=
    let result := input.1.call differ input.2 s
    (result.toOption.getD s, [result])

end Source

section Texts

/-- A file of these lines. -/
def fileText (lines : List String) : String :=
  String.ofList (lines.flatMap fun line => line.toList ++ ['\n'])

/-- A line without line breaks, and without the carriage return of another system. -/
def Plain (line : String) : Prop := '\n' ∉ line.toList ∧ line.toList.getLast? ≠ some '\r'

@[simp] theorem toList_fileText (lines : List String) :
    (fileText lines).toList = lines.flatMap fun line => line.toList ++ ['\n'] := by
  simp [fileText]

theorem strLines_fileText {lines : List String} (hlines : ∀ line ∈ lines, Plain line) :
    strLines (fileText lines) = lines := by
  have hread : readLines '\n' (fileText lines).toList =
      lines.map fun line => line.toList ++ ['\n'] := by
    have := @readLines_flatMap _ _ '\n' (lines.map String.toList)
      (by simpa using fun line hline => (hlines line hline).1) []
    simpa [List.flatMap_map, readLines, Function.comp_def] using this
  rw [strLines, hread, List.map_map]
  refine Eq.trans (List.map_congr_left fun line hline => ?_) (List.map_id lines)
  have hlast := (hlines line hline).2
  rw [← List.head?_reverse] at hlast
  rw [Function.comp_apply, List.reverse_append]
  generalize hreverse : line.toList.reverse = reversed at hlast
  have hline : line = String.ofList reversed.reverse := by
    rw [← hreverse, List.reverse_reverse, String.ofList_toList]
  cases reversed with
  | nil => simpa using hline.symm
  | cons c rest =>
      have hc : c ≠ '\r' := by simpa using hlast
      simp [hc, hline]

/-- What is written for some lines: there is at least one, and an empty one behind others
is left out. -/
def settled (lines : List String) : List String :=
  if lines = [] then [""]
  else if lines.getLast? = some "" ∧ lines.dropLast ≠ [] then lines.dropLast
  else lines

theorem intercalate_concat (lines : List String) (last : String) :
    String.intercalate "\n" (lines ++ [last]) = fileText lines ++ last := by
  induction lines with
  | nil => simp [fileText]
  | cons line lines ih =>
      rw [List.cons_append, String.intercalate_cons_of_ne_nil (by simp), ih]
      apply String.toList_inj.mp
      simp

theorem finishLines_eq {lines : List String} (hlines : ∀ line ∈ lines, Plain line) :
    NewFromOldContent.finishLines lines = fileText (settled lines) := by
  rcases List.eq_nil_or_concat lines with rfl | ⟨front, last, rfl⟩
  · rfl
  · have hbreak : '\n' ∉ last.toList := (hlines last (by simp)).1
    have hwhole : fileText front ++ last ++ "\n" = fileText (front.concat last) := by
      apply String.toList_inj.mp
      simp
    rw [NewFromOldContent.finishLines, settled, List.concat_eq_append, intercalate_concat]
    by_cases hlast : last = ""
    · subst hlast
      rcases List.eq_nil_or_concat front with rfl | ⟨before, line, rfl⟩
      · rfl
      · simp [List.getLast?_append]
    · have hends : (fileText front ++ last).toList.getLast? ≠ some '\n' := by
        have hne : last.toList ≠ [] := by simpa using hlast
        rw [String.toList_append, List.getLast?_append_of_ne_nil _ hne]
        exact fun h => hbreak (List.mem_of_getLast? h)
      rw [if_neg hends, if_neg (by simp), if_neg (by simp [hlast]), hwhole,
        List.concat_eq_append]

end Texts

section Runs

/-- The content of a path that is there, as lines. -/
def content (lines : Option (List String)) : Option Bytes :=
  lines.map fun lines => utf8 (fileText lines)

/-- The hunks of a diff between two contents, either of which may be missing. -/
def Between (old new : Option (List String)) (hunks : List HunkLines) : Prop :=
  ∃ script tail, hunks = diffHunks [] 0 0 script ∧ Anchored 0 0 script ∧
    (∀ lines ∈ old, oldSide script ++ tail = lines) ∧
    (∀ lines ∈ new, newSide script ++ tail = lines) ∧
    (old = none → oldSide script = []) ∧ (new = none → newSide script = [])

/-- What the library answers are diffs of the two contents. -/
def Faithful (differ : Differ) : Prop :=
  ∀ old new : Option (List String),
    (∀ lines ∈ old, ∀ line ∈ lines, Plain line) →
    (∀ lines ∈ new, ∀ line ∈ lines, Plain line) →
    (differ (content old) (content new)).Returns ∧
    ∀ patches, differ (content old) (content new) = .ok patches →
      ∀ hunks ∈ patches, Between old new hunks

def Mode.edited (old new : Option (List String)) : Mode → Option (List String)
  | stage => old
  | unstage => new
  | discard => new

def Mode.target (old new : Option (List String)) : Mode → Option (List String)
  | stage => new
  | unstage => old
  | discard => old

theorem mem_numberedHunks {edit : Edit String × LineNumbers} {script : List (EditHunk String)}
    {oldBefore newBefore : ℕ} (hedit : edit ∈ numberedHunks oldBefore newBefore script) :
    ∃ hunk ∈ diffHunks [] oldBefore newBefore script, diffLine edit ∈ hunk.lines := by
  induction script generalizing oldBefore newBefore with
  | nil => exact absurd hedit List.not_mem_nil
  | cons hunk script ih =>
      simp only [numberedHunks, List.mem_append] at hedit
      rcases hedit with hedit | hedit
      · exact ⟨_, List.mem_cons_self, List.mem_append_left _ (List.mem_map_of_mem hedit)⟩
      · obtain ⟨found, hfound, hmem⟩ := ih hedit
        exact ⟨found, List.mem_cons_of_mem _ hfound, hmem⟩

def AllSelected (lines : List DiffLinePosition) (hunks : List HunkLines) : Prop :=
  ∀ hunk ∈ hunks, ∀ line ∈ hunk.lines, line.position ∈ lines

/-- A selection between two contents: every line is of one of them, and with all lines
selected the edited one becomes the other. -/
theorem exists_applySelection (mode : Mode) {lines : List DiffLinePosition}
    {old new : Option (List String)} {hunks : List HunkLines} (hbetween : Between old new hunks)
    {texts : List String} (htexts : mode.edited old new = some texts) :
    ∃ result, applySelection lines texts mode.isStaged mode.reverse hunks =
        .ok (NewFromOldContent.finishLines result) ∧
      (∀ line ∈ result, (∃ texts ∈ old, line ∈ texts) ∨ ∃ texts ∈ new, line ∈ texts) ∧
      (AllSelected lines hunks → ∀ target ∈ mode.target old new, result = target) := by
  obtain ⟨script, tail, rfl, hanchored, hold, hnew, hnoOld, hnoNew⟩ := hbetween
  have hside : mode.side script ++ tail = texts := by
    cases mode with
    | stage => exact hold texts htexts
    | unstage => exact hnew texts htexts
    | discard => exact hnew texts htexts
  have hinOld : ∀ line ∈ oldSide script, ∃ texts ∈ old, line ∈ texts := by
    intro line hline
    cases hcase : old with
    | none => simp [hnoOld hcase] at hline
    | some other => exact ⟨other, rfl, by simp [← hold other hcase, hline]⟩
  have hinNew : ∀ line ∈ newSide script, ∃ texts ∈ new, line ∈ texts := by
    intro line hline
    cases hcase : new with
    | none => simp [hnoNew hcase] at hline
    | some other => exact ⟨other, rfl, by simp [← hnew other hcase, hline]⟩
  refine ⟨makeHunks (mode.chosen lines) 0 0 script ++ tail, ?_, ?_, ?_⟩
  · rw [← hside]
    exact @applySelection_diffHunks _ _ mode [] nofun _ hanchored
  · intro line hline
    rcases List.mem_append.mp hline with hmade | htail
    · exact (mem_makeHunks hmade).imp (hinOld line) (hinNew line)
    · have hmem : line ∈ texts := by simp [← hside, htail]
      cases mode with
      | stage => exact Or.inl ⟨texts, htexts, hmem⟩
      | unstage => exact Or.inr ⟨texts, htexts, hmem⟩
      | discard => exact Or.inr ⟨texts, htexts, hmem⟩
  · intro hall target htarget
    have hselected : ∀ edit ∈ numberedHunks 0 0 script,
        (⟨edit.2.1, edit.2.2⟩ : DiffLinePosition) ∈ lines := by
      intro edit hedit
      obtain ⟨hunk, hhunk, hmem⟩ := mem_numberedHunks hedit
      simpa [position_diffLine] using hall hunk hhunk _ hmem
    cases mode with
    | stage =>
        rw [← hnew target htarget, ← makeHunks_true script 0 0]
        congr 1
        exact makeHunks_congr fun edit hedit => by simp [Mode.chosen, hselected edit hedit]
    | unstage =>
        rw [← hold target htarget, ← makeHunks_false script 0 0]
        congr 1
        exact makeHunks_congr fun edit hedit => by simp [Mode.chosen, hselected edit hedit]
    | discard =>
        rw [← hold target htarget, ← makeHunks_false script 0 0]
        congr 1
        exact makeHunks_congr fun edit hedit => by simp [Mode.chosen, hselected edit hedit]

variable {allowed : Set String}

/-- A path that is not there, or lines that are allowed and empty ones. -/
def FromLines (allowed : Set String) (bytes : Option Bytes) : Prop :=
  ∃ lines, bytes = content lines ∧ ∀ texts ∈ lines, ∀ line ∈ texts, line ∈ allowed ∨ line = ""

@[mk_iff]
structure FileState.FromLines (allowed : Set String) (s : FileState) : Prop where
  head : Staging.FromLines allowed s.head
  index : Staging.FromLines allowed s.index
  workdir : Staging.FromLines allowed s.workdir

theorem mem_settled {lines : List String} {line : String} (hline : line ∈ settled lines) :
    line ∈ lines ∨ line = "" := by
  rw [settled] at hline
  split_ifs at hline with hnil hlast
  · exact Or.inr (List.mem_singleton.mp hline)
  · exact Or.inl (List.dropLast_subset _ hline)
  · exact Or.inl hline

theorem plain_empty : Plain "" := ⟨List.not_mem_nil, nofun⟩

theorem plain_of_fromLines (hallowed : ∀ line ∈ allowed, Plain line)
    {lines : Option (List String)}
    (hlines : ∀ texts ∈ lines, ∀ line ∈ texts, line ∈ allowed ∨ line = "") :
    ∀ texts ∈ lines, ∀ line ∈ texts, Plain line := by
  intro texts htexts line hline
  rcases hlines texts htexts line hline with hmem | rfl
  · exact hallowed line hmem
  · exact plain_empty

variable {differ : Differ} {lines : List DiffLinePosition}

/-- The patch of a file and its hunks. -/
theorem getFileDiffPatch_faithful (hdiffer : Faithful differ)
    (hallowed : ∀ line ∈ allowed, Plain line) {s : FileState} (isStaged : Bool)
    {old new : Option (List String)}
    (hold : (if isStaged then s.head else s.index) = content old)
    (hnew : (if isStaged then s.index else s.workdir) = content new)
    (holdLines : ∀ texts ∈ old, ∀ line ∈ texts, line ∈ allowed ∨ line = "")
    (hnewLines : ∀ texts ∈ new, ∀ line ∈ texts, line ∈ allowed ∨ line = "") :
    (getFileDiffPatch differ s isStaged).Returns ∧
      ∀ hunks, getFileDiffPatch differ s isStaged = .ok hunks → Between old new hunks := by
  obtain ⟨hreturns, hbetween⟩ := hdiffer old new (plain_of_fromLines hallowed holdLines)
    (plain_of_fromLines hallowed hnewLines)
  have hpatches : getDiffRaw differ s isStaged = differ (content old) (content new) := by
    cases isStaged <;> simp_all [getDiffRaw]
  rw [getFileDiffPatch, hpatches]
  constructor
  · refine Outcome.returns_bind_iff.mpr ⟨hreturns, fun patches _ => ?_⟩
    split_ifs
    · exact Outcome.returns_err _
    · exact Outcome.returns_okOr _ _
  · intro hunks hhunks
    obtain ⟨patches, hfound, hhunks⟩ := Outcome.bind_eq_ok_iff.mp hhunks
    split_ifs at hhunks
    exact hbetween patches hfound hunks (List.mem_of_head? (Outcome.okOr_eq_ok_iff.mp hhunks))

/-- The selection of a call, on contents of allowed lines. -/
theorem exists_applySelection_of_fromLines (hallowed : ∀ line ∈ allowed, Plain line)
    (mode : Mode) {old new : Option (List String)} {hunks : List HunkLines}
    (hbetween : Between old new hunks)
    (hold : ∀ texts ∈ old, ∀ line ∈ texts, line ∈ allowed ∨ line = "")
    (hnew : ∀ texts ∈ new, ∀ line ∈ texts, line ∈ allowed ∨ line = "")
    {texts : List String} (htexts : mode.edited old new = some texts) :
    ∃ result, applySelection lines (strLines (fileText texts)) mode.isStaged mode.reverse
        hunks = .ok (fileText result) ∧
      (∀ line ∈ result, line ∈ allowed ∨ line = "") ∧
      (AllSelected lines hunks → ∀ target ∈ mode.target old new, result = settled target) := by
  have hplain : ∀ line ∈ texts, Plain line := by
    cases mode with
    | stage => exact plain_of_fromLines hallowed hold texts htexts
    | unstage => exact plain_of_fromLines hallowed hnew texts htexts
    | discard => exact plain_of_fromLines hallowed hnew texts htexts
  obtain ⟨result, happly, hmem, hall⟩ := @exists_applySelection mode lines _ _ _ hbetween _ htexts
  have hresult : ∀ line ∈ result, line ∈ allowed ∨ line = "" := by
    intro line hline
    rcases hmem line hline with ⟨other, hother, hline⟩ | ⟨other, hother, hline⟩
    · exact hold other hother line hline
    · exact hnew other hother line hline
  refine ⟨settled result, ?_, fun line hline => ?_, fun hselected target htarget => ?_⟩
  · rw [strLines_fileText hplain, happly, finishLines_eq]
    exact @plain_of_fromLines allowed hallowed (some result) (by simpa using hresult) _ rfl
  · rcases mem_settled hline with hmem | rfl
    · exact hresult line hmem
    · exact Or.inr rfl
  · rw [hall hselected target htarget]

/-- The content a call edits, replaced. -/
def Mode.write (s : FileState) (bytes : Option Bytes) : Mode → FileState
  | stage => { s with index := bytes }
  | unstage => { s with index := bytes }
  | discard => { s with workdir := bytes }

/-- The content the edited one becomes with everything selected. -/
def Mode.aim (s : FileState) : Mode → Option Bytes
  | stage => s.workdir
  | unstage => s.head
  | discard => s.index

theorem fromUtf8_content {lines : Option (List String)} {blob : Bytes}
    (hblob : content lines = some blob) :
    ∃ texts, lines = some texts ∧ fromUtf8 blob = some (fileText texts) := by
  obtain ⟨texts, htexts, rfl⟩ := Option.map_eq_some_iff.mp hblob
  exact ⟨texts, htexts, fromUtf8_utf8 _⟩

theorem content_inj {first second : Option (List String)}
    (hfirst : ∀ texts ∈ first, ∀ line ∈ texts, Plain line)
    (hsecond : ∀ texts ∈ second, ∀ line ∈ texts, Plain line)
    (hcontent : content first = content second) : first = second := by
  cases first with
  | none => simpa [content, eq_comm] using hcontent
  | some texts =>
      cases second with
      | none => simp [content] at hcontent
      | some others =>
          have htext := utf8_injective (Option.some_injective _ hcontent)
          rw [← strLines_fileText (hfirst texts rfl), htext,
            strLines_fileText (hsecond others rfl)]

/-- What a call leaves: allowed lines, all of the other content with everything selected. -/
def Writes (allowed : Set String) (differ : Differ) (lines : List DiffLinePosition)
    (mode : Mode) (s t : FileState) : Prop :=
  ∃ hunks result, getFileDiffPatch differ s mode.isStaged = .ok hunks ∧
    t = mode.write s (content (some result)) ∧
    (∀ line ∈ result, line ∈ allowed ∨ line = "") ∧
    (AllSelected lines hunks → ∀ target, (∀ line ∈ target, Plain line) →
      mode.aim s = content (some target) → result = settled target)

/-- The two sides of the diff a call asks for. -/
structure Sides (allowed : Set String) (differ : Differ) (mode : Mode) (s : FileState)
    (old new : Option (List String)) : Prop where
  returns : (getFileDiffPatch differ s mode.isStaged).Returns
  between : ∀ hunks, getFileDiffPatch differ s mode.isStaged = .ok hunks →
    Between old new hunks
  old_allowed : ∀ texts ∈ old, ∀ line ∈ texts, line ∈ allowed ∨ line = ""
  new_allowed : ∀ texts ∈ new, ∀ line ∈ texts, line ∈ allowed ∨ line = ""
  aim : mode.aim s = content (mode.target old new)

variable {mode : Mode} {s : FileState} {old new : Option (List String)}

theorem writes_of_applySelection (hallowed : ∀ line ∈ allowed, Plain line)
    (hsides : Sides allowed differ mode s old new) {hunks : List HunkLines}
    (hpatch : getFileDiffPatch differ s mode.isStaged = .ok hunks)
    {texts : List String} (htexts : mode.edited old new = some texts) :
    ∃ text, applySelection lines (strLines (fileText texts)) mode.isStaged mode.reverse
        hunks = .ok text ∧
      Writes allowed differ lines mode s (mode.write s (some (utf8 text))) := by
  obtain ⟨result, happly, hresult, hall⟩ := @exists_applySelection_of_fromLines _ lines
    hallowed mode _ _ _ (hsides.between hunks hpatch) hsides.old_allowed hsides.new_allowed _
    htexts
  refine ⟨_, happly, hunks, result, hpatch, rfl, hresult, ?_⟩
  intro hselected target htarget htargetContent
  apply hall hselected target
  refine content_inj ?_ (by simpa using htarget) (hsides.aim.symm.trans htargetContent)
  cases mode with
  | stage => exact plain_of_fromLines hallowed hsides.new_allowed
  | unstage => exact plain_of_fromLines hallowed hsides.old_allowed
  | discard => exact plain_of_fromLines hallowed hsides.old_allowed

theorem stageLines_cases (hallowed : ∀ line ∈ allowed, Plain line) (hmode : mode ≠ .discard)
    (hlines : lines ≠ []) (hsides : Sides allowed differ mode s old new)
    (hindex : s.index = content (mode.edited old new)) :
    (stageLines differ mode.isStaged lines s).Returns ∧
      ∀ t, stageLines differ mode.isStaged lines s = .ok t →
        Writes allowed differ lines mode s t := by
  have hreverse : mode.reverse = false := by
    cases mode with
    | stage => rfl
    | unstage => rfl
    | discard => exact absurd rfl hmode
  have hwrite : ∀ bytes, mode.write s bytes = { s with index := bytes } := by
    intro bytes
    cases mode with
    | stage => rfl
    | unstage => rfl
    | discard => exact absurd rfl hmode
  rw [stageLines, if_neg hlines]
  cases hblob : s.index with
  | none => simp
  | some blob =>
      obtain ⟨texts, htexts, hutf8⟩ := fromUtf8_content (hindex.symm.trans hblob)
      simp only [Outcome.okOr_some, Outcome.ok_bind, hutf8]
      cases hpatch : getFileDiffPatch differ s mode.isStaged with
      | err error => simp
      | panic => exact absurd hpatch hsides.returns
      | ok hunks =>
          obtain ⟨text, happly, hwrites⟩ :=
            @writes_of_applySelection _ _ lines _ _ _ _ hallowed hsides _ hpatch _ htexts
          rw [hreverse] at happly
          rw [hwrite] at hwrites
          rw [Outcome.ok_bind, happly, Outcome.ok_bind]
          split_ifs
          · exact ⟨Outcome.returns_ok _, fun t ht => (Outcome.ok.inj ht) ▸ hwrites⟩
          · simp

theorem discardLines_cases (hallowed : ∀ line ∈ allowed, Plain line) (hlines : lines ≠ [])
    (hsides : Sides allowed differ .discard s old new) (hworkdir : s.workdir = content new) :
    (discardLines differ lines s).Returns ∧ ∀ t, discardLines differ lines s = .ok t →
      Writes allowed differ lines .discard s t := by
  rw [discardLines, if_neg hlines]
  cases hpatch : getFileDiffPatch differ s false with
  | err error => simp
  | panic => exact absurd hpatch hsides.returns
  | ok hunks =>
      cases hfile : s.workdir with
      | none => simp
      | some file =>
          obtain ⟨texts, htexts, hutf8⟩ := fromUtf8_content (hworkdir.symm.trans hfile)
          obtain ⟨text, happly, hwrites⟩ :=
            @writes_of_applySelection _ _ lines _ _ _ _ hallowed hsides _ hpatch _ htexts
          have happly : applySelection lines (strLines (fileText texts)) false true hunks =
              .ok text := happly
          simp only [Outcome.okOr_some, Outcome.ok_bind, hutf8, happly]
          exact ⟨Outcome.returns_ok _, fun t ht => (Outcome.ok.inj ht) ▸ hwrites⟩

/-- What a call does: it comes back, and one that succeeds with lines selected writes. -/
theorem call_cases (hdiffer : Faithful differ) (hallowed : ∀ line ∈ allowed, Plain line)
    (mode : Mode) (hs : s.FromLines allowed) :
    (mode.call differ lines s).Returns ∧ ∀ t, mode.call differ lines s = .ok t →
      lines = [] ∧ t = s ∨ Writes allowed differ lines mode s t := by
  obtain ⟨⟨head, hheadBytes, hhead⟩, ⟨index, hindexBytes, hindex⟩,
    ⟨workdir, hworkdirBytes, hworkdir⟩⟩ := hs
  obtain ⟨hstaged, hstagedHunks⟩ := @getFileDiffPatch_faithful allowed differ hdiffer hallowed
    s true head index hheadBytes hindexBytes hhead hindex
  obtain ⟨hunstaged, hunstagedHunks⟩ := @getFileDiffPatch_faithful allowed differ hdiffer
    hallowed s false index workdir hindexBytes hworkdirBytes hindex hworkdir
  by_cases hlines : lines = []
  · subst hlines
    cases mode <;> simp [Mode.call, stageLines, discardLines]
  · cases mode with
    | stage =>
        obtain ⟨hreturns, hwrites⟩ := @stageLines_cases allowed differ lines .stage s _ _ hallowed
          nofun hlines ⟨hunstaged, hunstagedHunks, hindex, hworkdir, hworkdirBytes⟩ hindexBytes
        exact ⟨hreturns, fun t ht => Or.inr (hwrites t ht)⟩
    | unstage =>
        obtain ⟨hreturns, hwrites⟩ := @stageLines_cases allowed differ lines .unstage s _ _
          hallowed nofun hlines ⟨hstaged, hstagedHunks, hhead, hindex, hheadBytes⟩ hindexBytes
        exact ⟨hreturns, fun t ht => Or.inr (hwrites t ht)⟩
    | discard =>
        obtain ⟨hreturns, hwrites⟩ := discardLines_cases hallowed hlines
          ⟨hunstaged, hunstagedHunks, hindex, hworkdir, hindexBytes⟩ hworkdirBytes
        exact ⟨hreturns, fun t ht => Or.inr (hwrites t ht)⟩

theorem Writes.fromLines {t : FileState} (hwrites : Writes allowed differ lines mode s t)
    (hs : s.FromLines allowed) : t.FromLines allowed := by
  obtain ⟨_, result, -, rfl, hresult, -⟩ := hwrites
  have hcontent : FromLines allowed (content (some result)) :=
    ⟨some result, rfl, by simpa using hresult⟩
  cases mode with
  | stage => exact ⟨hs.head, hcontent, hs.workdir⟩
  | unstage => exact ⟨hs.head, hcontent, hs.workdir⟩
  | discard => exact ⟨hs.head, hs.index, hcontent⟩

/-- A call in a session keeps the lines of the file and comes back. -/
theorem session_step (hdiffer : Faithful differ) (hallowed : ∀ line ∈ allowed, Plain line)
    (hs : s.FromLines allowed) (input : Mode × List DiffLinePosition) :
    ((session differ).next s input).FromLines allowed ∧
      ((session differ).next s input).head = s.head ∧
      (input.1 ≠ .discard → ((session differ).next s input).workdir = s.workdir) ∧
      (input.1 = .discard → ((session differ).next s input).index = s.index) ∧
      ∀ result ∈ (session differ).emit s input, result.Returns := by
  obtain ⟨mode, lines⟩ := input
  obtain ⟨hreturns, hcases⟩ := @call_cases _ _ lines s hdiffer hallowed mode hs
  have hemit : ∀ result ∈ (session differ).emit s (mode, lines), result.Returns := by
    simpa [Machine.emit, session] using hreturns
  simp only [Machine.next, session]
  cases hcall : mode.call differ lines s with
  | err error => exact ⟨hs, rfl, fun _ => rfl, fun _ => rfl, hemit⟩
  | panic => exact ⟨hs, rfl, fun _ => rfl, fun _ => rfl, hemit⟩
  | ok t =>
      rcases hcases t hcall with ⟨-, rfl⟩ | hwrites
      · exact ⟨hs, rfl, fun _ => rfl, fun _ => rfl, hemit⟩
      · refine ⟨hwrites.fromLines hs, ?_⟩
        obtain ⟨_, result, -, rfl, -⟩ := hwrites
        cases mode with
        | stage => exact ⟨rfl, fun _ => rfl, nofun, hemit⟩
        | unstage => exact ⟨rfl, fun _ => rfl, nofun, hemit⟩
        | discard => exact ⟨rfl, fun h => absurd rfl h, fun _ => rfl, hemit⟩

/-- Whatever is staged, unstaged and discarded, in whatever order: no call panics, the
commit is not touched, and every line of the index and of the working file was there at
the start, or is empty. -/
theorem session_run (hdiffer : Faithful differ) (hallowed : ∀ line ∈ allowed, Plain line)
    (hs : s.FromLines allowed) (inputs : List (Mode × List DiffLinePosition)) :
    ((session differ).run s inputs).FromLines allowed ∧
      ((session differ).run s inputs).head = s.head ∧
      ((∀ input ∈ inputs, input.1 ≠ .discard) →
        ((session differ).run s inputs).workdir = s.workdir) ∧
      ((∀ input ∈ inputs, input.1 = .discard) →
        ((session differ).run s inputs).index = s.index) ∧
      ∀ result ∈ (session differ).trace s inputs, result.Returns := by
  induction inputs generalizing s with
  | nil => exact ⟨hs, rfl, fun _ => rfl, fun _ => rfl, nofun⟩
  | cons input inputs ih =>
      obtain ⟨hnext, hhead, hworkdir, hindex, hemit⟩ := session_step hdiffer hallowed hs input
      obtain ⟨hrun, hheads, hworkdirs, hindices, htrace⟩ := ih hnext
      simp only [Machine.run_cons, Machine.trace_cons, List.forall_mem_cons,
        List.forall_mem_append]
      exact ⟨hrun, hheads.trans hhead, fun h => (hworkdirs h.2).trans (hworkdir h.1),
        fun h => (hindices h.2).trans (hindex h.1), hemit, htrace⟩

/-- After any session, a call that succeeds with every line of the diff selected makes the
content it edits the one it aims at, as that is written. -/
theorem call_allSelected (hdiffer : Faithful differ) (hallowed : ∀ line ∈ allowed, Plain line)
    (hs : s.FromLines allowed) (inputs : List (Mode × List DiffLinePosition)) (mode : Mode)
    (hlines : lines ≠ []) {hunks : List HunkLines}
    (hpatch : getFileDiffPatch differ ((session differ).run s inputs) mode.isStaged =
      .ok hunks)
    (hselected : AllSelected lines hunks) {target : List String}
    (htarget : ∀ line ∈ target, Plain line)
    (haim : mode.aim ((session differ).run s inputs) = content (some target)) {t : FileState}
    (hcall : mode.call differ lines ((session differ).run s inputs) = .ok t) :
    t = mode.write ((session differ).run s inputs) (content (some (settled target))) := by
  have hrun := (session_run hdiffer hallowed hs inputs).1
  rcases (call_cases hdiffer hallowed mode hrun).2 t hcall with ⟨hnil, -⟩ | hwrites
  · exact absurd hnil hlines
  · obtain ⟨other, result, hother, rfl, -, hall⟩ := hwrites
    obtain rfl : hunks = other := Outcome.ok.inj (hpatch.symm.trans hother)
    rw [hall hselected target htarget haim]

end Runs

section Whole

/-- The lines of a content, which may be missing. -/
def textsOf (bytes : Option Bytes) : List String :=
  bytes.elim [] fun bytes => strLines ((fromUtf8 bytes).getD "")

/-- A differ that takes all lines out and puts all lines in. -/
def wholeDiffer : Differ := fun old new =>
  if old = new then .ok []
  else .ok [diffHunks [] 0 0 [⟨[], (textsOf old).map .del ++ (textsOf new).map .add⟩]]

theorem textsOf_content {lines : Option (List String)}
    (hlines : ∀ texts ∈ lines, ∀ line ∈ texts, Plain line) :
    textsOf (content lines) = lines.getD [] := by
  cases lines with
  | none => rfl
  | some texts => simp [textsOf, content, strLines_fileText (hlines texts rfl)]

theorem oldSide_whole (before after : List String) :
    oldSide [⟨[], before.map .del ++ after.map .add⟩] = before := by
  simp [oldSide, EditHunk.old, List.flatMap_map, Edit.old]

theorem newSide_whole (before after : List String) :
    newSide [⟨[], before.map .del ++ after.map .add⟩] = after := by
  simp [newSide, EditHunk.new, List.flatMap_map, Edit.new]

theorem faithful_wholeDiffer : Faithful wholeDiffer := by
  intro old new hold hnew
  rw [wholeDiffer]
  split_ifs with hsame
  · exact ⟨Outcome.returns_ok _, by simp⟩
  · refine ⟨Outcome.returns_ok _, fun patches hpatches hunks hhunks => ?_⟩
    obtain rfl := Outcome.ok.inj hpatches
    obtain rfl := List.mem_singleton.mp hhunks
    refine ⟨_, [], rfl, ⟨fun _ => rfl, fun _ => rfl, trivial⟩, ?_⟩
    rw [textsOf_content hold, textsOf_content hnew, oldSide_whole, newSide_whole]
    refine ⟨fun lines hlines => ?_, fun lines hlines => ?_, ?_, ?_⟩
    · simp [Option.mem_def.mp hlines]
    · simp [Option.mem_def.mp hlines]
    · rintro rfl
      rfl
    · rintro rfl
      rfl

/-- A file with a line that is not in the index yet. -/
def grown : FileState :=
  ⟨content (some ["a"]), content (some ["a"]), content (some ["a", "b"])⟩

theorem fromLines_grown : grown.FromLines {"a", "b"} := by
  refine ⟨⟨some ["a"], rfl, ?_⟩, ⟨some ["a"], rfl, ?_⟩, ⟨some ["a", "b"], rfl, ?_⟩⟩ <;> simp

theorem plain_ab : ∀ line ∈ ({"a", "b"} : Set String), Plain line := by
  simp [Plain]

theorem session_run_grown :
    ((session wholeDiffer).run grown
      [(.stage, [⟨none, some 2⟩]), (.discard, [⟨some 1, none⟩])]).FromLines {"a", "b"} ∧
      ∀ result ∈ (session wholeDiffer).trace grown
        [(.stage, [⟨none, some 2⟩]), (.discard, [⟨some 1, none⟩])], result.Returns :=
  have h := session_run faithful_wholeDiffer plain_ab fromLines_grown
    [(.stage, [⟨none, some 2⟩]), (.discard, [⟨some 1, none⟩])]
  ⟨h.1, h.2.2.2.2⟩

/-- Every line of the diff of the index and the working file. -/
def grownLines : List DiffLinePosition := [⟨some 1, none⟩, ⟨none, some 1⟩, ⟨none, some 2⟩]

theorem call_allSelected_grown :
    (⟨content (some ["a"]), content (some ["a", "b"]), content (some ["a", "b"])⟩ : FileState) =
      Mode.stage.write grown (content (some (settled ["a", "b"]))) :=
  @call_allSelected _ wholeDiffer grownLines grown faithful_wholeDiffer plain_ab
    fromLines_grown [] .stage nofun
    (diffHunks [] 0 0 [⟨[], [.del "a", .add "a", .add "b"]⟩]) (by decide +kernel)
    (by unfold AllSelected; decide) _ (by simp [Plain]) rfl _ (by decide +kernel)

end Whole

end Staging

end Gnostr
