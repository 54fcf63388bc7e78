/-
The proof of work of a history, of `asyncgit/src/lib/sync/pow.rs`: the leading zero bits
of the commits of a range and of the notes on them, entry by entry and in total.  The
total that is called the one of the notes has the commits in it.
-/
import Gnostr.Lib.Decimal
import Gnostr.Signer.Work
import Gnostr.Types.Url

namespace Gnostr

open Gnostr.Types

namespace Asyncgit

/-- The id of an object of a repository. -/
abbrev Oid := Vector UInt8 20

inductive GitError where
  | notFound (message : String)
  | other (message : String)
deriving Repr, DecidableEq

/-- A repository that is open, as the library shows it.  `Walk` is the library's own state
of a walk over the history. -/
structure Repository (Walk : Type) where
  revwalk : Outcome GitError Walk
  pushRange : List Char → Walk → Outcome GitError Walk
  revparseSingle : List Char → Outcome GitError Oid
  peelToCommit : Oid → Outcome GitError Oid
  parents : Oid → List Oid
  push : Oid → Walk → Outcome GitError Walk
  hide : Oid → Walk → Outcome GitError Walk
  setSortingTopological : Walk → Outcome GitError Walk
  iter : Walk → List (Outcome GitError Oid)
  findNote : Option String → Oid → Outcome GitError Oid

/-- Per-commit proof-of-work contribution. -/
structure AccumulatedPowEntry where
  commitId : Oid
  commitPow : UInt32
  noteId : Option Oid
  notePow : UInt32
  totalPow : UInt32
deriving Repr, DecidableEq

/-- Proof-of-work summary for a commit range. -/
structure AccumulatedPowSummary where
  entries : List AccumulatedPowEntry := []
  commitPow : UInt32 := 0
  notePow : UInt32 := 0
  totalPow : UInt32 := 0
deriving Repr, DecidableEq

section Code

/-- `split_once` at a text. -/
def splitOnceAt (pattern : List Char) : List Char → Option (List Char × List Char)
  | [] => none
  | c :: chars =>
      if pattern.isPrefixOf (c :: chars) then some ([], (c :: chars).drop pattern.length)
      else (splitOnceAt pattern chars).map fun parts => (c :: parts.1, parts.2)

/-- `a + b` on 32-bit integers; whether an overflow is a panic depends on the build. -/
def addUInt32 (overflowChecks : Bool) (a b : UInt32) : Outcome GitError UInt32 :=
  if overflowChecks = true ∧ 2 ^ 32 ≤ a.toNat + b.toNat then .panic else .ok (a + b)

/-- The count has no error of its own: it returns, or it panics. -/
def powBitsFromOid (overflowChecks : Bool) (oid : Oid) : Outcome GitError UInt32 :=
  UInt8.toUInt32 <$> Outcome.unwrap (getLeadingZeroBits overflowChecks oid.toList).toOption

variable {RepoPath Walk : Type}

/-- The id of the note on an object. -/
def showNote (repo : RepoPath → Outcome GitError (Repository Walk)) (repoPath : RepoPath)
    (objectId : Oid) (notesRef : Option String) : Outcome GitError (Option Oid) := do
  let repo ← repo repoPath
  match repo.findNote notesRef objectId with
  | .ok noteId => .ok (some noteId)
  | .err (.notFound _) => .ok none
  | .err error => .err error
  | .panic => .panic

def accumulatedPowEntry (repo : RepoPath → Outcome GitError (Repository Walk))
    (overflowChecks : Bool) (repoPath : RepoPath) (commitId : Oid)
    (notesRef : Option String) (includeCommit includeNotes : Bool) :
    Outcome GitError AccumulatedPowEntry := do
  let commitPow ←
    if includeCommit then powBitsFromOid overflowChecks commitId else pure 0
  let note ← if includeNotes then showNote repo repoPath commitId notesRef else pure none
  let notePow ←
    match note with
    | some noteId => powBitsFromOid overflowChecks noteId
    | none => pure 0
  let totalPow ← addUInt32 overflowChecks commitPow notePow
  return ⟨commitId, commitPow, note, notePow, totalPow⟩

/-- `left...right` is the range from `right` to `left`. -/
def normalizeRange (range : List Char) : List Char :=
  match splitOnceAt "...".toList range with
  | some (left, right) => trimChars right ++ "..".toList ++ trimChars left
  | none => range

/-- The walk over a range, or over one commit and none of its ancestors. -/
def rangeWalk (repo : Repository Walk) (range : List Char) : Outcome GitError Walk := do
  let revwalk ← repo.revwalk
  let range := normalizeRange range
  let revwalk ←
    if (splitOnceAt "..".toList range).isSome then repo.pushRange range revwalk
    else do
      let commit ← repo.revparseSingle range >>= repo.peelToCommit
      let revwalk ← repo.push commit revwalk
      (repo.parents commit).foldlM (fun revwalk parent => repo.hide parent revwalk) revwalk
  repo.setSortingTopological revwalk

/-- An entry is added to the three sums and to the entries. -/
def AccumulatedPowSummary.push (overflowChecks : Bool) (summary : AccumulatedPowSummary)
    (entry : AccumulatedPowEntry) : Outcome GitError AccumulatedPowSummary := do
  let commitPow ← addUInt32 overflowChecks summary.commitPow entry.commitPow
  let notePow ← addUInt32 overflowChecks summary.notePow entry.notePow
  let totalPow ← addUInt32 overflowChecks summary.totalPow entry.totalPow
  return ⟨summary.entries ++ [entry], commitPow, notePow, totalPow⟩

/-- Commits are counted whether notes are or not. -/
def accumulatedPowRange (repo : RepoPath → Outcome GitError (Repository Walk))
    (overflowChecks : Bool) (repoPath : RepoPath) (range : List Char)
    (notesRef : Option String) (includeNotes : Bool) :
    Outcome GitError AccumulatedPowSummary := do
  let opened ← repo repoPath
  let revwalk ← rangeWalk opened range
  (opened.iter revwalk).foldlM (fun summary oid => do
    let commitId ← oid
    let entry ← accumulatedPowEntry repo overflowChecks repoPath commitId notesRef true
      includeNotes
    summary.push overflowChecks entry) {}

/-- Sum commit and git-note proof-of-work over a revwalk range. -/
def accumulatedPow (repo : RepoPath → Outcome GitError (Repository Walk))
    (overflowChecks : Bool) (repoPath : RepoPath) (range : List Char)
    (notesRef : Option String) : Outcome GitError AccumulatedPowSummary :=
  accumulatedPowRange repo overflowChecks repoPath range notesRef true

/-- Sum commit proof-of-work over a revwalk range. -/
def accumulatedCommitPow (repo : RepoPath → Outcome GitError (Repository Walk))
    (overflowChecks : Bool) (repoPath : RepoPath) (range : List Char) :
    Outcome GitError AccumulatedPowSummary :=
  accumulatedPowRange repo overflowChecks repoPath range none false

/-- Sum git-note proof-of-work over a revwalk range. -/
def accumulatedNotePow (repo : RepoPath → Outcome GitError (Repository Walk))
    (overflowChecks : Bool) (repoPath : RepoPath) (range : List Char)
    (notesRef : Option String) : Outcome GitError AccumulatedPowSummary :=
  accumulatedPowRange repo overflowChecks repoPath range notesRef true

/-- Linear history depth from `HEAD`. -/
def accumulatedPowDepth (repo : RepoPath → Outcome GitError (Repository Walk))
    (overflowChecks : Bool) (repoPath : RepoPath) (depth : ℕ) (notesRef : Option String) :
    Outcome GitError AccumulatedPowSummary :=
  accumulatedPow repo overflowChecks repoPath ("HEAD...HEAD~".toList ++ decimal depth)
    notesRef

end Code

/-- A depth is the range of as many commits, from the oldest on. -/
theorem normalizeRange_depth (depth : ℕ) :
    normalizeRange ("HEAD...HEAD~".toList ++ decimal depth) =
      "HEAD~".toList ++ decimal depth ++ "..HEAD".toList := by
  have hsplit : splitOnceAt "...".toList ("HEAD...HEAD~".toList ++ decimal depth) =
      some ("HEAD".toList, "HEAD~".toList ++ decimal depth) := rfl
  have htrim : trimChars ("HEAD~".toList ++ decimal depth) =
      "HEAD~".toList ++ decimal depth := by
    apply trimChars_of_forall
    intro c hc
    rcases List.mem_append.mp hc with hc | hc
    · have hall : "HEAD~".toList.all (fun c => !isWhiteSpace c) = true := by decide
      simpa using List.all_eq_true.mp hall c hc
    · have hdigit := isDigit_of_mem_decimal hc
      simp only [Char.isDigit, Bool.and_eq_true, decide_eq_true_eq, ge_iff_le] at hdigit
      have hlow : 0x30 ≤ c.toNat := hdigit.1
      have hhigh : c.toNat ≤ 0x39 := hdigit.2
      exact isWhiteSpace_eq_false (by omega) (by omega)
  have hhead : "..".toList ++ trimChars "HEAD".toList = "..HEAD".toList := by decide
  rw [normalizeRange, hsplit]
  simp only [htrim, List.append_assoc, hhead]

example : normalizeRange "HEAD...HEAD~2".toList = "HEAD~2..HEAD".toList := by decide

section Bits

theorem leadingZeros_le (b : UInt8) : leadingZeros b ≤ 8 := by
  unfold leadingZeros
  split <;> omega

theorem leadingZeroBits_le (bytes : Bytes) : leadingZeroBits bytes ≤ 8 * bytes.length := by
  induction bytes with
  | nil => exact Nat.zero_le _
  | cons b bytes ih =>
      have hb := leadingZeros_le b
      rw [leadingZeroBits, List.length_cons]
      split <;> omega

/-- The leading zero bits of an id. -/
def powBits (oid : Oid) : ℕ := leadingZeroBits oid.toList

theorem powBits_le (oid : Oid) : powBits oid ≤ 160 := by
  have hle := leadingZeroBits_le oid.toList
  rwa [Vector.length_toList] at hle

/-- The bits of an id are few enough for the 8 bits they are counted in. -/
theorem powBitsFromOid_eq (overflowChecks : Bool) (oid : Oid) :
    powBitsFromOid overflowChecks oid = .ok (UInt32.ofNat (powBits oid)) := by
  have hle := powBits_le oid
  have hfits : ¬ (overflowChecks = true ∧
      2 ^ 8 ≤ (0 : UInt8).toNat + leadingZeroBits oid.toList) := by
    rw [UInt8.toNat_zero, ← powBits]
    omega
  rw [powBitsFromOid, getLeadingZeroBits, getLeadingZeroBitsFrom_eq, if_neg hfits,
    Outcome.toOption_ok, Outcome.unwrap_some, Outcome.map_ok, UInt8.toNat_zero,
    Nat.zero_add, ← powBits]
  congr 1
  apply UInt32.toNat_inj.mp
  rw [UInt8.toNat_toUInt32, UInt8.toNat_ofNat_of_lt' (hle.trans_lt (by decide)),
    UInt32.toNat_ofNat_of_lt' (hle.trans_lt (by decide))]

theorem addUInt32_eq_ok {a b : UInt32} (hfits : a.toNat + b.toNat < 2 ^ 32)
    (overflowChecks : Bool) : addUInt32 overflowChecks a b = .ok (a + b) :=
  if_neg fun hover => Nat.not_le.mpr hfits hover.2

theorem toNat_add_of_lt {a b : UInt32} (hfits : a.toNat + b.toNat < 2 ^ 32) :
    (a + b).toNat = a.toNat + b.toNat := by
  rw [UInt32.toNat_add, Nat.mod_eq_of_lt hfits]

end Bits

section Entries

/-- The bits of the note, if there is one. -/
def noteBits (note : Option Oid) : ℕ := note.elim 0 powBits

/-- What a commit and the note on it contribute. -/
def powEntry (commitId : Oid) (note : Option Oid) : AccumulatedPowEntry :=
  ⟨commitId, UInt32.ofNat (powBits commitId), note, UInt32.ofNat (noteBits note),
    UInt32.ofNat (powBits commitId) + UInt32.ofNat (noteBits note)⟩

theorem noteBits_le (note : Option Oid) : noteBits note ≤ 160 := by
  cases note with
  | none => exact Nat.zero_le _
  | some noteId => exact powBits_le noteId

@[simp] theorem toNat_commitPow (commitId : Oid) (note : Option Oid) :
    (powEntry commitId note).commitPow.toNat = powBits commitId :=
  UInt32.toNat_ofNat_of_lt' ((powBits_le commitId).trans_lt (by decide))

@[simp] theorem toNat_notePow (commitId : Oid) (note : Option Oid) :
    (powEntry commitId note).notePow.toNat = noteBits note :=
  UInt32.toNat_ofNat_of_lt' ((noteBits_le note).trans_lt (by decide))

@[simp] theorem toNat_totalPow (commitId : Oid) (note : Option Oid) :
    (powEntry commitId note).totalPow.toNat = powBits commitId + noteBits note := by
  have hcommit := toNat_commitPow commitId note
  have hnote := toNat_notePow commitId note
  have hle := powBits_le commitId
  have hle' := noteBits_le note
  change ((powEntry commitId note).commitPow + (powEntry commitId note).notePow).toNat = _
  rw [toNat_add_of_lt (by omega), hcommit, hnote]

variable {RepoPath Walk : Type} (repo : RepoPath → Outcome GitError (Repository Walk))
  (overflowChecks : Bool) (repoPath : RepoPath) (range : List Char)
  (notesRef : Option String)

/-- The note that an entry shows. -/
def noteOf (includeNotes : Bool) (commitId : Oid) : Outcome GitError (Option Oid) :=
  if includeNotes then showNote repo repoPath commitId notesRef else pure none

/-- The sum of an entry fits, whatever the ids. -/
theorem addUInt32_powEntry (commitId : Oid) (note : Option Oid) :
    addUInt32 overflowChecks (UInt32.ofNat (powBits commitId))
      (UInt32.ofNat (noteBits note)) = .ok (powEntry commitId note).totalPow := by
  have hcommit := toNat_commitPow commitId note
  have hnote := toNat_notePow commitId note
  have hle := powBits_le commitId
  have hle' := noteBits_le note
  apply addUInt32_eq_ok
  change (powEntry commitId note).commitPow.toNat +
    (powEntry commitId note).notePow.toNat < 2 ^ 32
  omega

theorem accumulatedPowEntry_eq (commitId : Oid) (includeNotes : Bool) :
    accumulatedPowEntry repo overflowChecks repoPath commitId notesRef true includeNotes =
      powEntry commitId <$> noteOf repo repoPath notesRef includeNotes commitId := by
  have hnone : addUInt32 overflowChecks (UInt32.ofNat (powBits commitId)) 0 =
      .ok (powEntry commitId none).totalPow :=
    addUInt32_powEntry overflowChecks commitId none
  cases includeNotes with
  | false => simp [accumulatedPowEntry, noteOf, powBitsFromOid_eq, hnone]; rfl
  | true =>
      rw [← bind_pure_comp]
      simp only [accumulatedPowEntry, noteOf, powBitsFromOid_eq, if_true, Outcome.ok_bind]
      congr 1
      funext note
      cases note with
      | none => simp [hnone]; rfl
      | some noteId =>
          have hsome := addUInt32_powEntry overflowChecks commitId (some noteId)
          simp only [noteBits, Option.elim_some] at hsome
          simp [hsome]
          rfl

end Entries

section Sums

/-- Each field of a summary is the sum of that field over its entries. -/
structure Summed (summary : AccumulatedPowSummary) : Prop where
  commitPow : summary.commitPow.toNat =
    (summary.entries.map fun entry => entry.commitPow.toNat).sum
  notePow : summary.notePow.toNat =
    (summary.entries.map fun entry => entry.notePow.toNat).sum
  totalPow : summary.totalPow.toNat =
    (summary.entries.map fun entry => entry.totalPow.toNat).sum

/-- The total of an entry is that of its commit and its note. -/
def AccumulatedPowEntry.Balanced (entry : AccumulatedPowEntry) : Prop :=
  entry.commitPow.toNat + entry.notePow.toNat = entry.totalPow.toNat

/-- The totals of the entries, added up. -/
def totalOf (entries : List AccumulatedPowEntry) : ℕ :=
  (entries.map fun entry => entry.totalPow.toNat).sum

variable {overflowChecks : Bool} {summary result : AccumulatedPowSummary}
  {entry : AccumulatedPowEntry} {entries : List AccumulatedPowEntry}

theorem balanced_powEntry (commitId : Oid) (note : Option Oid) :
    (powEntry commitId note).Balanced := by simp [AccumulatedPowEntry.Balanced]

theorem summed_empty : Summed {} := ⟨rfl, rfl, rfl⟩

theorem totalOf_append (first last : List AccumulatedPowEntry) :
    totalOf (first ++ last) = totalOf first + totalOf last := by simp [totalOf]

theorem sum_commitPow_add_sum_notePow (hbalanced : ∀ entry ∈ entries, entry.Balanced) :
    (entries.map fun entry => entry.commitPow.toNat).sum +
      (entries.map fun entry => entry.notePow.toNat).sum = totalOf entries := by
  induction entries with
  | nil => rfl
  | cons entry entries ih =>
      rw [List.forall_mem_cons] at hbalanced
      have hrest := ih hbalanced.2
      have hentry := hbalanced.1
      unfold totalOf AccumulatedPowEntry.Balanced at *
      simp only [List.map_cons, List.sum_cons]
      omega

/-- One more entry, when the total still fits, keeps the three sums. -/
theorem push_of_lt (hsummed : Summed summary)
    (hbalanced : ∀ other ∈ summary.entries ++ [entry], other.Balanced)
    (hfits : totalOf (summary.entries ++ [entry]) < 2 ^ 32) :
    ∃ result, summary.push overflowChecks entry = .ok result ∧
      result.entries = summary.entries ++ [entry] ∧ Summed result := by
  have hsum := sum_commitPow_add_sum_notePow hbalanced
  have htotal : totalOf (summary.entries ++ [entry]) =
      summary.totalPow.toNat + entry.totalPow.toNat := by
    rw [totalOf_append, hsummed.totalPow]
    simp [totalOf]
  simp only [List.map_append, List.map_cons, List.map_nil, List.sum_append, List.sum_cons,
    List.sum_nil, Nat.add_zero, ← hsummed.commitPow, ← hsummed.notePow] at hsum
  have hcommit : summary.commitPow.toNat + entry.commitPow.toNat < 2 ^ 32 := by omega
  have hnote : summary.notePow.toNat + entry.notePow.toNat < 2 ^ 32 := by omega
  have htotal' : summary.totalPow.toNat + entry.totalPow.toNat < 2 ^ 32 := by omega
  refine ⟨⟨summary.entries ++ [entry], summary.commitPow + entry.commitPow,
    summary.notePow + entry.notePow, summary.totalPow + entry.totalPow⟩, ?_, rfl, ?_⟩
  · rw [AccumulatedPowSummary.push, addUInt32_eq_ok hcommit, Outcome.ok_bind,
      addUInt32_eq_ok hnote, Outcome.ok_bind, addUInt32_eq_ok htotal', Outcome.ok_bind,
      Outcome.pure_eq]
  · constructor
    · simp [toNat_add_of_lt hcommit, hsummed.commitPow]
    · simp [toNat_add_of_lt hnote, hsummed.notePow]
    · simp [toNat_add_of_lt htotal', hsummed.totalPow]

/-- A whole list of entries, when its total fits, is summed up. -/
theorem foldlM_push_of_lt (hsummed : Summed summary)
    (hbalanced : ∀ entry ∈ summary.entries ++ entries, entry.Balanced)
    (hfits : totalOf (summary.entries ++ entries) < 2 ^ 32) :
    ∃ result, entries.foldlM (fun summary => summary.push overflowChecks) summary =
        .ok result ∧
      result.entries = summary.entries ++ entries ∧ Summed result := by
  induction entries generalizing summary with
  | nil => exact ⟨summary, rfl, (List.append_nil _).symm, hsummed⟩
  | cons entry entries ih =>
      rw [List.append_cons] at hbalanced hfits
      obtain ⟨next, hnext, hentries, hsummed'⟩ := push_of_lt hsummed
        (fun other hother => hbalanced other (List.mem_append_left _ hother))
        ((Nat.le_add_right _ _).trans_lt (totalOf_append _ entries ▸ hfits))
      rw [← hentries] at hbalanced hfits
      obtain ⟨result, hresult, hentries', hsummed''⟩ := ih hsummed' hbalanced hfits
      refine ⟨result, ?_, ?_, hsummed''⟩
      · rw [List.foldlM_cons, hnext, Outcome.ok_bind, hresult]
      · rw [hentries', hentries, ← List.append_cons]

theorem entries_of_push (hpush : summary.push overflowChecks entry = .ok result) :
    result.entries = summary.entries ++ [entry] := by
  simp only [AccumulatedPowSummary.push, Outcome.bind_eq_ok_iff, Outcome.pure_eq,
    Outcome.ok.injEq] at hpush
  obtain ⟨_, _, _, _, _, _, rfl⟩ := hpush
  rfl

/-- What is returned has all of the entries, whether the sums fit or not. -/
theorem entries_of_foldlM_push
    (hfold : entries.foldlM (fun summary => summary.push overflowChecks) summary =
      .ok result) :
    result.entries = summary.entries ++ entries := by
  induction entries generalizing summary with
  | nil =>
      rw [List.foldlM_nil, Outcome.pure_eq, Outcome.ok.injEq] at hfold
      rw [← hfold, List.append_nil]
  | cons entry entries ih =>
      rw [List.foldlM_cons, Outcome.bind_eq_ok_iff] at hfold
      obtain ⟨next, hnext, hfold⟩ := hfold
      rw [ih hfold, entries_of_push hnext, ← List.append_cons]

end Sums

section Ranges

variable {RepoPath Walk : Type} (repo : RepoPath → Outcome GitError (Repository Walk))
  (overflowChecks : Bool) (repoPath : RepoPath) (range : List Char)
  (notesRef : Option String)

/-- The commits of a range, in the order of the walk. -/
def rangeCommits : Outcome GitError (List Oid) := do
  let opened ← repo repoPath
  let revwalk ← rangeWalk opened range
  (opened.iter revwalk).mapM id

/-- The loop over the ids that the walk yields. -/
def powStep (includeNotes : Bool) (summary : AccumulatedPowSummary)
    (oid : Outcome GitError Oid) : Outcome GitError AccumulatedPowSummary := do
  let commitId ← oid
  let entry ← powEntry commitId <$> noteOf repo repoPath notesRef includeNotes commitId
  summary.push overflowChecks entry

theorem accumulatedPowRange_eq (includeNotes : Bool) :
    accumulatedPowRange repo overflowChecks repoPath range notesRef includeNotes =
      repo repoPath >>= fun opened => rangeWalk opened range >>= fun revwalk =>
        (opened.iter revwalk).foldlM
          (powStep repo overflowChecks repoPath notesRef includeNotes) {} := by
  simp only [accumulatedPowRange, accumulatedPowEntry_eq]
  rfl

variable {repo overflowChecks repoPath range notesRef} {includeNotes : Bool}

/-- The loop adds the entries of the commits and of their notes. -/
theorem foldlM_powStep {oids : List (Outcome GitError Oid)} {commits : List Oid}
    {notes : List (Option Oid)} (hoids : oids.mapM id = .ok commits)
    (hnotes : commits.mapM (noteOf repo repoPath notesRef includeNotes) = .ok notes)
    (summary : AccumulatedPowSummary) :
    oids.foldlM (powStep repo overflowChecks repoPath notesRef includeNotes) summary =
      (commits.zipWith powEntry notes).foldlM
        (fun summary => summary.push overflowChecks) summary := by
  rw [Outcome.mapM_eq_ok_iff] at hoids hnotes
  induction hoids generalizing notes summary with
  | nil => rfl
  | @cons oid commitId oids commits hoid hoids ih =>
      obtain ⟨note, rest, hnote, hrest, rfl⟩ := List.forall₂_cons_left_iff.mp hnotes
      rw [List.foldlM_cons, List.zipWith_cons_cons, List.foldlM_cons]
      have hstep : powStep repo overflowChecks repoPath notesRef includeNotes summary oid =
          summary.push overflowChecks (powEntry commitId note) := by
        rw [powStep, show oid = .ok commitId from hoid, Outcome.ok_bind, hnote,
          Outcome.map_ok, Outcome.ok_bind]
      rw [hstep]
      congr 1
      funext next
      exact ih hrest next

/-- A summary is one of commits and notes that were all read. -/
theorem exists_of_foldlM_powStep {oids : List (Outcome GitError Oid)}
    {summary result : AccumulatedPowSummary}
    (hfold : oids.foldlM (powStep repo overflowChecks repoPath notesRef includeNotes)
      summary = .ok result) :
    ∃ commits notes, oids.mapM id = .ok commits ∧
      commits.mapM (noteOf repo repoPath notesRef includeNotes) = .ok notes := by
  induction oids generalizing summary with
  | nil => exact ⟨[], [], rfl, rfl⟩
  | cons oid oids ih =>
      rw [List.foldlM_cons, Outcome.bind_eq_ok_iff] at hfold
      obtain ⟨next, hnext, hfold⟩ := hfold
      obtain ⟨commits, notes, hcommits, hnotes⟩ := ih hfold
      rw [powStep, Outcome.bind_eq_ok_iff] at hnext
      obtain ⟨commitId, hoid, hnext⟩ := hnext
      obtain ⟨entry, hentry, _⟩ := Outcome.bind_eq_ok_iff.mp hnext
      obtain ⟨note, hnote, _⟩ := Outcome.map_eq_ok_iff.mp hentry
      refine ⟨commitId :: commits, note :: notes, ?_, ?_⟩
      · rw [List.mapM_cons, id, hoid, Outcome.ok_bind, hcommits]
        rfl
      · rw [List.mapM_cons, hnote, Outcome.ok_bind, hnotes]
        rfl

/-- A range is summed up by the entries of its commits. -/
theorem accumulatedPowRange_of_rangeCommits {commits : List Oid}
    {notes : List (Option Oid)} (hcommits : rangeCommits repo repoPath range = .ok commits)
    (hnotes : commits.mapM (noteOf repo repoPath notesRef includeNotes) = .ok notes) :
    accumulatedPowRange repo overflowChecks repoPath range notesRef includeNotes =
      (commits.zipWith powEntry notes).foldlM
        (fun summary => summary.push overflowChecks) {} := by
  simp only [rangeCommits, Outcome.bind_eq_ok_iff] at hcommits
  obtain ⟨opened, hopened, revwalk, hrevwalk, hoids⟩ := hcommits
  rw [accumulatedPowRange_eq, hopened, Outcome.ok_bind, hrevwalk, Outcome.ok_bind,
    foldlM_powStep hoids hnotes]

/-- No summary is returned for a range that cannot be read. -/
theorem exists_rangeCommits_of_eq_ok {summary : AccumulatedPowSummary}
    (hok : accumulatedPowRange repo overflowChecks repoPath range notesRef includeNotes =
      .ok summary) :
    ∃ commits notes, rangeCommits repo repoPath range = .ok commits ∧
      commits.mapM (noteOf repo repoPath notesRef includeNotes) = .ok notes := by
  simp only [accumulatedPowRange_eq, Outcome.bind_eq_ok_iff] at hok
  obtain ⟨opened, hopened, revwalk, hrevwalk, hfold⟩ := hok
  obtain ⟨commits, notes, hcommits, hnotes⟩ := exists_of_foldlM_powStep hfold
  refine ⟨commits, notes, ?_, hnotes⟩
  rw [rangeCommits, hopened, Outcome.ok_bind, hrevwalk, Outcome.ok_bind, hcommits]

theorem mapM_noteOf_false (commits : List Oid) :
    commits.mapM (noteOf repo repoPath notesRef false) =
      .ok (List.replicate commits.length none) := by
  rw [Outcome.mapM_eq_ok_iff]
  induction commits with
  | nil => exact List.Forall₂.nil
  | cons commitId commits ih => exact List.Forall₂.cons rfl ih

end Ranges

section Accounting

variable {RepoPath Walk : Type} (repo : RepoPath → Outcome GitError (Repository Walk))
  (overflowChecks : Bool) (repoPath : RepoPath) (range : List Char)
  (notesRef : Option String)

/-- One entry for each commit, and each field the sum of that field. -/
def AccountsFor (commits : List Oid) (summary : AccumulatedPowSummary) : Prop :=
  summary.entries.map AccumulatedPowEntry.commitId = commits ∧ Summed summary

/-- A range that can be read is accounted for by its commits, and when the notes on them
can be read too, by both and by the notes, the total of both being the other two added. -/
def Accounted : Prop :=
  ∀ commits, rangeCommits repo repoPath range = .ok commits →
    (∃ commitOnly,
      accumulatedCommitPow repo overflowChecks repoPath range = .ok commitOnly ∧
        AccountsFor commits commitOnly) ∧
    ∀ notes, commits.mapM (fun commitId => showNote repo repoPath commitId notesRef) =
        .ok notes →
      ∃ summary commitOnly noteOnly,
        accumulatedPow repo overflowChecks repoPath range notesRef = .ok summary ∧
        accumulatedCommitPow repo overflowChecks repoPath range = .ok commitOnly ∧
        accumulatedNotePow repo overflowChecks repoPath range notesRef = .ok noteOnly ∧
        AccountsFor commits summary ∧ AccountsFor commits noteOnly ∧
        summary.totalPow.toNat = commitOnly.totalPow.toNat + noteOnly.totalPow.toNat

/-- The bits of the commits fit in 32 bits; and when the notes on them can be read, no
commit has any, and the bits of the notes fit. -/
def OnlyNotesWork : Prop :=
  ∀ commits, rangeCommits repo repoPath range = .ok commits →
    (commits.map powBits).sum < 2 ^ 32 ∧
    ∀ notes, commits.mapM (fun commitId => showNote repo repoPath commitId notesRef) =
        .ok notes →
      (∀ commitId ∈ commits, powBits commitId = 0) ∧ (notes.map noteBits).sum < 2 ^ 32

theorem totalOf_zipWith {commits : List Oid} {notes : List (Option Oid)}
    (hlength : commits.length = notes.length) :
    totalOf (commits.zipWith powEntry notes) =
      (commits.map powBits).sum + (notes.map noteBits).sum := by
  induction commits generalizing notes with
  | nil =>
      rw [List.eq_nil_of_length_eq_zero hlength.symm]
      rfl
  | cons commitId commits ih =>
      cases notes with
      | nil => cases hlength
      | cons note notes =>
          have hrest := ih (Nat.succ.inj hlength)
          simp only [totalOf, List.zipWith_cons_cons, List.map_cons, List.sum_cons,
            toNat_totalPow] at hrest ⊢
          omega

theorem map_commitId_zipWith {commits : List Oid} {notes : List (Option Oid)}
    (hlength : commits.length = notes.length) :
    (commits.zipWith powEntry notes).map AccumulatedPowEntry.commitId = commits := by
  rw [← List.map_uncurry_zip_eq_zipWith, List.map_map]
  exact List.map_fst_zip hlength.le

variable {repo overflowChecks repoPath range notesRef} {includeNotes : Bool}
  {commits : List Oid} {notes : List (Option Oid)}

/-- When the bits fit, the summary is returned, and accounts for the commits. -/
theorem exists_accountsFor (hcommits : rangeCommits repo repoPath range = .ok commits)
    (hnotes : commits.mapM (noteOf repo repoPath notesRef includeNotes) = .ok notes)
    (hfits : (commits.map powBits).sum + (notes.map noteBits).sum < 2 ^ 32) :
    ∃ summary,
      accumulatedPowRange repo overflowChecks repoPath range notesRef includeNotes =
        .ok summary ∧ AccountsFor commits summary := by
  have hlength := (Outcome.mapM_eq_ok_iff.mp hnotes).length_eq
  have hbalanced : ∀ entry ∈ ({} : AccumulatedPowSummary).entries ++
      commits.zipWith powEntry notes, entry.Balanced := by
    intro entry hentry
    obtain ⟨⟨commitId, note⟩, -, rfl⟩ :=
      List.mem_map.mp (List.map_uncurry_zip_eq_zipWith ▸ hentry)
    exact balanced_powEntry commitId note
  obtain ⟨summary, hsummary, hentries, hsummed⟩ :=
    @foldlM_push_of_lt overflowChecks _ _ summed_empty hbalanced
      ((totalOf_zipWith hlength).trans_lt hfits)
  refine ⟨summary, ?_, ?_, hsummed⟩
  · rw [accumulatedPowRange_of_rangeCommits hcommits hnotes, hsummary]
  · rw [hentries]
    exact map_commitId_zipWith hlength

/-- The total of a summary that accounts for its entries. -/
theorem toNat_totalPow_of_summed {summary : AccumulatedPowSummary}
    (hcommits : rangeCommits repo repoPath range = .ok commits)
    (hnotes : commits.mapM (noteOf repo repoPath notesRef includeNotes) = .ok notes)
    (hok : accumulatedPowRange repo overflowChecks repoPath range notesRef includeNotes =
      .ok summary) (hsummed : Summed summary) :
    summary.totalPow.toNat = (commits.map powBits).sum + (notes.map noteBits).sum := by
  rw [accumulatedPowRange_of_rangeCommits hcommits hnotes] at hok
  have hentries : summary.entries = commits.zipWith powEntry notes :=
    entries_of_foldlM_push hok
  rw [hsummed.totalPow, hentries]
  exact totalOf_zipWith (Outcome.mapM_eq_ok_iff.mp hnotes).length_eq

/-- Without notes, the total is that of the commits. -/
theorem toNat_totalPow_commitOnly {summary : AccumulatedPowSummary}
    (hcommits : rangeCommits repo repoPath range = .ok commits)
    (hok : accumulatedCommitPow repo overflowChecks repoPath range = .ok summary)
    (hsummed : Summed summary) :
    summary.totalPow.toNat = (commits.map powBits).sum := by
  rw [toNat_totalPow_of_summed hcommits (mapM_noteOf_false commits) hok hsummed,
    List.map_replicate, List.sum_replicate_nat, noteBits, Option.elim_none, Nat.mul_zero,
    Nat.add_zero]

theorem sum_powBits_eq_zero_iff :
    (commits.map powBits).sum = 0 ↔ ∀ commitId ∈ commits, powBits commitId = 0 := by
  simp [List.sum_eq_zero_iff_forall_eq_nat]

/-- The two totals add up to the total of both exactly where no commit has work of its
own, since what is called the total of the notes counts the commits again. -/
theorem accounted_iff_onlyNotesWork (repo : RepoPath → Outcome GitError (Repository Walk))
    (overflowChecks : Bool) (repoPath : RepoPath) (range : List Char)
    (notesRef : Option String) :
    Accounted repo overflowChecks repoPath range notesRef ↔
      OnlyNotesWork repo repoPath range notesRef := by
  constructor
  · intro haccounted commits hcommits
    obtain ⟨⟨commitOnly, hcommitOnly, -, hsummed⟩, hnotes⟩ := haccounted commits hcommits
    have htotal := toNat_totalPow_commitOnly hcommits hcommitOnly hsummed
    refine ⟨htotal ▸ commitOnly.totalPow.toNat_lt, fun notes hnotes' => ?_⟩
    obtain ⟨summary, commitOnly', noteOnly, hsummary, hcommitOnly', hnoteOnly, haccounts, -,
      hadd⟩ := hnotes notes hnotes'
    -- the same call gives the total of both and that of the notes
    have hsame : summary = noteOnly := Outcome.ok.inj (hsummary.symm.trans hnoteOnly)
    have hsame' : commitOnly = commitOnly' :=
      Outcome.ok.inj (hcommitOnly.symm.trans hcommitOnly')
    have hzero : (commits.map powBits).sum = 0 := by
      rw [← htotal, hsame']
      rw [hsame] at hadd
      omega
    have hread : commits.mapM (noteOf repo repoPath notesRef true) = .ok notes := hnotes'
    have hboth := toNat_totalPow_of_summed hcommits hread hsummary haccounts.2
    rw [hzero, Nat.zero_add] at hboth
    exact ⟨sum_powBits_eq_zero_iff.mp hzero, hboth ▸ summary.totalPow.toNat_lt⟩
  · intro honly commits hcommits
    obtain ⟨hfits, hnotes⟩ := honly commits hcommits
    obtain ⟨commitOnly, hcommitOnly, haccounts⟩ :=
      @exists_accountsFor _ _ repo overflowChecks repoPath range none false commits _
        hcommits (mapM_noteOf_false commits)
        (by simpa [List.map_replicate, noteBits] using hfits)
    refine ⟨⟨commitOnly, hcommitOnly, haccounts⟩, fun notes hnotes' => ?_⟩
    obtain ⟨hzero, hfits'⟩ := hnotes notes hnotes'
    rw [← sum_powBits_eq_zero_iff] at hzero
    obtain ⟨summary, hsummary, haccounts'⟩ :=
      @exists_accountsFor _ _ repo overflowChecks repoPath range notesRef true commits notes
        hcommits hnotes' (by rwa [hzero, Nat.zero_add])
    refine ⟨summary, commitOnly, summary, hsummary, hcommitOnly, hsummary, haccounts',
      haccounts', ?_⟩
    rw [toNat_totalPow_commitOnly hcommits hcommitOnly haccounts.2, hzero, Nat.zero_add]

end Accounting

section OneCommit

/-- An id that begins with four zero bits. -/
def workedId : Oid :=
  ⟨#[0x0f, 0, 0, 0, 0, 0, 0, 0, 0, 0, 0, 0, 0, 0, 0, 0, 0, 0, 0, 1], rfl⟩

/-- A repository of one commit without notes. -/
def oneCommit : Repository (List Oid) where
  revwalk := .ok []
  pushRange _ _ := .err (.other "ambiguous")
  revparseSingle _ := .ok workedId
  peelToCommit commitId := .ok commitId
  parents _ := []
  push commitId revwalk := .ok (commitId :: revwalk)
  hide commitId revwalk := .ok (revwalk.filter (· ≠ commitId))
  setSortingTopological revwalk := .ok revwalk
  iter revwalk := revwalk.map .ok
  findNote _ _ := .err (.notFound "no note")

theorem not_accounted_oneCommit :
    ¬ Accounted (fun _ : Unit => .ok oneCommit) true () "HEAD".toList none := by
  intro haccounted
  obtain ⟨summary, commitOnly, noteOnly, hsummary, hcommitOnly, hnoteOnly, -, -, hadd⟩ :=
    (haccounted [workedId] (by decide)).2 [none] (by decide)
  have hfour : accumulatedPow (fun _ : Unit => .ok oneCommit) true () "HEAD".toList none =
      .ok ⟨[⟨workedId, 4, none, 0, 4⟩], 4, 0, 4⟩ := by decide
  have hfour' : accumulatedCommitPow (fun _ : Unit => .ok oneCommit) true () "HEAD".toList =
      .ok ⟨[⟨workedId, 4, none, 0, 4⟩], 4, 0, 4⟩ := by decide
  rw [← Outcome.ok.inj (hfour.symm.trans hsummary),
    ← Outcome.ok.inj (hfour'.symm.trans hcommitOnly),
    ← Outcome.ok.inj (hfour.symm.trans hnoteOnly)] at hadd
  exact absurd hadd (by decide)

end OneCommit

end Asyncgit

end Gnostr
