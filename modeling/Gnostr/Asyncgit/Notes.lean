/-
The notes of `asyncgit/src/lib/sync/notes.rs`: a note is amended by deleting it and writing
a longer one, and mined by writing candidates under a ref of its own until the id of one
is good enough.  Any operation of the library can fail.
-/
import Gnostr.Asyncgit.Pow
import Gnostr.Lib.Session
import Gnostr.Lib.Hex
import Gnostr.Lib.Sha1

namespace Gnostr

open Gnostr.Types

namespace Asyncgit

/-- The bytes of the note on an object, under each ref. -/
abbrev NoteStore := String → Oid → Option Bytes

/-- What the library makes of a note, and which of its operations fail. -/
structure Git where
  blobId : Bytes → Oid
  noteDefaultRef : String
  fault : ℕ → Option String

/-- The notes of a repository, and how many operations there have been. -/
structure NoteState where
  notes : NoteStore
  operations : ℕ

abbrev NoteCall (α : Type) := Session NoteState GitError α

section Library

variable {α : Type} (git : Git)

/-- An operation that fails leaves the notes as they are. -/
def operation (run : NoteStore → Outcome GitError α × NoteStore) : NoteCall α := fun s =>
  match git.fault s.operations with
  | some message => (.err (.other message), ⟨s.notes, s.operations + 1⟩)
  | none => ((run s.notes).1, ⟨(run s.notes).2, s.operations + 1⟩)

/-- The ref that is named, or the one of the repository. -/
def Git.refName (notesRef : Option String) : String := notesRef.getD git.noteDefaultRef

/-- `repo`, and `signature_allow_undefined_name`: they touch no note. -/
def readOnly : NoteCall Unit := operation git fun notes => (.ok (), notes)

def findNote (notesRef : Option String) (objectId : Oid) : NoteCall Bytes :=
  operation git fun notes =>
    (Outcome.okOr (.notFound "no note found for object")
      (notes (git.refName notesRef) objectId), notes)

/-- The store with another note on an object. -/
def NoteStore.set (notes : NoteStore) (ref : String) (objectId : Oid)
    (note : Option Bytes) : NoteStore :=
  Function.update notes ref (Function.update (notes ref) objectId note)

/-- `note` of the library: the text is passed as a C string. -/
def createNote (notesRef : Option String) (objectId : Oid) (note : String) (force : Bool) :
    NoteCall Oid :=
  operation git fun notes =>
    let ref := git.refName notesRef
    if 0 ∈ utf8 note then (.err (.other "data contained a nul byte"), notes)
    else if (notes ref objectId).isSome = true ∧ force = false then
      (.err (.other "note already exists"), notes)
    else (.ok (git.blobId (utf8 note)), notes.set ref objectId (some (utf8 note)))

def noteDelete (objectId : Oid) (notesRef : Option String) : NoteCall Unit :=
  operation git fun notes =>
    let ref := git.refName notesRef
    if (notes ref objectId).isSome = true then (.ok (), notes.set ref objectId none)
    else (.err (.notFound "no note found for object"), notes)

/-- `message`: the bytes up to the first zero, if they are UTF-8. -/
def noteMessage (note : Bytes) : Option String := fromUtf8 (note.takeWhile (· != 0))

end Library

section Source

def defaultMineNotePrefix : String := "000"

/-- `to_string` of an id. -/
def Oid.text (oid : Oid) : String := Hex.reference.encode oid.toList

def noteIdLeadingZeroBits (overflowChecks : Bool) (noteId : Oid) :
    Outcome GitError UInt8 := do
  let bytes ← Outcome.unwrap (Hex.reference.decode (Oid.text noteId))
  Outcome.unwrap (getLeadingZeroBits overflowChecks bytes).toOption

/-- `{nonce:08x}`. -/
def nonceHex (nonce : UInt64) : String :=
  String.ofList ((Nat.toDigits 16 nonce.toNat).leftpad 8 '0')

def appendNonce (message : String) (nonce : UInt64) (idPrefix : String) : String :=
  if message = "" then idPrefix ++ "-" ++ nonceHex nonce
  else message ++ "\n\n" ++ idPrefix ++ "-" ++ nonceHex nonce

/-- `trim_end`. -/
def trimEnd (text : String) : String := String.ofList (text.toList.rdropWhile isWhiteSpace)

def combineNoteMessages (existing : Option String) (note : String) : String :=
  match existing.map trimEnd with
  | some existing =>
      if existing = "" then note
      else if note = "" then existing
      else existing ++ "\n" ++ note
  | none => note

/-- The text that `amend_note` writes; what cannot be read counts as empty. -/
def amendedMessage (existing : Option Bytes) (note : String) : String :=
  match existing with
  | some existingNote =>
      let existingMessage := (noteMessage existingNote).getD ""
      if existingMessage = "" then note
      else if note = "" then existingMessage
      else existingMessage ++ "\n" ++ note
  | none => note

/-- Append a plain-text public attestation entry to a note log. -/
def appendPublicAttestationLog (existing : Option String) (timestamp : Int64)
    (eventId commitId : String) (powBits : UInt8) : String :=
  let entry := "attestation timestamp=" ++ toString timestamp ++ " event_id=" ++ eventId ++
    " commit_id=" ++ commitId ++ " pow=" ++ toString powBits
  match existing.map trimEnd with
  | some existing => if existing = "" then entry else existing ++ "\n" ++ entry
  | none => entry

variable (git : Git)

/-- How `amend_note` and `mine_note` begin: the repository, the signature and the note that
is there. -/
def existingNote (objectId : Oid) (notesRef : Option String) : NoteCall (Option Bytes) := do
  readOnly git
  readOnly git
  match ← Session.attempt (findNote git notesRef objectId) with
  | .ok note => return some note
  | .error (.notFound _) => return none
  | .error error => Session.fail error

/-- Amends the note for an object by appending new content and re-adding it. -/
def amendNote (objectId : Oid) (note : String) (notesRef : Option String) :
    NoteCall Oid := do
  let existing ← existingNote git objectId notesRef
  let combinedNote := amendedMessage existing note
  if existing.isSome then noteDelete git objectId notesRef
  createNote git notesRef objectId combinedNote false

def acceptsNoteId (overflowChecks : Bool) (powTargetBits : UInt8) (idPrefix : String)
    (noteId : Oid) : Outcome GitError Bool :=
  if idPrefix.toList.isPrefixOf (Oid.text noteId).toList then
    (fun bits => decide (powTargetBits ≤ bits)) <$>
      noteIdLeadingZeroBits overflowChecks noteId
  else pure false

/-- The loop over the nonces, as far as the fuel goes. -/
def mineCandidates (overflowChecks : Bool) (objectId : Oid)
    (tempNotesRef baseMessage : String) (powTargetBits : UInt8) (idPrefix : String) :
    ℕ → UInt64 → NoteCall (Option (Oid × UInt64))
  | 0, _ => pure none
  | fuel + 1, nonce => do
      let noteId ← createNote git (some tempNotesRef) objectId
        (appendNonce baseMessage nonce idPrefix) true
      let accepted ← Session.lift
        (acceptsNoteId overflowChecks powTargetBits idPrefix noteId)
      if accepted then return some (noteId, nonce)
      else
        mineCandidates overflowChecks objectId tempNotesRef baseMessage powTargetBits
          idPrefix fuel (nonce + 1)

def mineTempRef (objectId : Oid) (uuid : String) : String :=
  "refs/notes/gnostr-mine/" ++ Oid.text objectId ++ "-" ++ uuid

/-- What `mine_note` does with the candidate it has found: the note is replaced, and the
candidate deleted whether that succeeds or not. -/
def replaceNote (objectId : Oid) (notesRef : Option String)
    (tempNotesRef finalMessage : String) (force : Bool) (candidateNoteId : Oid) :
    NoteCall (Option Oid) := do
  match ← Session.attempt (createNote git notesRef objectId finalMessage force) with
  | .error error =>
      let _ ← @Session.attempt _ GitError _ GitError
        (noteDelete git objectId (some tempNotesRef))
      Session.fail error
  | .ok finalNoteId =>
      let _ ← @Session.attempt _ GitError _ GitError
        (noteDelete git objectId (some tempNotesRef))
      return some (if finalNoteId = candidateNoteId then finalNoteId else candidateNoteId)

/-- Mine a note by appending a nonce until the requested PoW target is met; there is no id
when the fuel runs out before. -/
def mineNote (overflowChecks : Bool) (fuel : ℕ) (uuid : String) (objectId : Oid)
    (note : String) (notesRef : Option String) (powTargetBits : UInt8)
    (idPrefix : Option String) : NoteCall (Option Oid) := do
  let idPrefix := idPrefix.getD defaultMineNotePrefix
  let existing ← existingNote git objectId notesRef
  let baseMessage := combineNoteMessages (existing.bind noteMessage) note
  let tempNotesRef := mineTempRef objectId uuid
  match ← mineCandidates git overflowChecks objectId tempNotesRef baseMessage powTargetBits
      idPrefix fuel 0 with
  | none => return none
  | some (candidateNoteId, nonce) =>
      replaceNote git objectId notesRef tempNotesRef
        (appendNonce baseMessage nonce idPrefix) existing.isSome candidateNoteId

/-- A call that edits the note on an object. -/
inductive NoteEdit
  | amend (note : String)
  | mine (note : String) (powTargetBits : UInt8) (idPrefix : Option String)

/-- The call, with fuel for its loop. -/
def NoteEdit.run (overflowChecks : Bool) (fuel : ℕ) (uuid : String) (objectId : Oid)
    (notesRef : Option String) : NoteEdit → NoteCall (Option Oid)
  | amend note => do
      let noteId ← amendNote git objectId note notesRef
      return some noteId
  | mine note powTargetBits idPrefix =>
      mineNote git overflowChecks fuel uuid objectId note notesRef powTargetBits idPrefix

end Source

section Operations

variable {git : Git} {s : NoteState}

theorem operation_of_fault {α : Type} {run : NoteStore → Outcome GitError α × NoteStore}
    {message : String} (hfault : git.fault s.operations = some message) :
    operation git run s = (.err (.other message), ⟨s.notes, s.operations + 1⟩) := by
  rw [operation, hfault]

theorem operation_of_none {α : Type} {run : NoteStore → Outcome GitError α × NoteStore}
    (hfault : git.fault s.operations = none) :
    operation git run s = ((run s.notes).1, ⟨(run s.notes).2, s.operations + 1⟩) := by
  rw [operation, hfault]

theorem NoteStore.set_same (notes : NoteStore) (ref : String) (objectId : Oid)
    (note : Option Bytes) : notes.set ref objectId note ref objectId = note := by
  simp [NoteStore.set]

theorem NoteStore.set_of_ne (notes : NoteStore) {ref other : String} (hne : other ≠ ref)
    (objectId : Oid) (note : Option Bytes) :
    notes.set ref objectId note other = notes other :=
  Function.update_of_ne hne _ _

/-- A write fails when the library does, or when the text is no C string. -/
def WriteFails (git : Git) (operations : ℕ) (note : String) : Prop :=
  git.fault operations ≠ none ∨ 0 ∈ utf8 note

theorem createNote_of_writeFails {note : String} (hfails : WriteFails git s.operations note)
    (notesRef : Option String) (objectId : Oid) (force : Bool) :
    ∃ error, createNote git notesRef objectId note force s =
      (.err error, ⟨s.notes, s.operations + 1⟩) := by
  cases hfault : git.fault s.operations with
  | some message => exact ⟨_, operation_of_fault hfault⟩
  | none =>
      have hnul := hfails.resolve_left (not_not.mpr hfault)
      refine ⟨.other "data contained a nul byte", (operation_of_none hfault).trans ?_⟩
      simp [hnul]

theorem createNote_of_not_writeFails {note : String}
    (hwrite : ¬ WriteFails git s.operations note) {notesRef : Option String}
    {objectId : Oid} {force : Bool}
    (hfree : ¬ ((s.notes (git.refName notesRef) objectId).isSome = true ∧ force = false)) :
    createNote git notesRef objectId note force s =
      (.ok (git.blobId (utf8 note)),
        ⟨s.notes.set (git.refName notesRef) objectId (some (utf8 note)),
          s.operations + 1⟩) := by
  rw [WriteFails, not_or, not_not] at hwrite
  refine (operation_of_none hwrite.1).trans ?_
  dsimp only
  rw [if_neg hwrite.2, if_neg hfree]

theorem createNote_eq_ok {note : String} {notesRef : Option String} {objectId noteId : Oid}
    {force : Bool} {t : NoteState}
    (hok : createNote git notesRef objectId note force s = (.ok noteId, t)) :
    t.notes (git.refName notesRef) objectId = some (utf8 note) ∧ 0 ∉ utf8 note := by
  by_cases hwrite : WriteFails git s.operations note
  · obtain ⟨error, herror⟩ := createNote_of_writeFails hwrite notesRef objectId force
    cases herror.symm.trans hok
  · refine ⟨?_, fun hnul => hwrite (.inr hnul)⟩
    by_cases hfree : (s.notes (git.refName notesRef) objectId).isSome = true ∧ force = false
    · have htaken : createNote git notesRef objectId note force s =
          (.err (.other "note already exists"), ⟨s.notes, s.operations + 1⟩) := by
        rw [WriteFails, not_or, not_not] at hwrite
        refine (operation_of_none hwrite.1).trans ?_
        simp [hwrite.2, hfree]
      cases htaken.symm.trans hok
    · obtain rfl := congrArg Prod.snd
        ((createNote_of_not_writeFails hwrite hfree).symm.trans hok)
      exact NoteStore.set_same _ _ _ _

/-- A note that is there is deleted unless the library fails. -/
theorem noteDelete_of_isSome {notesRef : Option String} {objectId : Oid}
    (hfault : git.fault s.operations = none)
    (hnote : (s.notes (git.refName notesRef) objectId).isSome = true) :
    noteDelete git objectId notesRef s =
      (.ok (), ⟨s.notes.set (git.refName notesRef) objectId none, s.operations + 1⟩) := by
  refine (operation_of_none hfault).trans ?_
  simp [hnote]

theorem noteDelete_of_fault {notesRef : Option String} {objectId : Oid}
    (hfault : git.fault s.operations ≠ none) :
    ∃ error, noteDelete git objectId notesRef s =
      (.err error, ⟨s.notes, s.operations + 1⟩) := by
  obtain ⟨message, hmessage⟩ := Option.ne_none_iff_exists'.mp hfault
  exact ⟨_, operation_of_fault hmessage⟩

/-- The operations before the first change of a note succeed. -/
def Begins (git : Git) (s : NoteState) : Prop :=
  ∀ i < 3, git.fault (s.operations + i) = none

theorem existingNote_of_begins (hbegins : Begins git s) (objectId : Oid)
    (notesRef : Option String) :
    existingNote git objectId notesRef s =
      (.ok (s.notes (git.refName notesRef) objectId), ⟨s.notes, s.operations + 3⟩) := by
  have hrepo : readOnly git s = (.ok (), ⟨s.notes, s.operations + 1⟩) :=
    operation_of_none (hbegins 0 (by omega))
  have hsignature : readOnly git ⟨s.notes, s.operations + 1⟩ =
      (.ok (), ⟨s.notes, s.operations + 2⟩) := operation_of_none (hbegins 1 (by omega))
  have hfind : findNote git notesRef objectId ⟨s.notes, s.operations + 2⟩ =
      (Outcome.okOr (.notFound "no note found for object")
        (s.notes (git.refName notesRef) objectId), ⟨s.notes, s.operations + 3⟩) :=
    operation_of_none (hbegins 2 (by omega))
  rw [existingNote, Session.bind_of_ok hrepo, Session.bind_of_ok hsignature]
  cases hnote : s.notes (git.refName notesRef) objectId with
  | some note =>
      rw [hnote] at hfind
      rw [Session.bind_of_ok (Session.attempt_of_ok hfind)]
      rfl
  | none =>
      rw [hnote] at hfind
      rw [Session.bind_of_ok (Session.attempt_of_err hfind)]
      rfl

/-- Before anything is changed an error leaves all notes as they are. -/
theorem existingNote_of_not_begins (hbegins : ¬ Begins git s) (objectId : Oid)
    (notesRef : Option String) :
    ∃ error t, existingNote git objectId notesRef s = (.err error, t) ∧
      t.notes = s.notes := by
  rw [existingNote]
  cases hrepo : git.fault s.operations with
  | some message => exact ⟨_, _, Session.bind_of_err (operation_of_fault hrepo), rfl⟩
  | none =>
      have hopen : readOnly git s = (.ok (), ⟨s.notes, s.operations + 1⟩) :=
        operation_of_none hrepo
      rw [Session.bind_of_ok hopen]
      cases hsignature : git.fault (s.operations + 1) with
      | some message =>
          exact ⟨_, _, Session.bind_of_err (operation_of_fault hsignature), rfl⟩
      | none =>
          have hsigned : readOnly git ⟨s.notes, s.operations + 1⟩ =
              (.ok (), ⟨s.notes, s.operations + 2⟩) := operation_of_none hsignature
          rw [Session.bind_of_ok hsigned]
          cases hfind : git.fault (s.operations + 2) with
          | some message =>
              exact ⟨_, _, Session.bind_of_ok (Session.attempt_of_err
                (operation_of_fault hfind)), rfl⟩
          | none =>
              refine absurd (fun i hi => ?_) hbegins
              match i, hi with
              | 0, _ => exact hrepo
              | 1, _ => exact hsignature
              | 2, _ => exact hfind

end Operations

section Candidates

theorem noteIdLeadingZeroBits_eq (overflowChecks : Bool) (noteId : Oid) :
    noteIdLeadingZeroBits overflowChecks noteId = .ok (UInt8.ofNat (powBits noteId)) := by
  have hfits : ¬ (overflowChecks = true ∧
      2 ^ 8 ≤ (0 : UInt8).toNat + leadingZeroBits noteId.toList) := by
    have hle := powBits_le noteId
    rw [UInt8.toNat_zero, ← powBits]
    omega
  rw [noteIdLeadingZeroBits, Oid.text, Hex.reference.decode_encode, Outcome.unwrap_some,
    Outcome.ok_bind, getLeadingZeroBits, getLeadingZeroBitsFrom_eq, if_neg hfits,
    Outcome.toOption_ok, Outcome.unwrap_some, UInt8.toNat_zero, Nat.zero_add, ← powBits]

/-- The id begins with the prefix and has the leading zero bits. -/
def GoodId (powTargetBits : UInt8) (idPrefix : String) (noteId : Oid) : Prop :=
  idPrefix.toList <+: (Oid.text noteId).toList ∧ powTargetBits.toNat ≤ powBits noteId

instance (powTargetBits : UInt8) (idPrefix : String) (noteId : Oid) :
    Decidable (GoodId powTargetBits idPrefix noteId) :=
  inferInstanceAs (Decidable (_ ∧ _))

theorem acceptsNoteId_eq (overflowChecks : Bool) (powTargetBits : UInt8) (idPrefix : String)
    (noteId : Oid) :
    acceptsNoteId overflowChecks powTargetBits idPrefix noteId =
      .ok (decide (GoodId powTargetBits idPrefix noteId)) := by
  have hbits : powTargetBits ≤ UInt8.ofNat (powBits noteId) ↔
      powTargetBits.toNat ≤ powBits noteId := by
    rw [UInt8.le_iff_toNat_le,
      UInt8.toNat_ofNat_of_lt' ((powBits_le noteId).trans_lt (by decide))]
  rw [acceptsNoteId, noteIdLeadingZeroBits_eq, Outcome.map_ok]
  simp only [hbits, GoodId, List.isPrefixOf_iff_prefix]
  split_ifs with hbegins
  · simp [hbegins]
  · simp [hbegins]

/-- The text of a candidate. -/
def candidate (baseMessage idPrefix : String) (index : ℕ) : String :=
  appendNonce baseMessage (UInt64.ofNat index) idPrefix

variable (git : Git) (overflowChecks : Bool) (powTargetBits : UInt8) (objectId : Oid)
  (tempNotesRef baseMessage idPrefix : String) (s : NoteState)

/-- A candidate is written and its id is not good enough. -/
def Rejected (index : ℕ) : Prop :=
  ¬ WriteFails git (s.operations + index) (candidate baseMessage idPrefix index) ∧
    ¬ GoodId powTargetBits idPrefix
      (git.blobId (utf8 (candidate baseMessage idPrefix index)))

/-- The state after so many candidates. -/
def tried : ℕ → NoteState
  | 0 => s
  | index + 1 =>
      ⟨s.notes.set tempNotesRef objectId
          (some (utf8 (candidate baseMessage idPrefix index))), s.operations + (index + 1)⟩

theorem operations_tried (index : ℕ) :
    (tried objectId tempNotesRef baseMessage idPrefix s index).operations =
      s.operations + index := by
  cases index <;> rfl

theorem set_tried (index : ℕ) (note : Option Bytes) :
    (tried objectId tempNotesRef baseMessage idPrefix s index).notes.set tempNotesRef
      objectId note = s.notes.set tempNotesRef objectId note := by
  cases index with
  | zero => rfl
  | succ index => simp [tried, NoteStore.set]

theorem isSome_tried (index : ℕ) :
    ((tried objectId tempNotesRef baseMessage idPrefix s (index + 1)).notes tempNotesRef
      objectId).isSome = true := by
  rw [tried]
  exact congrArg Option.isSome (NoteStore.set_same _ _ _ _)

variable {git overflowChecks powTargetBits objectId tempNotesRef baseMessage idPrefix s}

/-- The candidates are no obstacle to a note that is written over what was there. -/
theorem not_taken_tried {ref : String} (hne : ref ≠ tempNotesRef)
    (baseMessage idPrefix : String) (index : ℕ) :
    ¬ (((tried objectId tempNotesRef baseMessage idPrefix s (index + 1)).notes ref
      objectId).isSome = true ∧ (s.notes ref objectId).isSome = false) := by
  rintro ⟨htaken, hfree⟩
  have hsame : (tried objectId tempNotesRef baseMessage idPrefix s (index + 1)).notes ref =
      s.notes ref := NoteStore.set_of_ne _ hne _ _
  simp [hsame, hfree] at htaken

/-- A candidate that is written replaces the one before it. -/
theorem createNote_tried {index : ℕ}
    (hwrite : ¬ WriteFails git (s.operations + index)
      (candidate baseMessage idPrefix index)) :
    createNote git (some tempNotesRef) objectId (candidate baseMessage idPrefix index) true
        (tried objectId tempNotesRef baseMessage idPrefix s index) =
      (.ok (git.blobId (utf8 (candidate baseMessage idPrefix index))),
        tried objectId tempNotesRef baseMessage idPrefix s (index + 1)) := by
  rw [← operations_tried objectId tempNotesRef baseMessage idPrefix] at hwrite
  have hwritten := @createNote_of_not_writeFails git _ _ hwrite (some tempNotesRef) objectId
    true fun hforce => nomatch hforce.2
  rw [operations_tried, Git.refName, Option.getD_some, set_tried] at hwritten
  exact hwritten

theorem mineCandidates_of_rejected {fuel index : ℕ}
    (hrejected : Rejected git powTargetBits baseMessage idPrefix s index) :
    mineCandidates git overflowChecks objectId tempNotesRef baseMessage powTargetBits
        idPrefix (fuel + 1) (UInt64.ofNat index)
        (tried objectId tempNotesRef baseMessage idPrefix s index) =
      mineCandidates git overflowChecks objectId tempNotesRef baseMessage powTargetBits
        idPrefix fuel (UInt64.ofNat (index + 1))
        (tried objectId tempNotesRef baseMessage idPrefix s (index + 1)) := by
  have hnonce : UInt64.ofNat index + 1 = UInt64.ofNat (index + 1) := by
    rw [UInt64.ofNat_add]
    rfl
  rw [mineCandidates, ← candidate, Session.bind_of_ok (createNote_tried hrejected.1),
    acceptsNoteId_eq, Session.lift_ok_bind, decide_eq_false hrejected.2, hnonce]
  rfl

/-- Candidates that are not good enough are passed over. -/
theorem mineCandidates_of_forall_rejected {index : ℕ} (fuel : ℕ)
    (hrejected : ∀ i < index, Rejected git powTargetBits baseMessage idPrefix s i) :
    mineCandidates git overflowChecks objectId tempNotesRef baseMessage powTargetBits
        idPrefix (fuel + index) 0 s =
      mineCandidates git overflowChecks objectId tempNotesRef baseMessage powTargetBits
        idPrefix fuel (UInt64.ofNat index)
        (tried objectId tempNotesRef baseMessage idPrefix s index) := by
  induction index generalizing fuel with
  | zero => rfl
  | succ index ih =>
      have hfuel : fuel + (index + 1) = fuel + 1 + index := by omega
      rw [hfuel, ih (fuel + 1) fun i hi => hrejected i (Nat.lt_succ_of_lt hi),
        mineCandidates_of_rejected (hrejected index (Nat.lt_succ_self index))]

/-- The first candidate that cannot be written ends the loop. -/
theorem mineCandidates_of_writeFails {index : ℕ} (fuel : ℕ)
    (hrejected : ∀ i < index, Rejected git powTargetBits baseMessage idPrefix s i)
    (hfails : WriteFails git (s.operations + index)
      (candidate baseMessage idPrefix index)) :
    ∃ error, mineCandidates git overflowChecks objectId tempNotesRef baseMessage
        powTargetBits idPrefix (fuel + 1 + index) 0 s =
      (.err error, ⟨(tried objectId tempNotesRef baseMessage idPrefix s index).notes,
        s.operations + index + 1⟩) := by
  rw [← operations_tried objectId tempNotesRef baseMessage idPrefix] at hfails
  obtain ⟨error, herror⟩ :=
    createNote_of_writeFails hfails (some tempNotesRef) objectId true
  rw [operations_tried] at herror
  refine ⟨error, ?_⟩
  rw [mineCandidates_of_forall_rejected _ hrejected, mineCandidates, ← candidate,
    Session.bind_of_err herror]

/-- The first candidate that is good enough is the one that is found. -/
theorem mineCandidates_of_goodId {index : ℕ} (fuel : ℕ)
    (hrejected : ∀ i < index, Rejected git powTargetBits baseMessage idPrefix s i)
    (hwrite : ¬ WriteFails git (s.operations + index)
      (candidate baseMessage idPrefix index))
    (hgood : GoodId powTargetBits idPrefix
      (git.blobId (utf8 (candidate baseMessage idPrefix index)))) :
    mineCandidates git overflowChecks objectId tempNotesRef baseMessage powTargetBits
        idPrefix (fuel + 1 + index) 0 s =
      (.ok (some (git.blobId (utf8 (candidate baseMessage idPrefix index)),
        UInt64.ofNat index)),
        tried objectId tempNotesRef baseMessage idPrefix s (index + 1)) := by
  rw [mineCandidates_of_forall_rejected _ hrejected, mineCandidates, ← candidate,
    Session.bind_of_ok (createNote_tried hwrite), acceptsNoteId_eq, Session.lift_ok_bind,
    decide_eq_true hgood]
  rfl

/-- Within the fuel all candidates are rejected, or there is a first one that is not. -/
theorem rejected_or_first (fuel : ℕ) :
    (∀ i < fuel, Rejected git powTargetBits baseMessage idPrefix s i) ∨
      ∃ index more, fuel = more + 1 + index ∧
        (∀ i < index, Rejected git powTargetBits baseMessage idPrefix s i) ∧
        ¬ Rejected git powTargetBits baseMessage idPrefix s index := by
  induction fuel with
  | zero => exact .inl fun i hi => absurd hi (Nat.not_lt_zero i)
  | succ fuel ih =>
      rcases ih with hall | ⟨index, more, hfuel, hbefore, hfirst⟩
      · by_cases hlast : Rejected git powTargetBits baseMessage idPrefix s fuel
        · refine .inl fun i hi => ?_
          rcases Nat.lt_succ_iff_lt_or_eq.mp hi with hlt | rfl
          · exact hall i hlt
          · exact hlast
        · exact .inr ⟨fuel, 0, by omega, hall, hlast⟩
      · exact .inr ⟨index, more + 1, by omega, hbefore, hfirst⟩

end Candidates

section Edits

variable {git : Git} {s : NoteState} {objectId : Oid} {notesRef : Option String}

theorem amendNote_of_not_begins (hbegins : ¬ Begins git s) (note : String) :
    ∃ error t, amendNote git objectId note notesRef s = (.err error, t) ∧
      t.notes = s.notes := by
  obtain ⟨error, t, herror, hsame⟩ := existingNote_of_not_begins hbegins objectId notesRef
  exact ⟨error, t, Session.bind_of_err herror, hsame⟩

theorem amendNote_of_none (hbegins : Begins git s)
    (hnone : s.notes (git.refName notesRef) objectId = none) (note : String) :
    amendNote git objectId note notesRef s =
      createNote git notesRef objectId note false ⟨s.notes, s.operations + 3⟩ := by
  rw [amendNote, Session.bind_of_ok (existingNote_of_begins hbegins objectId notesRef),
    hnone]
  rfl

theorem amendNote_of_fault (hbegins : Begins git s) {existing : Bytes}
    (hsome : s.notes (git.refName notesRef) objectId = some existing)
    (hfault : git.fault (s.operations + 3) ≠ none) (note : String) :
    ∃ error t, amendNote git objectId note notesRef s = (.err error, t) ∧
      t.notes = s.notes := by
  obtain ⟨error, herror⟩ := @noteDelete_of_fault git ⟨s.notes, s.operations + 3⟩ notesRef
    objectId hfault
  refine ⟨error, ⟨s.notes, s.operations + 3 + 1⟩, ?_, rfl⟩
  rw [amendNote, Session.bind_of_ok (existingNote_of_begins hbegins objectId notesRef),
    hsome]
  exact Session.bind_of_err herror

/-- Once the note is deleted there is only the new one to be written. -/
theorem amendNote_of_some (hbegins : Begins git s) {existing : Bytes}
    (hsome : s.notes (git.refName notesRef) objectId = some existing)
    (hdelete : git.fault (s.operations + 3) = none) (note : String) :
    amendNote git objectId note notesRef s =
      createNote git notesRef objectId (amendedMessage (some existing) note) false
        ⟨s.notes.set (git.refName notesRef) objectId none, s.operations + 4⟩ := by
  have hnote : (s.notes (git.refName notesRef) objectId).isSome = true := by rw [hsome]; rfl
  rw [amendNote, Session.bind_of_ok (existingNote_of_begins hbegins objectId notesRef),
    hsome]
  exact Session.bind_of_ok (@noteDelete_of_isSome git ⟨s.notes, s.operations + 3⟩ notesRef
    objectId hdelete hnote)

/-- The text the nonces of a mined note are appended to. -/
def baseMessage (git : Git) (s : NoteState) (objectId : Oid) (notesRef : Option String)
    (note : String) : String :=
  combineNoteMessages ((s.notes (git.refName notesRef) objectId).bind noteMessage) note

theorem mineNote_of_not_begins (hbegins : ¬ Begins git s) (overflowChecks : Bool) (fuel : ℕ)
    (uuid note : String) (powTargetBits : UInt8) (idPrefix : Option String) :
    ∃ error t, mineNote git overflowChecks fuel uuid objectId note notesRef powTargetBits
        idPrefix s = (.err error, t) ∧ t.notes = s.notes := by
  obtain ⟨error, t, herror, hsame⟩ := existingNote_of_not_begins hbegins objectId notesRef
  exact ⟨error, t, Session.bind_of_err herror, hsame⟩

variable {overflowChecks : Bool} {fuel : ℕ} {uuid note : String} {powTargetBits : UInt8}
  {idPrefix : Option String}

theorem mineNote_of_err (hbegins : Begins git s) {error : GitError} {t : NoteState}
    (hloop : mineCandidates git overflowChecks objectId (mineTempRef objectId uuid)
      (baseMessage git s objectId notesRef note) powTargetBits
      (idPrefix.getD defaultMineNotePrefix) fuel 0 ⟨s.notes, s.operations + 3⟩ =
        (.err error, t)) :
    mineNote git overflowChecks fuel uuid objectId note notesRef powTargetBits idPrefix s =
      (.err error, t) := by
  rw [mineNote, Session.bind_of_ok (existingNote_of_begins hbegins objectId notesRef)]
  exact Session.bind_of_err hloop

theorem mineNote_of_none (hbegins : Begins git s) {t : NoteState}
    (hloop : mineCandidates git overflowChecks objectId (mineTempRef objectId uuid)
      (baseMessage git s objectId notesRef note) powTargetBits
      (idPrefix.getD defaultMineNotePrefix) fuel 0 ⟨s.notes, s.operations + 3⟩ =
        (.ok none, t)) :
    mineNote git overflowChecks fuel uuid objectId note notesRef powTargetBits idPrefix s =
      (.ok none, t) := by
  rw [mineNote, Session.bind_of_ok (existingNote_of_begins hbegins objectId notesRef)]
  exact Session.bind_of_ok hloop

theorem mineNote_of_some (hbegins : Begins git s) {noteId : Oid} {nonce : UInt64}
    {t : NoteState}
    (hloop : mineCandidates git overflowChecks objectId (mineTempRef objectId uuid)
      (baseMessage git s objectId notesRef note) powTargetBits
      (idPrefix.getD defaultMineNotePrefix) fuel 0 ⟨s.notes, s.operations + 3⟩ =
        (.ok (some (noteId, nonce)), t)) :
    mineNote git overflowChecks fuel uuid objectId note notesRef powTargetBits idPrefix s =
      replaceNote git objectId notesRef (mineTempRef objectId uuid)
        (appendNonce (baseMessage git s objectId notesRef note) nonce
          (idPrefix.getD defaultMineNotePrefix))
        (s.notes (git.refName notesRef) objectId).isSome noteId t := by
  rw [mineNote, Session.bind_of_ok (existingNote_of_begins hbegins objectId notesRef)]
  exact Session.bind_of_ok hloop

/-- The first candidate that is good enough is the note that is then written. -/
theorem mineNote_of_goodId (hbegins : Begins git s) {index : ℕ} (more : ℕ)
    (hrejected : ∀ i < index, Rejected git powTargetBits
      (baseMessage git s objectId notesRef note) (idPrefix.getD defaultMineNotePrefix)
      ⟨s.notes, s.operations + 3⟩ i)
    (hwrite : ¬ WriteFails git (s.operations + 3 + index)
      (candidate (baseMessage git s objectId notesRef note)
        (idPrefix.getD defaultMineNotePrefix) index))
    (hgood : GoodId powTargetBits (idPrefix.getD defaultMineNotePrefix)
      (git.blobId (utf8 (candidate (baseMessage git s objectId notesRef note)
        (idPrefix.getD defaultMineNotePrefix) index)))) :
    mineNote git overflowChecks (more + 1 + index) uuid objectId note notesRef powTargetBits
        idPrefix s =
      replaceNote git objectId notesRef (mineTempRef objectId uuid)
        (candidate (baseMessage git s objectId notesRef note)
          (idPrefix.getD defaultMineNotePrefix) index)
        (s.notes (git.refName notesRef) objectId).isSome
        (git.blobId (utf8 (candidate (baseMessage git s objectId notesRef note)
          (idPrefix.getD defaultMineNotePrefix) index)))
        (tried objectId (mineTempRef objectId uuid)
          (baseMessage git s objectId notesRef note) (idPrefix.getD defaultMineNotePrefix)
          ⟨s.notes, s.operations + 3⟩ (index + 1)) :=
  mineNote_of_some hbegins (mineCandidates_of_goodId more hrejected hwrite hgood)

/-- The candidate is deleted, or it stays. -/
theorem attempt_noteDelete {ref : String} (hnote : (s.notes ref objectId).isSome = true) :
    ∃ result t, (Session.attempt (noteDelete git objectId (some ref)) :
        NoteCall (Except GitError Unit)) s = (.ok result, t) ∧
      t.notes = if git.fault s.operations = none then s.notes.set ref objectId none
        else s.notes := by
  by_cases hfault : git.fault s.operations = none
  · exact ⟨_, _, Session.attempt_of_ok (@noteDelete_of_isSome git s (some ref) objectId
      hfault hnote), (if_pos hfault).symm⟩
  · obtain ⟨error, herror⟩ := @noteDelete_of_fault git s (some ref) objectId hfault
    exact ⟨_, _, Session.attempt_of_err herror, (if_neg hfault).symm⟩

variable {tempNotesRef finalMessage : String} {force : Bool} {candidateNoteId : Oid}

theorem replaceNote_of_writeFails (hfails : WriteFails git s.operations finalMessage)
    (htemp : (s.notes tempNotesRef objectId).isSome = true) :
    ∃ error t, replaceNote git objectId notesRef tempNotesRef finalMessage force
        candidateNoteId s = (.err error, t) ∧
      t.notes = if git.fault (s.operations + 1) = none then
        s.notes.set tempNotesRef objectId none else s.notes := by
  obtain ⟨error, herror⟩ := createNote_of_writeFails hfails notesRef objectId force
  obtain ⟨result, t, hresult, hnotes⟩ := @attempt_noteDelete git
    ⟨s.notes, s.operations + 1⟩ objectId tempNotesRef htemp
  refine ⟨error, t, ?_, hnotes⟩
  rw [replaceNote, Session.bind_of_ok (Session.attempt_of_err herror)]
  exact Session.bind_of_ok hresult

/-- A note that can be written is the one that is then attached, and its id is returned. -/
theorem replaceNote_of_not_writeFails
    (hwrite : ¬ WriteFails git s.operations finalMessage)
    (hfree : ¬ ((s.notes (git.refName notesRef) objectId).isSome = true ∧ force = false))
    (hne : git.refName notesRef ≠ tempNotesRef)
    (htemp : (s.notes tempNotesRef objectId).isSome = true) :
    ∃ t, replaceNote git objectId notesRef tempNotesRef finalMessage force
        (git.blobId (utf8 finalMessage)) s =
          (.ok (some (git.blobId (utf8 finalMessage))), t) ∧
      t.notes (git.refName notesRef) objectId = some (utf8 finalMessage) := by
  have hcreate := createNote_of_not_writeFails hwrite hfree
  have htemp' : (s.notes.set (git.refName notesRef) objectId (some (utf8 finalMessage))
      tempNotesRef objectId).isSome = true := by
    rwa [NoteStore.set_of_ne _ hne.symm]
  obtain ⟨result, t, hresult, hnotes⟩ := @attempt_noteDelete git
    ⟨s.notes.set (git.refName notesRef) objectId (some (utf8 finalMessage)),
      s.operations + 1⟩ objectId tempNotesRef htemp'
  refine ⟨t, ?_, ?_⟩
  · rw [replaceNote, Session.bind_of_ok (Session.attempt_of_ok hcreate)]
    refine (Session.bind_of_ok hresult).trans ?_
    rw [if_pos rfl]
    rfl
  · rw [hnotes]
    split_ifs
    · rw [NoteStore.set_of_ne _ hne]
      exact NoteStore.set_same _ _ _ _
    · exact NoteStore.set_same _ _ _ _

theorem run_amend_eq_ok_iff {noteId : Oid} {t : NoteState} :
    (NoteEdit.amend note).run git overflowChecks fuel uuid objectId notesRef s =
        (.ok (some noteId), t) ↔
      amendNote git objectId note notesRef s = (.ok noteId, t) := by
  rw [NoteEdit.run, Session.bind_eq_ok_iff]
  simp

/-- An amended note that is written holds what could be read, and the text. -/
theorem amendNote_eq_ok {noteId : Oid} {t : NoteState}
    (hok : amendNote git objectId note notesRef s = (.ok noteId, t)) :
    t.notes (git.refName notesRef) objectId =
        some (utf8 (amendedMessage (s.notes (git.refName notesRef) objectId) note)) ∧
      0 ∉ utf8 (amendedMessage (s.notes (git.refName notesRef) objectId) note) := by
  by_cases hbegins : Begins git s
  · cases hnote : s.notes (git.refName notesRef) objectId with
    | none =>
        rw [amendNote_of_none hbegins hnote] at hok
        exact createNote_eq_ok hok
    | some existing =>
        by_cases hdelete : git.fault (s.operations + 3) = none
        · rw [amendNote_of_some hbegins hnote hdelete] at hok
          exact createNote_eq_ok hok
        · obtain ⟨error, after, herror, -⟩ := amendNote_of_fault hbegins hnote hdelete note
          cases herror.symm.trans hok
  · obtain ⟨error, after, herror, -⟩ :=
      @amendNote_of_not_begins git s objectId notesRef hbegins note
    cases herror.symm.trans hok

/-- What a call of `mine_note` comes to: an error before anything is changed, no fuel left,
a candidate that cannot be written, a note that cannot be written, or a note. -/
inductive MineResult (git : Git) (s : NoteState) (objectId : Oid) (notesRef : Option String)
    (uuid note : String) (powTargetBits : UInt8) (idPrefix : String) :
    Outcome GitError (Option Oid) × NoteState → Prop
  | notBegun {error : GitError} {t : NoteState} (hbegins : ¬ Begins git s)
      (hsame : t.notes = s.notes) :
      MineResult git s objectId notesRef uuid note powTargetBits idPrefix (.err error, t)
  | exhausted (t : NoteState) :
      MineResult git s objectId notesRef uuid note powTargetBits idPrefix (.ok none, t)
  | candidateFails {index : ℕ} {error : GitError} {t : NoteState} (hbegins : Begins git s)
      (hrejected : ∀ i < index, Rejected git powTargetBits
        (baseMessage git s objectId notesRef note) idPrefix ⟨s.notes, s.operations + 3⟩ i)
      (hfails : WriteFails git (s.operations + 3 + index)
        (candidate (baseMessage git s objectId notesRef note) idPrefix index))
      (hnotes : t.notes = (tried objectId (mineTempRef objectId uuid)
        (baseMessage git s objectId notesRef note) idPrefix ⟨s.notes, s.operations + 3⟩
        index).notes) :
      MineResult git s objectId notesRef uuid note powTargetBits idPrefix (.err error, t)
  | noteFails {index : ℕ} {error : GitError} {t : NoteState} (hbegins : Begins git s)
      (hrejected : ∀ i < index, Rejected git powTargetBits
        (baseMessage git s objectId notesRef note) idPrefix ⟨s.notes, s.operations + 3⟩ i)
      (hwrite : ¬ WriteFails git (s.operations + 3 + index)
        (candidate (baseMessage git s objectId notesRef note) idPrefix index))
      (hgood : GoodId powTargetBits idPrefix (git.blobId (utf8
        (candidate (baseMessage git s objectId notesRef note) idPrefix index))))
      (hfails : WriteFails git (s.operations + 3 + (index + 1))
        (candidate (baseMessage git s objectId notesRef note) idPrefix index))
      (hnotes : t.notes =
        if git.fault (s.operations + 3 + (index + 1) + 1) = none then
          (s.notes.set (mineTempRef objectId uuid) objectId (some (utf8
            (candidate (baseMessage git s objectId notesRef note) idPrefix index)))).set
              (mineTempRef objectId uuid) objectId none
        else
          s.notes.set (mineTempRef objectId uuid) objectId (some (utf8
            (candidate (baseMessage git s objectId notesRef note) idPrefix index)))) :
      MineResult git s objectId notesRef uuid note powTargetBits idPrefix (.err error, t)
  | attached {index : ℕ} {t : NoteState}
      (hwrite : ¬ WriteFails git (s.operations + 3 + index)
        (candidate (baseMessage git s objectId notesRef note) idPrefix index))
      (hgood : GoodId powTargetBits idPrefix (git.blobId (utf8
        (candidate (baseMessage git s objectId notesRef note) idPrefix index))))
      (hattached : t.notes (git.refName notesRef) objectId = some (utf8
        (candidate (baseMessage git s objectId notesRef note) idPrefix index))) :
      MineResult git s objectId notesRef uuid note powTargetBits idPrefix
        (.ok (some (git.blobId (utf8
          (candidate (baseMessage git s objectId notesRef note) idPrefix index)))), t)

theorem mineResult_mineNote (hne : git.refName notesRef ≠ mineTempRef objectId uuid) :
    MineResult git s objectId notesRef uuid note powTargetBits
      (idPrefix.getD defaultMineNotePrefix)
      (mineNote git overflowChecks fuel uuid objectId note notesRef powTargetBits idPrefix
        s) := by
  by_cases hbegins : Begins git s
  · rcases @rejected_or_first git powTargetBits (baseMessage git s objectId notesRef note)
        (idPrefix.getD defaultMineNotePrefix) ⟨s.notes, s.operations + 3⟩ fuel with
      hall | ⟨index, more, rfl, hbefore, hfirst⟩
    · have hloop := @mineCandidates_of_forall_rejected git overflowChecks powTargetBits
        objectId (mineTempRef objectId uuid) _ _ _ fuel 0 hall
      rw [Nat.zero_add] at hloop
      rw [mineNote_of_none hbegins hloop]
      exact .exhausted _
    · by_cases hwrite : WriteFails git (s.operations + 3 + index)
          (candidate (baseMessage git s objectId notesRef note)
            (idPrefix.getD defaultMineNotePrefix) index)
      · obtain ⟨error, hloop⟩ := @mineCandidates_of_writeFails git overflowChecks
          powTargetBits objectId (mineTempRef objectId uuid) _ _ _ _ more hbefore hwrite
        rw [mineNote_of_err hbegins hloop]
        exact .candidateFails hbegins hbefore hwrite rfl
      · have hgood := not_not.mp fun hbad => hfirst ⟨hwrite, hbad⟩
        have hcandidate := isSome_tried objectId (mineTempRef objectId uuid)
          (baseMessage git s objectId notesRef note)
          (idPrefix.getD defaultMineNotePrefix) ⟨s.notes, s.operations + 3⟩ index
        rw [mineNote_of_goodId hbegins more hbefore hwrite hgood]
        by_cases hreplace : WriteFails git (s.operations + 3 + (index + 1))
            (candidate (baseMessage git s objectId notesRef note)
              (idPrefix.getD defaultMineNotePrefix) index)
        · obtain ⟨error, t, herror, hnotes⟩ := @replaceNote_of_writeFails git
            (tried objectId (mineTempRef objectId uuid) _ _ ⟨s.notes, s.operations + 3⟩
              (index + 1)) objectId notesRef _ _
            (s.notes (git.refName notesRef) objectId).isSome
            (git.blobId (utf8 (candidate _ _ index))) hreplace hcandidate
          rw [herror]
          exact .noteFails hbegins hbefore hwrite hgood hreplace hnotes
        · obtain ⟨t, hok, hattached⟩ := @replaceNote_of_not_writeFails git
            (tried objectId (mineTempRef objectId uuid) _ _ ⟨s.notes, s.operations + 3⟩
              (index + 1)) objectId notesRef _ _
            (s.notes (git.refName notesRef) objectId).isSome hreplace
            (not_taken_tried hne _ _ _) hne hcandidate
          rw [hok]
          exact .attached hwrite hgood hattached
  · obtain ⟨error, t, herror, hsame⟩ := @mineNote_of_not_begins git s objectId notesRef
      hbegins overflowChecks fuel uuid note powTargetBits idPrefix
    rw [herror]
    exact .notBegun hbegins hsame

/-- A mined note that is written is a candidate whose id is good enough, and it is the id
that is returned. -/
theorem mineNote_eq_ok {noteId : Oid} {t : NoteState}
    (hne : git.refName notesRef ≠ mineTempRef objectId uuid)
    (hok : mineNote git overflowChecks fuel uuid objectId note notesRef powTargetBits
      idPrefix s = (.ok (some noteId), t)) :
    ∃ index,
      t.notes (git.refName notesRef) objectId =
          some (utf8 (candidate (baseMessage git s objectId notesRef note)
            (idPrefix.getD defaultMineNotePrefix) index)) ∧
        0 ∉ utf8 (candidate (baseMessage git s objectId notesRef note)
          (idPrefix.getD defaultMineNotePrefix) index) ∧
        noteId = git.blobId (utf8 (candidate (baseMessage git s objectId notesRef note)
          (idPrefix.getD defaultMineNotePrefix) index)) ∧
        GoodId powTargetBits (idPrefix.getD defaultMineNotePrefix) noteId := by
  have hresult := @mineResult_mineNote git s _ _ overflowChecks fuel _ note powTargetBits
    idPrefix hne
  rw [hok] at hresult
  cases hresult with
  | @attached index t hwrite hgood hattached =>
      exact ⟨index, hattached, fun hnul => hwrite (.inr hnul), rfl, hgood⟩

section Faultless

variable (hfault : ∀ operations, git.fault operations = none)

include hfault

theorem begins_of_faultless : Begins git s := fun i _ => hfault (s.operations + i)

theorem not_writeFails_of_faultless {operations : ℕ} (hnul : 0 ∉ utf8 note) :
    ¬ WriteFails git operations note := by
  simp [WriteFails, hfault, hnul]

/-- Where nothing fails a text without a zero byte can be amended. -/
theorem exists_amendNote_ok
    (hnul : 0 ∉ utf8 (amendedMessage (s.notes (git.refName notesRef) objectId) note)) :
    ∃ noteId t, amendNote git objectId note notesRef s = (.ok noteId, t) := by
  have hbegins : Begins git s := begins_of_faultless hfault
  cases hnote : s.notes (git.refName notesRef) objectId with
  | none =>
      rw [hnote] at hnul
      exact ⟨_, _, (amendNote_of_none hbegins hnote note).trans
        (createNote_of_not_writeFails (not_writeFails_of_faultless hfault hnul)
          (by simp [hnote]))⟩
  | some existing =>
      rw [hnote] at hnul
      exact ⟨_, _, (amendNote_of_some hbegins hnote (hfault _) note).trans
        (createNote_of_not_writeFails (not_writeFails_of_faultless hfault hnul)
          (by simp [NoteStore.set_same]))⟩

/-- Where nothing fails and there is a candidate whose id is good enough, one is mined. -/
theorem exists_mineNote_ok (hne : git.refName notesRef ≠ mineTempRef objectId uuid)
    {index : ℕ} (hgood : GoodId powTargetBits (idPrefix.getD defaultMineNotePrefix)
      (git.blobId (utf8 (candidate (baseMessage git s objectId notesRef note)
        (idPrefix.getD defaultMineNotePrefix) index))))
    (hnul : ∀ i ≤ index, 0 ∉ utf8 (candidate (baseMessage git s objectId notesRef note)
      (idPrefix.getD defaultMineNotePrefix) i)) :
    ∃ fuel noteId t, mineNote git overflowChecks fuel uuid objectId note notesRef
      powTargetBits idPrefix s = (.ok (some noteId), t) := by
  have hexists : ∃ i, GoodId powTargetBits (idPrefix.getD defaultMineNotePrefix)
      (git.blobId (utf8 (candidate (baseMessage git s objectId notesRef note)
        (idPrefix.getD defaultMineNotePrefix) i))) := ⟨index, hgood⟩
  have hwrite : ∀ operations, ∀ i ≤ Nat.find hexists, ¬ WriteFails git operations
      (candidate (baseMessage git s objectId notesRef note)
        (idPrefix.getD defaultMineNotePrefix) i) := fun operations i hi =>
    not_writeFails_of_faultless hfault (hnul i (hi.trans (Nat.find_min' hexists hgood)))
  have hbefore : ∀ i < Nat.find hexists, Rejected git powTargetBits
      (baseMessage git s objectId notesRef note) (idPrefix.getD defaultMineNotePrefix)
      ⟨s.notes, s.operations + 3⟩ i := fun i hi =>
    ⟨hwrite _ i hi.le, Nat.find_min hexists hi⟩
  obtain ⟨t, ht, -⟩ := @replaceNote_of_not_writeFails git
    (tried objectId (mineTempRef objectId uuid) _ _ ⟨s.notes, s.operations + 3⟩
      (Nat.find hexists + 1)) objectId notesRef _ _
    (s.notes (git.refName notesRef) objectId).isSome (hwrite _ _ le_rfl)
    (not_taken_tried hne _ _ _) hne (isSome_tried _ _ _ _ _ _)
  exact ⟨_, _, t, (mineNote_of_goodId (begins_of_faultless hfault) 0 hbefore
    (hwrite _ _ le_rfl) (Nat.find_spec hexists)).trans ht⟩

end Faultless

end Edits

/-- The id of a blob. -/
def blobOid (note : Bytes) : Oid :=
  sha1 (utf8 ("blob " ++ toString note.length ++ "\x00") ++ note)

/-- A library of which no operation fails. -/
def faultless : Git where
  blobId := blobOid
  noteDefaultRef := "refs/notes/commits"
  fault _ := none

/-- A repository in which all objects have the same note under the ref that is the default,
and no others. -/
def notedWith (note : Option Bytes) : NoteState where
  notes ref _ := if ref = "refs/notes/commits" then note else none
  operations := 0

end Asyncgit

end Gnostr
