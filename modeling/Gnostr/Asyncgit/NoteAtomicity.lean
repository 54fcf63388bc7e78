/-
What a note edit that fails leaves behind: the note is there as before and no candidate is
left over, unless the failure comes between two changes of a ref.
-/
import Gnostr.Asyncgit.Notes

namespace Gnostr

namespace Asyncgit

/-- The ref for the candidates is new. -/
structure FreshTempRef (git : Git) (s : NoteState) (objectId : Oid)
    (notesRef : Option String) (uuid : String) : Prop where
  empty : ∀ other, s.notes (mineTempRef objectId uuid) other = none
  ne : git.refName notesRef ≠ mineTempRef objectId uuid

/-- The note is the one that was attached before, and no candidate is left. -/
structure Untouched (git : Git) (s t : NoteState) (objectId : Oid)
    (notesRef : Option String) (uuid : String) : Prop where
  note : t.notes (git.refName notesRef) objectId = s.notes (git.refName notesRef) objectId
  temp : ∀ other, t.notes (mineTempRef objectId uuid) other = none

/-- Whenever the call returns an error it has changed nothing. -/
def NoteEdit.Atomic (git : Git) (overflowChecks : Bool) (s : NoteState) (objectId : Oid)
    (notesRef : Option String) (uuid : String) (edit : NoteEdit) : Prop :=
  ∀ fuel error t,
    edit.run git overflowChecks fuel uuid objectId notesRef s = (.err error, t) →
      Untouched git s t objectId notesRef uuid

/-- The old note is deleted and the new one cannot be written. -/
def AmendLoses (git : Git) (s : NoteState) (objectId : Oid) (notesRef : Option String)
    (note : String) : Prop :=
  Begins git s ∧ git.fault (s.operations + 3) = none ∧
    ∃ existing, s.notes (git.refName notesRef) objectId = some existing ∧
      WriteFails git (s.operations + 4) (amendedMessage (some existing) note)

/-- A candidate cannot be written after another one was; or the note cannot be written, and
then the candidate cannot be deleted. -/
def MineLeaves (git : Git) (s : NoteState) (objectId : Oid) (notesRef : Option String)
    (note : String) (powTargetBits : UInt8) (idPrefix : String) : Prop :=
  Begins git s ∧ ∃ index,
    (∀ i < index, Rejected git powTargetBits (baseMessage git s objectId notesRef note)
      idPrefix ⟨s.notes, s.operations + 3⟩ i) ∧
    (index ≠ 0 ∧ WriteFails git (s.operations + 3 + index)
        (candidate (baseMessage git s objectId notesRef note) idPrefix index) ∨
      ¬ WriteFails git (s.operations + 3 + index)
          (candidate (baseMessage git s objectId notesRef note) idPrefix index) ∧
        GoodId powTargetBits idPrefix (git.blobId (utf8
          (candidate (baseMessage git s objectId notesRef note) idPrefix index))) ∧
        WriteFails git (s.operations + 3 + (index + 1))
          (candidate (baseMessage git s objectId notesRef note) idPrefix index) ∧
        git.fault (s.operations + 3 + (index + 1) + 1) ≠ none)

/-- The failure comes between two changes. -/
def NoteEdit.BreaksOff (git : Git) (s : NoteState) (objectId : Oid)
    (notesRef : Option String) : NoteEdit → Prop
  | amend note => AmendLoses git s objectId notesRef note
  | mine note powTargetBits idPrefix =>
      MineLeaves git s objectId notesRef note powTargetBits
        (idPrefix.getD defaultMineNotePrefix)

section Amend

variable {git : Git} {s t : NoteState} {objectId : Oid} {notesRef : Option String}
  {uuid note : String} {overflowChecks : Bool}

theorem untouched_of_notes_eq (hfresh : FreshTempRef git s objectId notesRef uuid)
    (hsame : t.notes = s.notes) : Untouched git s t objectId notesRef uuid where
  note := by rw [hsame]
  temp := by
    rw [hsame]
    exact hfresh.empty

theorem run_amend_eq_err_iff {fuel : ℕ} {error : GitError} :
    (NoteEdit.amend note).run git overflowChecks fuel uuid objectId notesRef s =
        (.err error, t) ↔
      amendNote git objectId note notesRef s = (.err error, t) := by
  rw [NoteEdit.run, Session.bind_eq_err_iff]
  simp

/-- An error of `amend_note` leaves the note alone unless it comes from the write after the
deletion. -/
theorem untouched_of_amendNote (hfresh : FreshTempRef git s objectId notesRef uuid)
    (hkeeps : ¬ AmendLoses git s objectId notesRef note) {error : GitError}
    (herror : amendNote git objectId note notesRef s = (.err error, t)) :
    Untouched git s t objectId notesRef uuid := by
  by_cases hbegins : Begins git s
  · cases hnote : s.notes (git.refName notesRef) objectId with
    | none =>
        rw [amendNote_of_none hbegins hnote] at herror
        by_cases hwrite : WriteFails git (s.operations + 3) note
        · obtain ⟨other, hother⟩ := @createNote_of_writeFails git
            ⟨s.notes, s.operations + 3⟩ note hwrite notesRef objectId false
          rw [hother] at herror
          exact untouched_of_notes_eq hfresh (congrArg (·.2.notes) herror).symm
        · rw [@createNote_of_not_writeFails git ⟨s.notes, s.operations + 3⟩ note hwrite
            notesRef objectId false (by simp [hnote])] at herror
          cases herror
    | some existing =>
        by_cases hdelete : git.fault (s.operations + 3) = none
        · rw [amendNote_of_some hbegins hnote hdelete] at herror
          have hwrite : ¬ WriteFails git (s.operations + 4)
              (amendedMessage (some existing) note) := fun hfails =>
            hkeeps ⟨hbegins, hdelete, existing, hnote, hfails⟩
          rw [@createNote_of_not_writeFails git ⟨_, s.operations + 4⟩ _ hwrite notesRef
            objectId false (by simp [NoteStore.set_same])] at herror
          cases herror
        · obtain ⟨other, after, hother, hsame⟩ :=
            amendNote_of_fault hbegins hnote hdelete note
          rw [hother] at herror
          obtain rfl : after = t := congrArg Prod.snd herror
          exact untouched_of_notes_eq hfresh hsame
  · obtain ⟨other, after, hother, hsame⟩ :=
      @amendNote_of_not_begins git s objectId notesRef hbegins note
    rw [hother] at herror
    obtain rfl : after = t := congrArg Prod.snd herror
    exact untouched_of_notes_eq hfresh hsame

theorem not_atomic_of_amendLoses (hloses : AmendLoses git s objectId notesRef note) :
    ¬ (NoteEdit.amend note).Atomic git overflowChecks s objectId notesRef uuid := by
  obtain ⟨hbegins, hdelete, existing, hnote, hfails⟩ := hloses
  obtain ⟨error, herror⟩ := @createNote_of_writeFails git
    ⟨s.notes.set (git.refName notesRef) objectId none, s.operations + 4⟩ _ hfails notesRef
    objectId false
  rw [← amendNote_of_some hbegins hnote hdelete] at herror
  intro hatomic
  have hkept := (hatomic 0 error _ (run_amend_eq_err_iff.mpr herror)).note
  cases (NoteStore.set_same s.notes _ objectId none).symm.trans (hkept.trans hnote)

end Amend

section Mine

variable {git : Git} {s t : NoteState} {objectId : Oid} {notesRef : Option String}
  {uuid note : String} {overflowChecks : Bool} {powTargetBits : UInt8}
  {idPrefix : Option String}

/-- A candidate that is deleted again is not left. -/
theorem untouched_of_set_set (hfresh : FreshTempRef git s objectId notesRef uuid)
    {candidateNote : Bytes}
    (hnotes : t.notes = (s.notes.set (mineTempRef objectId uuid) objectId
      (some candidateNote)).set (mineTempRef objectId uuid) objectId none) :
    Untouched git s t objectId notesRef uuid where
  note := by
    rw [hnotes, NoteStore.set_of_ne _ hfresh.ne, NoteStore.set_of_ne _ hfresh.ne]
  temp other := by
    rw [hnotes]
    by_cases hsame : other = objectId
    · rw [hsame]
      exact NoteStore.set_same _ _ _ _
    · simp [NoteStore.set, hsame, hfresh.empty other]

/-- An error of `mine_note` leaves the note alone and no candidate, unless it comes from a
later candidate or from the deletion of the last one. -/
theorem untouched_of_mineNote (hfresh : FreshTempRef git s objectId notesRef uuid)
    (hkeeps : ¬ MineLeaves git s objectId notesRef note powTargetBits
      (idPrefix.getD defaultMineNotePrefix)) {fuel : ℕ} {error : GitError}
    (herror : mineNote git overflowChecks fuel uuid objectId note notesRef powTargetBits
      idPrefix s = (.err error, t)) :
    Untouched git s t objectId notesRef uuid := by
  have hresult := @mineResult_mineNote git s _ _ overflowChecks fuel _ note powTargetBits
    idPrefix hfresh.ne
  rw [herror] at hresult
  cases hresult with
  | notBegun hbegins hsame => exact untouched_of_notes_eq hfresh hsame
  | @candidateFails index error t hbegins hrejected hfails hnotes =>
      have hzero : index = 0 := by
        by_contra hne
        exact hkeeps ⟨hbegins, index, hrejected, .inl ⟨hne, hfails⟩⟩
      subst hzero
      exact untouched_of_notes_eq hfresh hnotes
  | @noteFails index error t hbegins hrejected hwrite hgood hfails hnotes =>
      have hdelete : git.fault (s.operations + 3 + (index + 1) + 1) = none := by
        by_contra hfault
        exact hkeeps ⟨hbegins, index, hrejected, .inr ⟨hwrite, hgood, hfails, hfault⟩⟩
      exact untouched_of_set_set hfresh (hnotes.trans (if_pos hdelete))

theorem not_atomic_of_mineLeaves
    (hleaves : MineLeaves git s objectId notesRef note powTargetBits
      (idPrefix.getD defaultMineNotePrefix)) :
    ¬ (NoteEdit.mine note powTargetBits idPrefix).Atomic git overflowChecks s objectId
      notesRef uuid := by
  obtain ⟨hbegins, index, hbefore, ⟨hne, hfails⟩ | ⟨hwrite, hgood, hfails, hfault⟩⟩ :=
    hleaves
  · obtain ⟨error, hloop⟩ := @mineCandidates_of_writeFails git overflowChecks powTargetBits
      objectId (mineTempRef objectId uuid) _ _ _ _ 0 hbefore hfails
    intro hatomic
    have htemp := (hatomic _ error _ (mineNote_of_err hbegins hloop)).temp objectId
    obtain ⟨before, rfl⟩ := Nat.exists_eq_succ_of_ne_zero hne
    cases (NoteStore.set_same _ _ _ _).symm.trans htemp
  · obtain ⟨error, after, herror, hnotes⟩ := @replaceNote_of_writeFails git
      (tried objectId (mineTempRef objectId uuid) _ _ ⟨s.notes, s.operations + 3⟩
        (index + 1)) objectId notesRef _ _ (s.notes (git.refName notesRef) objectId).isSome
      (git.blobId (utf8 (candidate _ _ index))) hfails (isSome_tried _ _ _ _ _ _)
    intro hatomic
    have htemp := (hatomic _ error after
      ((mineNote_of_goodId hbegins 0 hbefore hwrite hgood).trans herror)).temp objectId
    rw [hnotes.trans (if_neg hfault)] at htemp
    cases (NoteStore.set_same _ _ _ _).symm.trans htemp

end Mine

section Main

/-- An edit that fails has changed nothing, exactly if it does not break off between two
changes. -/
theorem NoteEdit.atomic_iff_not_breaksOff {git : Git} {s : NoteState} {objectId : Oid}
    {notesRef : Option String} {uuid : String}
    (hfresh : FreshTempRef git s objectId notesRef uuid) (overflowChecks : Bool)
    (edit : NoteEdit) :
    edit.Atomic git overflowChecks s objectId notesRef uuid ↔
      ¬ edit.BreaksOff git s objectId notesRef := by
  cases edit with
  | amend note =>
      constructor
      · intro hatomic hloses
        exact not_atomic_of_amendLoses hloses hatomic
      · intro hkeeps fuel error t herror
        exact untouched_of_amendNote hfresh hkeeps (run_amend_eq_err_iff.mp herror)
  | mine note powTargetBits idPrefix =>
      constructor
      · intro hatomic hleaves
        exact not_atomic_of_mineLeaves hleaves hatomic
      · intro hkeeps fuel error t herror
        exact untouched_of_mineNote hfresh hkeeps herror

/-- A library of which one operation fails. -/
def failingAt (index : ℕ) : Git :=
  { faultless with
    fault operations := if operations = index then some "failed to write ref" else none }

theorem atomic_amend_failingAt_three :
    (NoteEdit.amend "new").Atomic (failingAt 3) true (notedWith none)
      (Vector.replicate 20 0) none "67e5504410b1426f9247bb680e5fe0c8" := by
  have hfresh : FreshTempRef (failingAt 3) (notedWith none) (Vector.replicate 20 0) none
      "67e5504410b1426f9247bb680e5fe0c8" := by
    constructor
    · intro other
      simp [notedWith]
    · decide
  refine (NoteEdit.atomic_iff_not_breaksOff hfresh true (.amend "new")).mpr ?_
  rintro ⟨-, -, existing, hexisting, -⟩
  simp [notedWith] at hexisting

theorem not_atomic_amend_failingAt_four :
    ¬ (NoteEdit.amend "new").Atomic (failingAt 4) true (notedWith (some (utf8 "old")))
      (Vector.replicate 20 0) none "67e5504410b1426f9247bb680e5fe0c8" := by
  apply not_atomic_of_amendLoses
  refine ⟨?_, by decide, utf8 "old", ?_, .inl (by decide)⟩
  · intro i hi
    simp only [failingAt, notedWith]
    rw [if_neg (by omega)]
  · rfl

end Main

end Asyncgit

end Gnostr
