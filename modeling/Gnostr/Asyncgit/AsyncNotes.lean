/-
The notes that are fetched in the background, of `asyncgit/src/lib/notes.rs`, on the queue
for one job of `asyncjob/mod.rs`.  A request that is not forced is dropped while a job is
pending, whatever notes the job is for.
-/
import Gnostr.Lib.Machine
import Mathlib.Data.Set.Basic

namespace Gnostr

namespace Asyncgit

/-- The thread of a queue: it runs a job, and has then to say that none is pending. -/
inductive Worker (J : Type)
  | idle
  | running (task : J)
  | settling

/-- The job to be run next, and the last one that was run and not taken. -/
structure AsyncSingleJob (J : Type) where
  next : Option J
  last : Option J
  worker : Worker J

namespace AsyncSingleJob

variable {J : Type}

def new : AsyncSingleJob J := ⟨none, none, .idle⟩

def isPending (job : AsyncSingleJob J) : Bool :=
  match job.worker with
  | .idle => false
  | _ => true

def checkForJob (job : AsyncSingleJob J) : AsyncSingleJob J :=
  match job.worker, job.next with
  | .idle, some task => { job with next := none, worker := .running task }
  | _, _ => job

/-- Spawn a task, in the place of the one that was to be next. -/
def spawn (job : AsyncSingleJob J) (task : J) : AsyncSingleJob J :=
  checkForJob { job with next := some task }

def takeLast (job : AsyncSingleJob J) : Option J × AsyncSingleJob J :=
  (job.last, { job with last := none })

/-- The thread runs its job and stores it. -/
def finish (run : J → J) (job : AsyncSingleJob J) : AsyncSingleJob J :=
  match job.worker with
  | .running task => { job with last := some (run task), worker := .settling }
  | _ => job

/-- The thread is done; it looks for the next job after that. -/
def settle (job : AsyncSingleJob J) : AsyncSingleJob J :=
  match job.worker with
  | .settling => { job with worker := .idle }
  | _ => job

/-- Nothing is run, waits, or was run and not taken. -/
def Settled (job : AsyncSingleJob J) : Prop :=
  job.isPending = false ∧ job.next = none ∧ job.last = none

end AsyncSingleJob

inductive AsyncGitNotification
  | finishUnchanged
  | notes
deriving DecidableEq

structure NotesResult (Note : Type) where
  hash : UInt64
  notes : List Note
  notesRef : Option String

/-- A job before and after it is run; the time is that at which it was. -/
inductive AsyncNotesJob (Note : Type)
  | request (lastHash : UInt64) (notesRef : Option String)
  | response (time : ℕ) (result : NotesResult Note)

structure AsyncNotes (Note : Type) where
  last : Option (ℕ × NotesResult Note)
  job : AsyncSingleJob (AsyncNotesJob Note)

section Model

variable {Note Repo : Type} (hash : List Note → UInt64)
  (listNotes : Repo → Option String → List Note)

namespace AsyncNotesJob

def notesRef : AsyncNotesJob Note → Option String
  | .request _ notesRef => notesRef
  | .response _ result => result.notesRef

def result : AsyncNotesJob Note → Option (ℕ × NotesResult Note)
  | .request _ _ => none
  | .response time result => some (time, result)

/-- The notes of the reference are listed as the repository is. -/
def run (now : ℕ) (repo : Repo) : AsyncNotesJob Note → AsyncNotesJob Note
  | .request _ notesRef =>
      let notes := listNotes repo notesRef
      .response now ⟨hash notes, notes, notesRef⟩
  | .response time result => .response time result

/-- What is sent when the job was run. -/
def notification (repo : Repo) : AsyncNotesJob Note → AsyncGitNotification
  | .request lastHash notesRef =>
      if lastHash ≠ hash (listNotes repo notesRef) then .notes else .finishUnchanged
  | .response _ _ => .finishUnchanged

end AsyncNotesJob

namespace AsyncNotes

def new : AsyncNotes Note := ⟨none, .new⟩

variable (notes : AsyncNotes Note)

def isPending : Bool := notes.job.isPending

/-- There is no result, or an old one, or one for another reference. -/
def isOutdated (now dur : ℕ) (notesRef : Option String) : Bool :=
  match notes.last with
  | none => true
  | some (lastTime, result) => dur < now - lastTime || result.notesRef != notesRef

def refresh : AsyncNotes Note :=
  let taken := notes.job.takeLast
  match taken.1.bind AsyncNotesJob.result with
  | some result => { notes with last := some result, job := taken.2 }
  | none => { notes with job := taken.2 }

def request (now dur : ℕ) (force : Bool) (notesRef : Option String) :
    AsyncNotes Note × List AsyncGitNotification :=
  if !force && notes.isPending then (notes, [])
  else if !force && !notes.isOutdated now dur notesRef then (notes, [.finishUnchanged])
  else
    let lastHash := notes.last.elim 0 fun last => last.2.hash
    let job := notes.job.spawn (.request lastHash notesRef)
    (refresh { notes with job }, [])

end AsyncNotes

/-- What the interface and the thread do, at any time. -/
inductive NotesEvent (Repo : Type)
  | request (now dur : ℕ) (force : Bool) (notesRef : Option String)
  | finish (now : ℕ) (repo : Repo)
  | settle
  | checkForJob
  | refresh

def NotesEvent.IsRequest : NotesEvent Repo → Prop
  | .request _ _ _ _ => True
  | _ => False

/-- The notes under requests, refreshes and the steps of the thread. -/
def notesMachine : Machine (AsyncNotes Note) (NotesEvent Repo) AsyncGitNotification where
  step notes
    | .request now dur force notesRef => notes.request now dur force notesRef
    | .finish now repo =>
        ({ notes with job := notes.job.finish (AsyncNotesJob.run hash listNotes now repo) },
          match notes.job.worker with
          | .running task => [task.notification hash listNotes repo]
          | _ => [])
    | .settle => ({ notes with job := notes.job.settle }, [])
    | .checkForJob => ({ notes with job := notes.job.checkForJob }, [])
    | .refresh => (notes.refresh, [])

end Model

section Target

variable {Note Repo : Type} {hash : List Note → UInt64}
  {listNotes : Repo → Option String → List Note}

/-- The job whose result will be the last one that is taken, if there is one. -/
def AsyncSingleJob.latest {J : Type} (job : AsyncSingleJob J) : Option J :=
  job.next.or
    ((match job.worker with
      | .running task => some task
      | _ => none).or job.last)

/-- The reference whose notes are held when all jobs were run and taken. -/
def AsyncNotes.target (notes : AsyncNotes Note) : Option (Option String) :=
  (notes.job.latest.map AsyncNotesJob.notesRef).or
    (notes.last.map fun last => last.2.notesRef)

/-- The stored job was run. -/
def AsyncNotes.Responded (notes : AsyncNotes Note) : Prop :=
  ∀ job ∈ notes.job.last, ∃ last, job.result = some last

/-- A request that is forced, or is neither dropped nor answered by the cache, or is for
the reference whose notes will be held in any case. -/
def AsyncNotes.Keeps (notes : AsyncNotes Note) (now dur : ℕ) (force : Bool)
    (notesRef : Option String) : Prop :=
  force = true ∨ (notes.isPending = false ∧ notes.isOutdated now dur notesRef = true) ∨
    notes.target = some notesRef

namespace AsyncSingleJob

variable {J : Type} {job : AsyncSingleJob J} {task : J} {run : J → J}

theorem latest_checkForJob : job.checkForJob.latest = job.latest := by
  unfold checkForJob
  split
  · rename_i task hworker hnext
    simp [latest, hnext]
  · rfl

theorem latest_spawn : (job.spawn task).latest = some task := by
  rw [spawn, latest_checkForJob]
  rfl

theorem last_checkForJob : job.checkForJob.last = job.last := by
  unfold checkForJob
  split <;> rfl

theorem last_settle : job.settle.last = job.last := by
  unfold settle
  split <;> rfl

theorem last_spawn : (job.spawn task).last = job.last := last_checkForJob

theorem latest_settle : job.settle.latest = job.latest := by
  unfold settle
  split
  · rename_i hworker
    simp [latest, hworker]
  · rfl

/-- All jobs of the queue. -/
structure All (P : J → Prop) (job : AsyncSingleJob J) : Prop where
  next : ∀ task, job.next = some task → P task
  last : ∀ task, job.last = some task → P task
  running : ∀ task, job.worker = .running task → P task

section All

variable {P : J → Prop} (hall : job.All P)

include hall

theorem All.checkForJob : job.checkForJob.All P := by
  unfold AsyncSingleJob.checkForJob
  split
  · rename_i task hworker hnext
    refine ⟨nofun, hall.last, ?_⟩
    rintro _ ⟨⟩
    exact hall.next task hnext
  · exact hall

theorem All.spawn (htask : P task) : (job.spawn task).All P := by
  apply All.checkForJob
  refine ⟨?_, hall.last, hall.running⟩
  rintro _ ⟨⟩
  exact htask

theorem All.finish (hrun : ∀ task, P task → P (run task)) : (job.finish run).All P := by
  unfold AsyncSingleJob.finish
  split
  · rename_i task hworker
    refine ⟨hall.next, ?_, nofun⟩
    rintro _ ⟨⟩
    exact hrun task (hall.running task hworker)
  · exact hall

theorem All.settle : job.settle.All P := by
  unfold AsyncSingleJob.settle
  split
  · exact ⟨hall.next, hall.last, nofun⟩
  · exact hall

theorem All.takeLast : job.takeLast.2.All P := ⟨hall.next, nofun, hall.running⟩

end All

/-- A job that is run stays the latest one, and is run. -/
theorem latest_finish {β : Type} {f : J → β} (hrun : ∀ task, f (run task) = f task) :
    (job.finish run).latest.map f = job.latest.map f := by
  unfold finish
  split
  · rename_i task hworker
    cases hnext : job.next <;> simp [latest, hworker, hnext, hrun]
  · rfl

end AsyncSingleJob

theorem AsyncNotesJob.notesRef_of_result {job : AsyncNotesJob Note}
    {last : ℕ × NotesResult Note} (hresult : job.result = some last) :
    last.2.notesRef = job.notesRef := by
  cases job with
  | request lastHash notesRef => cases hresult
  | response time result =>
      cases hresult
      rfl

theorem AsyncNotesJob.notesRef_run (now : ℕ) (repo : Repo) (job : AsyncNotesJob Note) :
    (job.run hash listNotes now repo).notesRef = job.notesRef := by
  cases job <;> rfl

namespace AsyncNotes

variable {notes : AsyncNotes Note}

/-- A result that is taken is held, unless a job comes after it. -/
theorem target_refresh (hresponded : notes.Responded) :
    notes.refresh.target = notes.target := by
  unfold refresh AsyncSingleJob.takeLast
  cases hlast : notes.job.last with
  | none => simp [target, AsyncSingleJob.latest, hlast]
  | some job =>
      obtain ⟨last, hresult⟩ := hresponded job hlast
      have hsame := AsyncNotesJob.notesRef_of_result hresult
      simp only [Option.bind_some, hresult]
      cases hnext : notes.job.next <;> cases hworker : notes.job.worker <;>
        simp [target, AsyncSingleJob.latest, hlast, hnext, hworker, hsame]

theorem job_refresh : notes.refresh.job = notes.job.takeLast.2 := by
  unfold refresh
  dsimp only
  split <;> rfl

theorem responded_refresh : notes.refresh.Responded := by
  intro job hjob
  rw [job_refresh] at hjob
  cases hjob

/-- A request that is neither dropped nor answered by the cache is the one that will be
held. -/
theorem target_request {now dur : ℕ} {force : Bool} {notesRef : Option String}
    (hresponded : notes.Responded) :
    (notes.request now dur force notesRef).1.target =
      if force = true ∨ (notes.isPending = false ∧
        notes.isOutdated now dur notesRef = true) then some notesRef else notes.target := by
  have hspawned : ∀ lastHash,
      (refresh { notes with job := notes.job.spawn (.request lastHash notesRef) }).target =
        some notesRef := by
    intro lastHash
    rw [target_refresh]
    · rw [target, AsyncSingleJob.latest_spawn]
      rfl
    · intro job hjob
      rw [AsyncSingleJob.last_spawn] at hjob
      exact hresponded job hjob
  unfold request
  cases force <;> cases hpending : notes.isPending <;>
    cases houtdated : notes.isOutdated now dur notesRef <;> simp [hspawned]

end AsyncNotes

section Runs

variable {repos : Set Repo} {notes : AsyncNotes Note} {event : NotesEvent Repo}

/-- The notes are those of the reference in one of the repositories. -/
def NotesResult.ListedIn (listNotes : Repo → Option String → List Note) (repos : Set Repo)
    (result : NotesResult Note) : Prop :=
  ∃ repo ∈ repos, result.notes = listNotes repo result.notesRef

/-- What is held, or waits to be taken, was listed. -/
structure AsyncNotes.Sound (listNotes : Repo → Option String → List Note)
    (repos : Set Repo) (notes : AsyncNotes Note) : Prop where
  responded : notes.Responded
  held : ∀ last, notes.last = some last → last.2.ListedIn listNotes repos
  jobs : notes.job.All fun job =>
    ∀ last, job.result = some last → last.2.ListedIn listNotes repos

theorem AsyncNotes.sound_new : AsyncNotes.Sound listNotes repos (.new : AsyncNotes Note) :=
  ⟨nofun, nofun, nofun, nofun, nofun⟩

theorem AsyncNotes.Sound.refresh (hsound : notes.Sound listNotes repos) :
    notes.refresh.Sound listNotes repos := by
  refine ⟨responded_refresh, ?_, ?_⟩
  · unfold AsyncNotes.refresh AsyncSingleJob.takeLast
    dsimp only
    split
    · rename_i last htaken
      rintro _ ⟨⟩
      obtain ⟨job, hjob, hresult⟩ := Option.bind_eq_some_iff.mp htaken
      exact hsound.jobs.last job hjob last hresult
    · exact hsound.held
  · rw [job_refresh]
    exact hsound.jobs.takeLast

theorem AsyncNotes.Sound.request (hsound : notes.Sound listNotes repos) (now dur : ℕ)
    (force : Bool) (notesRef : Option String) :
    (notes.request now dur force notesRef).1.Sound listNotes repos := by
  unfold AsyncNotes.request
  split_ifs
  · exact hsound
  · exact hsound
  · apply AsyncNotes.Sound.refresh
    refine ⟨?_, hsound.held, hsound.jobs.spawn nofun⟩
    intro job hjob
    rw [AsyncSingleJob.last_spawn] at hjob
    exact hsound.responded job hjob

theorem AsyncNotes.Sound.finish (hsound : notes.Sound listNotes repos) (now : ℕ)
    {repo : Repo} (hrepo : repo ∈ repos) :
    AsyncNotes.Sound listNotes repos { notes with
      job := notes.job.finish (AsyncNotesJob.run hash listNotes now repo) } := by
  refine ⟨?_, hsound.held, hsound.jobs.finish ?_⟩
  · unfold AsyncSingleJob.finish
    split
    · rename_i task hworker
      rintro _ ⟨⟩
      cases task <;> exact ⟨_, rfl⟩
    · exact hsound.responded
  · intro task htask
    cases task with
    | request lastHash notesRef =>
        rintro _ ⟨⟩
        exact ⟨repo, hrepo, rfl⟩
    | response time result => exact htask

/-- Every step keeps it, if a job lists one of the repositories. -/
theorem AsyncNotes.Sound.next (hsound : notes.Sound listNotes repos)
    (hrepos : ∀ now repo, event = .finish now repo → repo ∈ repos) :
    ((notesMachine hash listNotes).next notes event).Sound listNotes repos := by
  cases event with
  | request now dur force notesRef => exact hsound.request now dur force notesRef
  | finish now repo => exact hsound.finish now (hrepos now repo rfl)
  | settle =>
      refine ⟨?_, hsound.held, hsound.jobs.settle⟩
      intro job hjob
      exact hsound.responded job (AsyncSingleJob.last_settle ▸ hjob)
  | checkForJob =>
      refine ⟨?_, hsound.held, hsound.jobs.checkForJob⟩
      intro job hjob
      exact hsound.responded job (AsyncSingleJob.last_checkForJob ▸ hjob)
  | refresh => exact hsound.refresh

/-- Other steps than requests leave what will be held. -/
theorem target_next (hresponded : notes.Responded) (hquiet : ¬ event.IsRequest) :
    ((notesMachine hash listNotes).next notes event).target = notes.target := by
  cases event with
  | request now dur force notesRef => exact absurd trivial hquiet
  | finish now repo =>
      have hlatest := @AsyncSingleJob.latest_finish _ notes.job _ _ _
        (@AsyncNotesJob.notesRef_run Note Repo hash listNotes now repo)
      exact congrArg (Option.or · (notes.last.map fun last => last.2.notesRef)) hlatest
  | settle =>
      have hlatest := @AsyncSingleJob.latest_settle _ notes.job
      simp only [Machine.next, notesMachine, AsyncNotes.target, hlatest]
  | checkForJob =>
      have hlatest := @AsyncSingleJob.latest_checkForJob _ notes.job
      simp only [Machine.next, notesMachine, AsyncNotes.target, hlatest]
  | refresh => exact AsyncNotes.target_refresh hresponded

end Runs

section Requests

variable {before later : List (NotesEvent Repo)} {now dur : ℕ} {force : Bool}
  {notesRef : Option String}

/-- The repositories of which notes were listed. -/
def listedRepos (events : List (NotesEvent Repo)) : Set Repo :=
  {repo | ∃ now, .finish now repo ∈ events}

/-- What is held after a run was listed in it. -/
theorem AsyncNotes.Sound.run {notes : AsyncNotes Note} {repos : Set Repo}
    {events : List (NotesEvent Repo)} (hsound : notes.Sound listNotes repos)
    (hrepos : listedRepos events ⊆ repos) :
    ((notesMachine hash listNotes).run notes events).Sound listNotes repos := by
  apply Machine.run_preserves
  · intro reached event hevent hreached
    apply hreached.next
    rintro now repo rfl
    exact hrepos ⟨now, hevent⟩
  · exact hsound

/-- After a run, the notes of the reference are held. -/
def HoldsNotesOf (hash : List Note → UInt64) (listNotes : Repo → Option String → List Note)
    (events : List (NotesEvent Repo)) (notesRef : Option String) : Prop :=
  ∃ time result,
    ((notesMachine hash listNotes).run .new events).last = some (time, result) ∧
    result.notesRef = notesRef ∧
      ∃ repo ∈ listedRepos events, result.notes = listNotes repo notesRef

/-- When all jobs were run and taken, the target is held. -/
theorem holdsNotesOf_iff_target {events : List (NotesEvent Repo)}
    (hsettled : ((notesMachine hash listNotes).run .new events).job.Settled) :
    HoldsNotesOf hash listNotes events notesRef ↔
      ((notesMachine hash listNotes).run .new events).target = some notesRef := by
  have hsound := @AsyncNotes.Sound.run _ _ hash listNotes .new _ events
    AsyncNotes.sound_new (Set.Subset.refl _)
  generalize hnotes : (notesMachine hash listNotes).run .new events = notes at *
  obtain ⟨hpending, hnext, hlast⟩ := hsettled
  have hlatest : notes.job.latest = none := by
    unfold AsyncSingleJob.isPending at hpending
    split at hpending
    · rename_i hworker
      simp [AsyncSingleJob.latest, hworker, hnext, hlast]
    · cases hpending
  rw [HoldsNotesOf, hnotes, AsyncNotes.target, hlatest, Option.map_none, Option.none_or,
    Option.map_eq_some_iff]
  constructor
  · rintro ⟨time, result, hheld, rfl, -⟩
    exact ⟨(time, result), hheld, rfl⟩
  · rintro ⟨last, hheld, rfl⟩
    exact ⟨last.1, last.2, hheld, rfl, hsound.held last hheld⟩

/-- The steps after the most recent request leave what will be held. -/
theorem target_run (hquiet : ∀ event ∈ later, ¬ event.IsRequest)
    {notes : AsyncNotes Note} (hsound : notes.Sound listNotes Set.univ) :
    ((notesMachine hash listNotes).run notes later).target = notes.target := by
  suffices hreached : ((notesMachine hash listNotes).run notes later).Sound listNotes
      Set.univ ∧ ((notesMachine hash listNotes).run notes later).target = notes.target from
    hreached.2
  apply (notesMachine hash listNotes).run_preserves fun reached =>
    reached.Sound listNotes Set.univ ∧ reached.target = notes.target
  · rintro reached event hevent ⟨hreached, htarget⟩
    refine ⟨hreached.next fun _ _ _ => trivial, ?_⟩
    rw [target_next hreached.responded (hquiet event hevent), htarget]
  · exact ⟨hsound, rfl⟩

/-- When all jobs were run and taken, the notes of the most recent request are held exactly
when that request was kept. -/
theorem holdsNotesOf_iff_keeps (hquiet : ∀ event ∈ later, ¬ event.IsRequest)
    (hsettled : ((notesMachine hash listNotes).run .new
      (before ++ .request now dur force notesRef :: later)).job.Settled) :
    HoldsNotesOf hash listNotes (before ++ .request now dur force notesRef :: later)
        notesRef ↔
      ((notesMachine hash listNotes).run .new before).Keeps now dur force notesRef := by
  have hsound := @AsyncNotes.Sound.run _ _ hash listNotes .new Set.univ before
    AsyncNotes.sound_new (Set.subset_univ _)
  have htarget := @target_run _ _ hash listNotes _ hquiet _
    (hsound.request now dur force notesRef)
  rw [holdsNotesOf_iff_target hsettled, Machine.run_append, Machine.run_cons]
  change ((notesMachine hash listNotes).run (AsyncNotes.request _ now dur force notesRef).1
    later).target = _ ↔ _
  rw [htarget, AsyncNotes.target_request hsound.responded, AsyncNotes.Keeps, ← or_assoc]
  split_ifs with hmade
  · exact iff_of_true rfl (.inl hmade)
  · exact (or_iff_right hmade).symm

/-- One repository with a note for each reference, which is its name. -/
def namesAsNotes (_ : Unit) (notesRef : Option String) : List String := [notesRef.getD ""]

/-- The first request is done when the second one is made. -/
def oneByOne : List (NotesEvent Unit) :=
  [.request 0 10 false (some "refs/notes/commits"), .finish 1 (), .settle, .checkForJob]

theorem holdsNotesOf_oneByOne :
    HoldsNotesOf (fun _ => 0) namesAsNotes
      (oneByOne ++ .request 2 0 true (some "refs/notes/nostr") ::
        [.finish 3 (), .settle, .checkForJob, .refresh]) (some "refs/notes/nostr") := by
  have hquiet : ∀ event ∈ ([.finish 3 (), .settle, .checkForJob, .refresh] :
      List (NotesEvent Unit)), ¬ event.IsRequest := by simp [NotesEvent.IsRequest]
  exact (holdsNotesOf_iff_keeps hquiet ⟨rfl, rfl, rfl⟩).mpr (.inl rfl)

/-- The second request is made while the job of the first one is pending. -/
def overlapping : List (NotesEvent Unit) :=
  [.request 0 10 false (some "refs/notes/commits"),
    .request 1 10 false (some "refs/notes/nostr"), .finish 2 (), .settle, .checkForJob,
    .refresh]

/-- The notes of the first request are held. -/
theorem not_holdsNotesOf_overlapping :
    ((notesMachine (fun _ => 0) namesAsNotes).run .new overlapping).job.Settled ∧
      ¬ HoldsNotesOf (fun _ => 0) namesAsNotes overlapping (some "refs/notes/nostr") := by
  have hsettled :
      ((notesMachine (fun _ => 0) namesAsNotes).run .new overlapping).job.Settled :=
    ⟨rfl, rfl, rfl⟩
  refine ⟨hsettled, fun hholds => ?_⟩
  have htarget := (holdsNotesOf_iff_target hsettled).mp hholds
  revert htarget
  decide

end Requests

end Target

end Asyncgit

end Gnostr
