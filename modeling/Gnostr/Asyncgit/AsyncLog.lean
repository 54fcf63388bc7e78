/-
`asyncgit/src/lib/revlog.rs` and the commit list that is fed from it: a thread reads the
log of the repository in batches while its owner takes out what is there, starts a new walk
when the head has moved, and the head moves at any time.
-/
import Gnostr.Asyncgit.LogWalker
import Gnostr.Lib.Machine

namespace Gnostr

namespace Asyncgit

universe u v w

variable {α : Type u} {τ : Type v} {ε : Type w}

section Source

inductive FetchStatus where
  | pending
  | noChange
  | started
deriving DecidableEq, Repr

/-- The thread of a walk. -/
inductive LogWorker (α : Type u) where
  | idle
  | spawned
  | walking (walker : LogWalker α)
  | through
  | panicked
deriving DecidableEq, Repr

structure AsyncLog (α : Type u) where
  current : List α
  currentHead : Option α
  pending : Bool
  partialExtract : Bool
deriving DecidableEq, Repr

def limitCount : ℕ := 3000

/-- The log, its thread, the head of the repository and the list that is shown.  `source`
is the commit the last walk began with. -/
structure LogSystem (α : Type u) where
  log : AsyncLog α
  worker : LogWorker α
  head : Option α
  shown : List α
  source : Option α
deriving DecidableEq, Repr

/-- What happens.  Between two looks of `fetch` at the repository its head can move, and
the second one can fail. -/
inductive LogEvent (α : Type u) where
  | moveHead (head : Option α)
  | fetch (reopened : Option (Option α))
  | getSlice (startIndex amount : ℕ)
  | getItems
  | extractItems
  | workerStart
  | workerRead
  | workerFinish
deriving DecidableEq, Repr

inductive LogOutput (α : Type u) where
  | status (status : FetchStatus)
  | items (commits : List α)
  | failed (message : String)
deriving DecidableEq, Repr

def faultyUsage : String :=
  "Faulty usage of AsyncLog: Cannot partially extract items and rely on get_items slice to still work!"

namespace AsyncLog

def new : AsyncLog α := ⟨[], none, false, false⟩

def getSlice (log : AsyncLog α) (startIndex amount : ℕ) : LogOutput α :=
  if log.partialExtract then .failed faultyUsage
  else
    let first := min startIndex log.current.length
    .items ((log.current.take (min (first + amount) log.current.length)).drop first)

def getItems (log : AsyncLog α) : LogOutput α :=
  if log.partialExtract then .failed faultyUsage else .items log.current

def extractItems (log : AsyncLog α) : List α × AsyncLog α :=
  (log.current, { log with partialExtract := true, current := [] })

def headChanged [DecidableEq α] (log : AsyncLog α) (head : Option α) : Bool :=
  match head with
  | some head => some head ≠ log.currentHead
  | none => false

def clear (log : AsyncLog α) : AsyncLog α :=
  { log with current := [], currentHead := none, partialExtract := false }

end AsyncLog

/-- `IndexSet::extend`. -/
def indexExtend [DecidableEq α] (list new : List α) : List α :=
  new.foldl (fun list c => if c ∈ list then list else list ++ [c]) list

variable [DecidableEq α] [Preorder τ] {time : α → τ} (heap : MaxQueue α time)
  (parents : α → List α) (peel : α → Option α) (filter : Option (α → Except ε Bool))

namespace LogSystem

def init : LogSystem α := ⟨.new, .idle, none, [], none⟩

/-- `fetch`, and the list its owner clears when a walk is started. -/
def fetch (s : LogSystem α) (reopened : Option (Option α)) : LogSystem α × LogOutput α :=
  if s.log.pending then (s, .status .pending)
  else if !s.log.headChanged s.head then (s, .status .noChange)
  else
    let log := { s.log with pending := true }.clear
    match reopened with
    | none => ({ s with log := log }, .failed "repository could not be opened")
    | some head =>
        let log := { log with currentHead := head <|> log.currentHead }
        ({ s with log := log, worker := .spawned, head := head, shown := [], source := none },
          .status .started)

/-- The thread opens its walker. -/
def workerStart (s : LogSystem α) : LogSystem α :=
  match s.worker with
  | .spawned =>
      match s.head.bind peel with
      | some head => { s with worker := .walking (.new head limitCount), source := some head }
      | none => { s with worker := .panicked }
  | _ => s

/-- One turn of the loop of the thread, up to the end of its sleep. -/
def workerRead (s : LogSystem α) : LogSystem α :=
  match s.worker with
  | .walking walker =>
      match LogWalker.read heap parents filter limitCount walker [] with
      | none => s
      | some (.error _, _, _) => { s with worker := .panicked }
      | some (.ok count, walker, entries) =>
          { s with
            log := { s.log with current := s.log.current ++ entries }
            worker := if count = 0 then .through else .walking walker }
  | _ => s

def workerFinish (s : LogSystem α) : LogSystem α :=
  match s.worker with
  | .through => { s with log := { s.log with pending := false }, worker := .idle }
  | _ => s

end LogSystem

def logMachine : Machine (LogSystem α) (LogEvent α) (LogOutput α) where
  step s event :=
    match event with
    | .moveHead head => ({ s with head := head }, [])
    | .fetch reopened => ((s.fetch reopened).1, [(s.fetch reopened).2])
    | .getSlice startIndex amount => (s, [s.log.getSlice startIndex amount])
    | .getItems => (s, [s.log.getItems])
    | .extractItems =>
        ({ s with
            log := s.log.extractItems.2
            shown := indexExtend s.shown s.log.extractItems.1 },
          [.items s.log.extractItems.1])
    | .workerStart => (s.workerStart peel, [])
    | .workerRead => (s.workerRead heap parents filter, [])
    | .workerFinish => (s.workerFinish, [])

end Source

section Invariant

open LogWalker (kept)

variable [DecidableEq α] [Preorder τ] {time : α → τ} {heap : MaxQueue α time}
  {parents : α → List α} {peel : α → Option α} {filter : Option (α → Except ε Bool)}

theorem indexExtend_of_nodup {list new : List α} (hnodup : (list ++ new).Nodup) :
    indexExtend list new = list ++ new := by
  induction new generalizing list with
  | nil => simp [indexExtend]
  | cons c new ih =>
      have hfresh : c ∉ list := by
        intro hc
        exact (List.nodup_append.mp hnodup).2.2 c hc c List.mem_cons_self rfl
      have hrest := @ih (list ++ [c]) (by simpa using hnodup)
      simpa [indexExtend, hfresh] using hrest

/-- The first ones of the commits that a walk from a head has read so far. -/
def PartOfLog (parents : α → List α) (filter : Option (α → Except ε Bool)) (list : List α) :
    Prop :=
  ∃ head done s, Frontier.Explored parents head done s ∧ list <+: kept filter done

/-- All commits of the walk from a head. -/
def WholeLog (parents : α → List α) (filter : Option (α → Except ε Bool)) (source : Option α)
    (list : List α) : Prop :=
  ∃ head ∈ source, ∃ order s, Frontier.Explored parents head order s ∧ s.queue = [] ∧
    list = kept filter order

omit [DecidableEq α] in
theorem PartOfLog.nodup {list : List α} (hpart : PartOfLog parents filter list) :
    list.Nodup := by
  obtain ⟨head, done, s, hexplored, hlist⟩ := hpart
  exact ((List.nodup_append.mp hexplored.nodup).1.filter _).sublist hlist.sublist

omit [DecidableEq α] in
theorem WholeLog.part {source : Option α} {list : List α}
    (hwhole : WholeLog parents filter source list) : PartOfLog parents filter list := by
  obtain ⟨head, -, order, s, hexplored, -, rfl⟩ := hwhole
  exact ⟨head, order, s, hexplored, List.prefix_rfl⟩

omit [DecidableEq α] in
/-- The whole log of a head has every commit that can be reached from it and stays. -/
theorem WholeLog.mem_iff {head c : α} {list : List α}
    (hwhole : WholeLog parents filter (some head) list) :
    c ∈ list ↔ Relation.ReflTransGen (fun a b => b ∈ parents a) head c ∧
      LogWalker.includes filter c = .ok true := by
  obtain ⟨_, hhead, order, s, hexplored, hqueue, rfl⟩ := hwhole
  obtain rfl := Option.some.inj hhead
  rw [kept, List.mem_filter, (hexplored.complete hqueue).2]
  apply and_congr_right
  intro _
  cases LogWalker.includes filter c <;> simp [Except.toOption]

namespace LogSystem

/-- What the thread has done so far. -/
def WorkerSound (parents : α → List α) (filter : Option (α → Except ε Bool))
    (s : LogSystem α) : Prop :=
  match s.worker with
  | .idle => s.log.pending = false →
      s.shown ++ s.log.current = [] ∧ s.source = none ∨
        WholeLog parents filter s.source (s.shown ++ s.log.current)
  | .spawned => s.log.pending = true ∧ s.shown ++ s.log.current = []
  | .walking walker => s.log.pending = true ∧ walker.limit = limitCount ∧
      ∃ head ∈ s.source, ∃ done, Frontier.Explored parents head done walker.frontier ∧
        s.shown ++ s.log.current = kept filter done
  | .through => s.log.pending = true ∧
      WholeLog parents filter s.source (s.shown ++ s.log.current)
  | .panicked => s.log.pending = true

structure Sound (parents : α → List α) (filter : Option (α → Except ε Bool))
    (s : LogSystem α) : Prop where
  part : s.shown ++ s.log.current = [] ∨
    PartOfLog parents filter (s.shown ++ s.log.current)
  unextracted : s.log.partialExtract = false → s.shown = [] ∨
    s.log.current = [] ∧ s.worker = .idle ∧ s.log.pending = true
  worker : s.WorkerSound parents filter

omit [DecidableEq α] in
theorem Sound.nodup {s : LogSystem α} (hs : s.Sound parents filter) :
    (s.shown ++ s.log.current).Nodup := by
  rcases hs.part with hnil | hpart
  · simp [hnil]
  · exact hpart.nodup

omit [DecidableEq α] in
theorem sound_init : (init : LogSystem α).Sound parents filter where
  part := Or.inl rfl
  unextracted _ := Or.inl rfl
  worker _ := Or.inl ⟨rfl, rfl⟩

omit [DecidableEq α] in
theorem Sound.shown {s : LogSystem α} (hs : s.Sound parents filter) :
    s.shown = [] ∨ PartOfLog parents filter s.shown := by
  rcases hs.part with hnil | ⟨head, done, t, hexplored, hlist⟩
  · exact Or.inl (List.append_eq_nil_iff.mp hnil).1
  · exact Or.inr ⟨head, done, t, hexplored, (List.prefix_append _ _).trans hlist⟩

omit [DecidableEq α] in
theorem Sound.idle_of_not_pending {s : LogSystem α} (hs : s.Sound parents filter)
    (hpending : s.log.pending = false) : s.worker = .idle := by
  have hworker := hs.worker
  cases hcase : s.worker <;> simp_all [WorkerSound]

theorem sound_fetch {s : LogSystem α} (hs : s.Sound parents filter)
    (reopened : Option (Option α)) : (s.fetch reopened).1.Sound parents filter := by
  rw [fetch]
  split_ifs with hpending hchanged
  · exact hs
  · exact hs
  · have hidle := hs.idle_of_not_pending (Bool.not_eq_true _ ▸ hpending)
    cases reopened with
    | none =>
        refine ⟨by simpa [AsyncLog.clear] using hs.shown, fun _ => Or.inr ⟨rfl, hidle, rfl⟩, ?_⟩
        simp [WorkerSound, hidle, AsyncLog.clear]
    | some head =>
        exact ⟨Or.inl rfl, fun _ => Or.inl rfl, rfl, rfl⟩

omit [DecidableEq α] in
theorem sound_workerStart {s : LogSystem α} (hs : s.Sound parents filter) :
    (s.workerStart peel).Sound parents filter := by
  rw [workerStart]
  split
  · rename_i hworker
    have hspawned := hs.worker
    simp only [WorkerSound, hworker] at hspawned
    obtain ⟨hpending, hnil⟩ := hspawned
    split
    · rename_i head hhead
      exact ⟨Or.inl hnil, fun hpartial => Or.inl (List.append_eq_nil_iff.mp hnil).1, hpending,
        rfl, head, rfl, [], Frontier.explored_start, hnil⟩
    · exact ⟨Or.inl hnil, fun hpartial => Or.inl (List.append_eq_nil_iff.mp hnil).1, hpending⟩
  · exact hs

omit [DecidableEq α] in
theorem sound_workerFinish {s : LogSystem α} (hs : s.Sound parents filter) :
    s.workerFinish.Sound parents filter := by
  rw [workerFinish]
  split
  · rename_i hworker
    have hthrough := hs.worker
    simp only [WorkerSound, hworker] at hthrough
    refine ⟨hs.part, fun hpartial => ?_, fun _ => Or.inr hthrough.2⟩
    exact (hs.unextracted hpartial).imp id fun h => by simp [hworker] at h
  · exact hs

theorem sound_workerRead (hreturn : ∀ head, Frontier.NoReturn parents head) {s : LogSystem α}
    (hs : s.Sound parents filter) : (s.workerRead heap parents filter).Sound parents filter := by
  rw [workerRead]
  split
  · rename_i walker hworker
    have hwalking := hs.worker
    simp only [WorkerSound, hworker] at hwalking
    obtain ⟨hpending, hlimit, head, hhead, done, hexplored, hlist⟩ := hwalking
    have hfresh : s.log.partialExtract = false → s.shown = [] := fun hpartial =>
      (hs.unextracted hpartial).resolve_right fun h => by simp [hworker] at h
    split
    · exact hs
    · exact ⟨hs.part, fun hpartial => Or.inl (hfresh hpartial), hpending⟩
    · rename_i count final entries hread
      obtain ⟨list, hemits, hfinal, rfl, hcount, -, hend⟩ := LogWalker.readLoop_spec hread
      have hmore := hexplored.emits (hreturn head) hemits
      have hall : s.shown ++ (s.log.current ++ ([] ++ kept filter list)) =
          kept filter (done ++ list) := by
        rw [LogWalker.kept_append, ← hlist, List.nil_append, List.append_assoc]
      refine ⟨Or.inr ⟨head, _, _, hmore, hall ▸ List.prefix_rfl⟩,
        fun hpartial => Or.inl (hfresh hpartial), ?_⟩
      simp only [WorkerSound]
      by_cases hzero : count = 0
      · have hnil : list = [] := List.length_eq_zero_iff.mp (by omega)
        have hqueue : final.commits = [] := hend.resolve_right fun h => h.1 hnil
        rw [if_pos hzero]
        exact ⟨hpending, head, hhead, _, _, hmore, hqueue, hall⟩
      · rw [if_neg hzero]
        exact ⟨hpending, hfinal.trans hlimit, head, hhead, _, hmore, hall⟩
  · exact hs

theorem sound_extractItems {s : LogSystem α} (hs : s.Sound parents filter) :
    ({ s with log := s.log.extractItems.2
              shown := indexExtend s.shown s.log.extractItems.1 } : LogSystem α).Sound
      parents filter := by
  have hall : indexExtend s.shown s.log.extractItems.1 ++ s.log.extractItems.2.current =
      s.shown ++ s.log.current := by
    rw [AsyncLog.extractItems, indexExtend_of_nodup hs.nodup, List.append_nil]
  have hworker := hs.worker
  refine ⟨?_, nofun, ?_⟩
  · rw [hall]
    exact hs.part
  · unfold WorkerSound at hworker ⊢
    simp only [hall]
    exact hworker

theorem sound_next (hreturn : ∀ head, Frontier.NoReturn parents head) {s : LogSystem α}
    (hs : s.Sound parents filter) (event : LogEvent α) :
    ((logMachine heap parents peel filter).next s event).Sound parents filter := by
  cases event with
  | moveHead head => exact ⟨hs.part, hs.unextracted, hs.worker⟩
  | fetch reopened => exact sound_fetch hs reopened
  | getSlice startIndex amount => exact hs
  | getItems => exact hs
  | extractItems => exact sound_extractItems hs
  | workerStart => exact sound_workerStart hs
  | workerRead => exact sound_workerRead hreturn hs
  | workerFinish => exact sound_workerFinish hs

theorem sound_run (hreturn : ∀ head, Frontier.NoReturn parents head)
    (events : List (LogEvent α)) :
    ((logMachine heap parents peel filter).run init events).Sound parents filter :=
  (logMachine heap parents peel filter).run_preserves (fun s => s.Sound parents filter)
    (fun _ event _ hs => sound_next hreturn hs event) sound_init

/-- Whatever comes in between, what is shown and what waits to be shown is the beginning of
the log of one head, no commit twice, and once the thread is through it is all of it. -/
theorem shown_run (hreturn : ∀ head, Frontier.NoReturn parents head)
    (events : List (LogEvent α)) :
    let s := (logMachine heap parents peel filter).run init events
    (s.shown ++ s.log.current).Nodup ∧
      (s.shown ++ s.log.current = [] ∨
        PartOfLog parents filter (s.shown ++ s.log.current)) ∧
      (∀ list, s.log.getItems = .items list → list = [] ∨ PartOfLog parents filter list) ∧
      (s.worker = .through ∨ s.worker = .idle ∧ s.log.pending = false →
        ∀ head ∈ s.source, ∀ c, c ∈ s.shown ++ s.log.current ↔
          Relation.ReflTransGen (fun a b => b ∈ parents a) head c ∧
            LogWalker.includes filter c = .ok true) := by
  intro s
  have hs : s.Sound parents filter := sound_run hreturn events
  refine ⟨hs.nodup, hs.part, ?_, ?_⟩
  · intro list hlist
    rw [AsyncLog.getItems] at hlist
    split_ifs at hlist with hpartial
    obtain rfl := LogOutput.items.inj hlist
    rcases hs.unextracted (Bool.not_eq_true _ ▸ hpartial) with hshown | ⟨hnil, -⟩
    · simpa [hshown] using hs.part
    · exact Or.inl hnil
  · intro hdone head hhead c
    have hworker := hs.worker
    have hwhole : WholeLog parents filter s.source (s.shown ++ s.log.current) := by
      rcases hdone with hthrough | ⟨hidle, hpending⟩
      · simp only [WorkerSound, hthrough] at hworker
        exact hworker.2
      · simp only [WorkerSound, hidle] at hworker
        refine (hworker hpending).resolve_left fun hnone => ?_
        simp [hnone.2] at hhead
    rw [Option.mem_def.mp hhead] at hwhole
    exact hwhole.mem_iff

/-- A walk is said to be under way and no thread is left that could end it. -/
def Stuck (s : LogSystem α) : Prop :=
  s.log.pending = true ∧ (s.worker = .idle ∨ s.worker = .panicked)

/-- The steps that fail behind the point where the walk is announced. -/
def Fails (heap : MaxQueue α time) (parents : α → List α) (peel : α → Option α)
    (filter : Option (α → Except ε Bool)) (s : LogSystem α) : LogEvent α → Prop
  | .fetch none => s.log.pending = false ∧ s.log.headChanged s.head = true
  | .workerStart => s.worker = .spawned ∧ s.head.bind peel = none
  | .workerRead => ∃ walker error final out, s.worker = .walking walker ∧
      LogWalker.read heap parents filter limitCount walker [] =
        some (.error error, final, out)
  | _ => False

theorem stuck_next_iff {s : LogSystem α} (hs : s.Sound parents filter) (event : LogEvent α) :
    ((logMachine heap parents peel filter).next s event).Stuck ↔
      s.Stuck ∨ s.Fails heap parents peel filter event := by
  cases event with
  | moveHead head => simp [Machine.next, logMachine, Stuck, Fails]
  | getSlice startIndex amount => simp [Machine.next, logMachine, Stuck, Fails]
  | getItems => simp [Machine.next, logMachine, Stuck, Fails]
  | extractItems => simp [Machine.next, logMachine, Stuck, Fails, AsyncLog.extractItems]
  | fetch reopened =>
      cases hpending : s.log.pending with
      | true => cases reopened <;> simp [Machine.next, logMachine, fetch, Stuck, Fails, hpending]
      | false =>
          have hidle := hs.idle_of_not_pending hpending
          cases hchanged : s.log.headChanged s.head <;> cases reopened <;>
            simp [Machine.next, logMachine, fetch, Stuck, Fails, hpending, hchanged, hidle,
              AsyncLog.clear]
  | workerStart =>
      have hworker := hs.worker
      cases hcase : s.worker with
      | spawned =>
          simp only [WorkerSound, hcase] at hworker
          cases hpeel : s.head.bind peel <;>
            simp [Machine.next, logMachine, workerStart, Stuck, Fails, hcase, hpeel, hworker]
      | idle => simp [Machine.next, logMachine, workerStart, Stuck, Fails, hcase]
      | walking walker => simp [Machine.next, logMachine, workerStart, Stuck, Fails, hcase]
      | through => simp [Machine.next, logMachine, workerStart, Stuck, Fails, hcase]
      | panicked => simp [Machine.next, logMachine, workerStart, Stuck, Fails, hcase]
  | workerRead =>
      have hworker := hs.worker
      cases hcase : s.worker with
      | walking walker =>
          simp only [WorkerSound, hcase] at hworker
          cases hread : LogWalker.read heap parents filter limitCount walker [] with
          | none => simp [Machine.next, logMachine, workerRead, Stuck, Fails, hcase, hread]
          | some outcome =>
              obtain ⟨answer, final, out⟩ := outcome
              cases answer with
              | error error =>
                  simp [Machine.next, logMachine, workerRead, Stuck, Fails, hcase, hread,
                    hworker.1]
              | ok count =>
                  by_cases hzero : count = 0 <;>
                    simp [Machine.next, logMachine, workerRead, Stuck, Fails, hcase, hread,
                      hzero]
      | idle => simp [Machine.next, logMachine, workerRead, Stuck, Fails, hcase]
      | spawned => simp [Machine.next, logMachine, workerRead, Stuck, Fails, hcase]
      | through => simp [Machine.next, logMachine, workerRead, Stuck, Fails, hcase]
      | panicked => simp [Machine.next, logMachine, workerRead, Stuck, Fails, hcase]
  | workerFinish =>
      cases hcase : s.worker <;>
        simp [Machine.next, logMachine, workerFinish, Stuck, Fails, hcase]

/-- Only `fetch` answers with a status. -/
theorem status_of_emit {s : LogSystem α} {event : LogEvent α} {status : FetchStatus}
    (hstatus : .status status ∈ (logMachine heap parents peel filter).emit s event) :
    ∃ reopened, (s.fetch reopened).2 = .status status := by
  cases event with
  | fetch reopened => exact ⟨reopened, (List.mem_singleton.mp hstatus).symm⟩
  | getSlice startIndex amount =>
      have houtput := List.mem_singleton.mp hstatus
      rw [AsyncLog.getSlice] at houtput
      split at houtput <;> exact absurd houtput nofun
  | getItems =>
      have houtput := List.mem_singleton.mp hstatus
      rw [AsyncLog.getItems] at houtput
      split at houtput <;> exact absurd houtput nofun
  | extractItems => exact absurd (List.mem_singleton.mp hstatus) nofun
  | moveHead head => exact absurd hstatus List.not_mem_nil
  | workerStart => exact absurd hstatus List.not_mem_nil
  | workerRead => exact absurd hstatus List.not_mem_nil
  | workerFinish => exact absurd hstatus List.not_mem_nil

theorem status_of_stuck (hreturn : ∀ head, Frontier.NoReturn parents head) {s : LogSystem α}
    (hs : s.Sound parents filter) (hstuck : s.Stuck) (more : List (LogEvent α)) :
    ∀ status, .status status ∈ (logMachine heap parents peel filter).trace s more →
      status = .pending := by
  induction more generalizing s with
  | nil => exact nofun
  | cons event more ih =>
      intro status hstatus
      rcases List.mem_append.mp hstatus with hnow | hlater
      · obtain ⟨reopened, hfetch⟩ := status_of_emit hnow
        rw [fetch, if_pos hstuck.1] at hfetch
        exact (LogOutput.status.inj hfetch).symm
      · exact ih (sound_next hreturn hs event)
          ((stuck_next_iff hs event).mpr (Or.inl hstuck)) status hlater

/-- A run gets stuck exactly by a step that fails behind the announcement; from then on
every `fetch` answers that a walk is under way. -/
theorem stuck_run_iff (hreturn : ∀ head, Frontier.NoReturn parents head)
    (events : List (LogEvent α)) :
    (¬ ((logMachine heap parents peel filter).run init events).Stuck ↔
      (logMachine heap parents peel filter).EachStep
        (fun s event => ¬ s.Fails heap parents peel filter event) init events) ∧
    (((logMachine heap parents peel filter).run init events).Stuck → ∀ more,
      ∀ status, .status status ∈ (logMachine heap parents peel filter).trace
        ((logMachine heap parents peel filter).run init events) more → status = .pending) := by
  have hinit : ¬ (init : LogSystem α).Stuck := fun hstuck => Bool.false_ne_true hstuck.1
  constructor
  · have hruns := @Machine.not_run_iff_eachStep _ _ _ (logMachine heap parents peel filter)
      (fun s => s.Sound parents filter) Stuck (Fails heap parents peel filter)
      (fun s event hs => sound_next hreturn hs event)
      (fun s event hs => stuck_next_iff hs event) init sound_init events
    exact hruns.trans (and_iff_right hinit)
  · exact fun hstuck more => status_of_stuck hreturn (sound_run hreturn events) hstuck more

end LogSystem

end Invariant

section Diamond

open LogWalker (diamond noReturn_diamond)

theorem shown_run_diamond :
    let s := (logMachine (MaxQueue.first id) diamond some
      (none : Option (ℕ → Except Unit Bool))).run LogSystem.init
        [.moveHead (some 3), .fetch (some (some 3)), .workerStart, .workerRead, .extractItems]
    (s.shown ++ s.log.current).Nodup :=
  (@LogSystem.shown_run ℕ ℕ Unit _ _ id (MaxQueue.first id) diamond some none noReturn_diamond
    [.moveHead (some 3), .fetch (some (some 3)), .workerStart, .workerRead, .extractItems]).1

theorem stuck_run_iff_diamond :
    ¬ ((logMachine (MaxQueue.first id) diamond some
        (none : Option (ℕ → Except Unit Bool))).run LogSystem.init
          [.moveHead (some 3), .fetch none]).Stuck ↔
      (logMachine (MaxQueue.first id) diamond some
        (none : Option (ℕ → Except Unit Bool))).EachStep
          (fun s event => ¬ s.Fails (MaxQueue.first id) diamond some
            (none : Option (ℕ → Except Unit Bool)) event)
          LogSystem.init [.moveHead (some 3), .fetch none] :=
  (@LogSystem.stuck_run_iff ℕ ℕ Unit _ _ id (MaxQueue.first id) diamond some none
    noReturn_diamond [.moveHead (some 3), .fetch none]).1

end Diamond

end Asyncgit

end Gnostr
