/-
The logical clock of `p2p/src/time.rs`: its state, the reading
`get_logical_utc`, and the synchronization `apply_bft_sync`.  Estimates and
slew rates are exact rationals, timestamps and durations are integers of
nanoseconds.
-/
import Mathlib.Data.Rat.Floor
import Mathlib.Data.List.Sort

namespace Gnostr

namespace Time

/-- Represents the synchronization status of the clock. -/
inductive ClockStatus where
  | init
  | synced
  | slewing
  | unreliable (reason : String)
deriving Repr, DecidableEq

/-- `matches!(status, ClockStatus::Unreliable(_))`. -/
def ClockStatus.isUnreliable : ClockStatus → Bool
  | .unreliable _ => true
  | _ => false

structure ClockCheckpoint where
  lastAdjustmentNs : ℤ
  lastSlewRate : ℚ
deriving Repr, DecidableEq

/-- Time estimation from a peer: the estimated clock difference `d` and its
accuracy bound `a`, in seconds. -/
structure Estimation where
  d : ℚ
  a : ℚ
deriving Repr, DecidableEq

/-- Core synchronization state machine.  UTC values count nanoseconds since
the epoch, instants count nanoseconds of the monotonic clock. -/
structure SyncState where
  baseUtc : ℤ
  baseInstant : ℕ
  slewRate : ℚ
  persistencePath : String
  lastEmittedUtc : ℤ
  lastSyncSuccess : ℕ
  f : ℕ
  status : ClockStatus
  pendingAlert : Option String
deriving Repr, DecidableEq

/-- The clocks of the host.  The program reads them one after the other;
reading number `n` returns `instant n` from the monotonic clock
(`Instant::now`, `elapsed`) or `utc n` from the wall clock (`Utc::now`). -/
structure Host where
  instant : ℕ → ℕ
  utc : ℕ → ℤ

/-- `since.elapsed()` as reading `n`: saturating, in nanoseconds. -/
def Host.elapsed (host : Host) (n since : ℕ) : ℕ :=
  host.instant n - since

/-- `q as i64`: rounded towards zero, saturating at the bounds of the type. -/
def truncToI64 (q : ℚ) : ℤ :=
  max (-2 ^ 63) (min (2 ^ 63 - 1) (if 0 ≤ q then ⌊q⌋ else ⌈q⌉))

/-- `x.clamp(lo, hi)`. -/
def clamp (x lo hi : ℚ) : ℚ :=
  if x < lo then lo else if hi < x then hi else x

/-- `num_nanoseconds().unwrap_or(0)`: nanoseconds that do not fit an `i64`
count as zero. -/
def numNanosecondsOrZero (ns : ℤ) : ℤ :=
  if -2 ^ 63 ≤ ns ∧ ns ≤ 2 ^ 63 - 1 then ns else 0

/-- `StdDuration::from_secs(300)` in nanoseconds. -/
def syncTimeoutNs : ℕ :=
  300 * 10 ^ 9

/-- `SyncState::new`, started at reading `n` with the checkpoint found in the
storage file, if one could be read and parsed.  Returns the number of the next
reading too. -/
def SyncState.new (host : Host) (n f : ℕ) (storageFile : String)
    (stored : Option ClockCheckpoint) : SyncState × ℕ :=
  match stored with
  | none =>
      (⟨host.utc n, host.instant (n + 1), 1, storageFile, host.utc (n + 2),
        host.instant (n + 3), f, .init, none⟩, n + 4)
  | some checkpoint =>
      (⟨host.utc (n + 1) + checkpoint.lastAdjustmentNs, host.instant (n + 2),
        checkpoint.lastSlewRate, storageFile, host.utc (n + 3),
        host.instant (n + 4), f, .synced, none⟩, n + 5)

/-- The timestamp `get_logical_utc` emits at reading `n`. -/
def SyncState.emittedUtc (host : Host) (n : ℕ) (s : SyncState) : ℤ :=
  let slewed := (host.elapsed n s.baseInstant : ℚ) * s.slewRate
  let current := s.baseUtc + truncToI64 slewed
  if current ≤ s.lastEmittedUtc then s.lastEmittedUtc + 1 else current

/-- The staleness check of `get_logical_utc` at reading `n`. -/
def SyncState.checkTimeout (host : Host) (n : ℕ) (s : SyncState) : SyncState :=
  if syncTimeoutNs < host.elapsed n s.lastSyncSuccess then
    { s with
      pendingAlert :=
        if s.status.isUnreliable then s.pendingAlert else some "Consensus Lost"
      status := .unreliable "Timeout" }
  else s

/-- Get the current logical UTC time.  Uses readings `n` and `n + 1`. -/
def SyncState.getLogicalUtc (host : Host) (n : ℕ) (s : SyncState) :
    ℤ × SyncState :=
  let current := s.emittedUtc host n
  (current, { s with lastEmittedUtc := current }.checkTimeout host (n + 1))

section ReadingFields

variable (host : Host) (n : ℕ) (s : SyncState)

/-- The timeout check touches the status and the alert only. -/
theorem checkTimeout_eq : ∃ status pendingAlert,
    s.checkTimeout host n =
      { s with status := status, pendingAlert := pendingAlert } := by
  rw [SyncState.checkTimeout]
  split
  · exact ⟨_, _, rfl⟩
  · exact ⟨s.status, s.pendingAlert, rfl⟩

/-- A reading touches the last emitted timestamp, the status and the alert
only. -/
theorem getLogicalUtc_eq : ∃ status pendingAlert,
    (s.getLogicalUtc host n).2 =
      { s with
        lastEmittedUtc := s.emittedUtc host n
        status := status
        pendingAlert := pendingAlert } :=
  checkTimeout_eq host (n + 1) { s with lastEmittedUtc := s.emittedUtc host n }

@[simp] theorem getLogicalUtc_lastEmittedUtc :
    (s.getLogicalUtc host n).2.lastEmittedUtc = s.emittedUtc host n := by
  obtain ⟨_, _, heq⟩ := getLogicalUtc_eq host n s
  rw [heq]

@[simp] theorem getLogicalUtc_baseUtc :
    (s.getLogicalUtc host n).2.baseUtc = s.baseUtc := by
  obtain ⟨_, _, heq⟩ := getLogicalUtc_eq host n s
  rw [heq]

@[simp] theorem getLogicalUtc_baseInstant :
    (s.getLogicalUtc host n).2.baseInstant = s.baseInstant := by
  obtain ⟨_, _, heq⟩ := getLogicalUtc_eq host n s
  rw [heq]

@[simp] theorem getLogicalUtc_slewRate :
    (s.getLogicalUtc host n).2.slewRate = s.slewRate := by
  obtain ⟨_, _, heq⟩ := getLogicalUtc_eq host n s
  rw [heq]

end ReadingFields

/-- What `apply_bft_sync` decides from the estimates alone.  `outOfRange`
stands for the panic of an index beyond the end of a sorted list. -/
inductive SyncDecision where
  | tooFew
  | outOfRange
  | accept (offset : ℚ)
  | partitioned
deriving Repr, DecidableEq

def Estimation.over (e : Estimation) : ℚ :=
  e.d + e.a

def Estimation.under (e : Estimation) : ℚ :=
  e.d - e.a

def syncDecision (f : ℕ) (estimates : List Estimation) : SyncDecision :=
  let count := estimates.length
  if count < 2 * f + 1 then .tooFew
  else
    let dOvers := (estimates.map Estimation.over).insertionSort (· ≤ ·)
    let dUnders := (estimates.map Estimation.under).insertionSort (· ≤ ·)
    match dOvers[f]?, dUnders[count - 1 - f]? with
    | some mMin, some mMax =>
        if mMin ≤ mMax then .accept ((mMin + mMax) / 2) else .partitioned
    | _, _ => .outOfRange

/-- A timestamp `get_logical_utc` returned, with the number of the host reading
it was taken from. -/
structure Stamp where
  reading : ℕ
  utc : ℤ
deriving Repr, DecidableEq

/-- The result of a call: the new state, the timestamps its own readings of
the logical clock returned, the number of the next host reading, and the
checkpoint written to the persistence path. -/
structure SyncOutcome where
  state : SyncState
  emitted : List Stamp
  nextReading : ℕ
  checkpoint : Option (String × ClockCheckpoint)
deriving Repr, DecidableEq

def SyncOutcome.withoutReading (n : ℕ) (s : SyncState) : SyncOutcome :=
  ⟨s, [], n, none⟩

/-- The state of the accepting branch before it writes its checkpoint: the
clock is rebased on its own reading and slewed towards the offset. -/
def SyncState.rebase (host : Host) (n : ℕ) (s : SyncState) (offset : ℚ) :
    SyncState :=
  let (base, read) := s.getLogicalUtc host n
  { read with
    baseUtc := base
    baseInstant := host.instant (n + 2)
    slewRate := 1 + clamp (offset / 30) (-5 / 1000) (5 / 1000)
    lastSyncSuccess := host.instant (n + 3)
    status := if |offset| < 1 / 100 then .synced else .slewing }

/-- Apply Byzantine Fault Tolerant synchronization from peer estimates. -/
def SyncState.applyBftSync (host : Host) (n : ℕ) (s : SyncState)
    (estimates : List Estimation) : SyncOutcome :=
  match syncDecision s.f estimates with
  | .tooFew | .outOfRange => .withoutReading n s
  | .accept offset =>
      let rebased := s.rebase host n offset
      let (now, final) := rebased.getLogicalUtc host (n + 4)
      let adjustment := numNanosecondsOrZero (now - host.utc (n + 6))
      ⟨final, [⟨n, rebased.baseUtc⟩, ⟨n + 4, now⟩], n + 7,
        some (final.persistencePath, ⟨adjustment, final.slewRate⟩)⟩
  | .partitioned =>
      .withoutReading n { s with
        status := .unreliable "Byzantine Error"
        pendingAlert := some "Byzantine Partition" }

end Time

end Gnostr
