/-
Runs of the logical clock: any interleaving of readings and synchronizations
over a monotonic host clock.  Timestamps only grow, and no synchronization
makes them run ahead of the elapsed time by more than the slew allows.
-/
import Gnostr.Lib.Machine
import Gnostr.Time.Sync
import Mathlib.Order.Monotone.Basic
import Mathlib.Tactic.Positivity

namespace Gnostr

namespace Time

/-- One call on the shared clock state. -/
inductive ClockOp where
  | read
  | sync (estimates : List Estimation)
deriving Repr, DecidableEq

/-- How many readings of the logical clock a call counts as. -/
def ClockOp.reads : ClockOp → ℕ
  | .read => 1
  | .sync _ => 2

/-- The clock as a machine: its state carries the number of the next host
reading, its outputs are all the timestamps `get_logical_utc` returned. -/
def clockMachine (host : Host) : Machine (SyncState × ℕ) ClockOp Stamp where
  step
    | (s, n), .read =>
        let (utc, read) := s.getLogicalUtc host n
        ((read, n + 2), [⟨n, utc⟩])
    | (s, n), .sync estimates =>
        let outcome := s.applyBftSync host n estimates
        ((outcome.state, outcome.nextReading), outcome.emitted)

/-- A synchronization either reads the clock twice, rebasing in between, or
leaves everything but the status and the alert alone. -/
theorem applyBftSync_cases (host : Host) (n : ℕ) (s : SyncState)
    (estimates : List Estimation) :
    (∃ offset adjustment,
      syncDecision s.f estimates = .accept offset ∧
      s.applyBftSync host n estimates =
        ⟨((s.rebase host n offset).getLogicalUtc host (n + 4)).2,
          [⟨n, s.emittedUtc host n⟩,
            ⟨n + 4, (s.rebase host n offset).emittedUtc host (n + 4)⟩], n + 7,
          adjustment⟩) ∨
    ∃ status pendingAlert,
      s.applyBftSync host n estimates = .withoutReading n
        { s with status := status, pendingAlert := pendingAlert } := by
  cases hdecision : syncDecision s.f estimates with
  | tooFew =>
      right
      exact ⟨s.status, s.pendingAlert, by rw [SyncState.applyBftSync, hdecision]⟩
  | outOfRange =>
      right
      exact ⟨s.status, s.pendingAlert, by rw [SyncState.applyBftSync, hdecision]⟩
  | accept offset =>
      left
      exact ⟨offset, _, rfl, by rw [SyncState.applyBftSync, hdecision]; rfl⟩
  | partitioned =>
      right
      exact ⟨_, _, by rw [SyncState.applyBftSync, hdecision]⟩

theorem rebase_lastEmittedUtc (host : Host) (n : ℕ) (s : SyncState)
    (offset : ℚ) :
    (s.rebase host n offset).lastEmittedUtc = s.emittedUtc host n :=
  getLogicalUtc_lastEmittedUtc host n s

theorem truncToI64_le {q : ℚ} (hq : 0 ≤ q) : (truncToI64 q : ℚ) ≤ q := by
  have hfloor : (0 : ℤ) ≤ ⌊q⌋ := Int.floor_nonneg.mpr hq
  have htrunc : truncToI64 q ≤ ⌊q⌋ := by
    rw [truncToI64, if_pos hq]
    omega
  exact (Int.cast_le.mpr htrunc).trans (Int.floor_le q)

/-- The invariant behind the drift bound, for a run started at the instant
`start` below `ceiling`, after `reads` readings of the logical clock: the line
through the base point has an admissible slope, and both the base point and
the last timestamp lie under the steepest admissible line plus one nanosecond
a reading. -/
structure DriftBound (host : Host) (ceiling : ℚ) (start reads : ℕ)
    (state : SyncState × ℕ) : Prop where
  slew_low : 995 / 1000 ≤ state.1.slewRate
  slew_high : state.1.slewRate ≤ 1005 / 1000
  start_le : start ≤ state.1.baseInstant
  base_le : state.1.baseInstant ≤ host.instant state.2
  baseUtc_le : (state.1.baseUtc : ℚ) ≤
    ceiling + 1005 / 1000 * ((state.1.baseInstant : ℚ) - start) + reads
  last_le : ∀ late : ℕ, start ≤ late →
    (∀ i < state.2, host.instant i ≤ late) →
    (state.1.lastEmittedUtc : ℚ) ≤
      ceiling + 1005 / 1000 * ((late : ℚ) - start) + reads

section Drift

variable {host : Host} {ceiling : ℚ} {start reads n : ℕ} {s : SyncState}

/-- One reading exceeds the line by at most its own nanosecond. -/
theorem DriftBound.emittedUtc_le (hbound : DriftBound host ceiling start reads (s, n))
    {late : ℕ} (hstart : start ≤ late)
    (hlate : ∀ i < n + 1, host.instant i ≤ late) :
    (s.emittedUtc host n : ℚ) ≤
      ceiling + 1005 / 1000 * ((late : ℚ) - start) + (reads + 1 : ℕ) := by
  have hlast := hbound.last_le late hstart
    (fun i hi => hlate i (Nat.lt_succ_of_lt hi))
  have hnow : (host.instant n : ℚ) ≤ late :=
    Nat.cast_le.mpr (hlate n (Nat.lt_succ_self n))
  have hbase := hbound.baseUtc_le
  have helapsed : (host.elapsed n s.baseInstant : ℚ) =
      host.instant n - s.baseInstant := by
    rw [Host.elapsed, Nat.cast_sub hbound.base_le]
  have helapsedNonneg : (0 : ℚ) ≤ host.elapsed n s.baseInstant :=
    Nat.cast_nonneg _
  have hslewed : (host.elapsed n s.baseInstant : ℚ) * s.slewRate ≤
      host.elapsed n s.baseInstant * (1005 / 1000) :=
    mul_le_mul_of_nonneg_left hbound.slew_high helapsedNonneg
  have hslewNonneg : (0 : ℚ) ≤ s.slewRate := by
    have hlow := hbound.slew_low
    simp only at hlow
    linarith
  have htrunc := truncToI64_le (mul_nonneg helapsedNonneg hslewNonneg)
  rw [SyncState.emittedUtc]
  push_cast
  split
  · simp only at hlast
    linarith
  · simp only at hbase
    rw [helapsed] at hslewed htrunc
    rw [helapsed]
    linarith

/-- A timestamp lies under the line at the instant it was read. -/
theorem DriftBound.stamp_le (hclock : Monotone host.instant)
    (hbound : DriftBound host ceiling start reads (s, n)) :
    (s.emittedUtc host n : ℚ) ≤ ceiling +
      1005 / 1000 * ((host.instant n : ℚ) - start) + (reads + 1 : ℕ) := by
  apply hbound.emittedUtc_le (hbound.start_le.trans hbound.base_le)
  intro i hi
  exact hclock (Nat.le_of_lt_succ hi)

theorem DriftBound.read (hclock : Monotone host.instant)
    (hbound : DriftBound host ceiling start reads (s, n)) :
    DriftBound host ceiling start (reads + 1)
      ((s.getLogicalUtc host n).2, n + 2) where
  slew_low := by simpa using hbound.slew_low
  slew_high := by simpa using hbound.slew_high
  start_le := by simpa using hbound.start_le
  base_le := by
    have hle := hbound.base_le.trans (hclock (Nat.le_add_right n 2))
    simpa using hle
  baseUtc_le := by
    have hle := hbound.baseUtc_le
    simp only [getLogicalUtc_baseUtc, getLogicalUtc_baseInstant]
    push_cast
    simp only at hle
    linarith
  last_le := by
    intro late hstart hlate
    simp only [getLogicalUtc_lastEmittedUtc]
    apply hbound.emittedUtc_le hstart
    intro i hi
    exact hlate i (Nat.lt_succ_of_lt hi)

theorem DriftBound.rebase (hclock : Monotone host.instant) (offset : ℚ)
    (hbound : DriftBound host ceiling start reads (s, n)) :
    DriftBound host ceiling start (reads + 1)
      (s.rebase host n offset, n + 4) where
  slew_low := (rebase_slewRate_mem host n s offset).1
  slew_high := (rebase_slewRate_mem host n s offset).2
  start_le := hbound.start_le.trans
    (hbound.base_le.trans (hclock (Nat.le_add_right n 2)))
  base_le := hclock (Nat.le_add_right (n + 2) 2)
  baseUtc_le := by
    apply hbound.emittedUtc_le
    · exact hbound.start_le.trans
        (hbound.base_le.trans (hclock (Nat.le_add_right n 2)))
    · intro i hi
      exact hclock (by omega)
  last_le := by
    intro late hstart hlate
    simp only [rebase_lastEmittedUtc]
    apply hbound.emittedUtc_le hstart
    intro i hi
    exact hlate i (by omega)

/-- Waiting for a later reading, or granting more readings, keeps the bound. -/
theorem DriftBound.mono (hclock : Monotone host.instant)
    (hbound : DriftBound host ceiling start reads (s, n))
    {later more : ℕ} (hlater : n ≤ later) (hmore : reads ≤ more) :
    DriftBound host ceiling start more (s, later) where
  slew_low := hbound.slew_low
  slew_high := hbound.slew_high
  start_le := hbound.start_le
  base_le := hbound.base_le.trans (hclock hlater)
  baseUtc_le := hbound.baseUtc_le.trans
    (add_le_add_right (Nat.cast_le.mpr hmore) _)
  last_le := by
    intro late hstart hlate
    exact (hbound.last_le late hstart
      (fun i hi => hlate i (hi.trans_le hlater))).trans
      (add_le_add_right (Nat.cast_le.mpr hmore) _)

/-- The status and the alert play no part in the bound. -/
theorem DriftBound.withStatus
    (hbound : DriftBound host ceiling start reads (s, n))
    (status : ClockStatus) (pendingAlert : Option String) :
    DriftBound host ceiling start reads
      ({ s with status := status, pendingAlert := pendingAlert }, n) :=
  ⟨hbound.slew_low, hbound.slew_high, hbound.start_le, hbound.base_le,
    hbound.baseUtc_le, hbound.last_le⟩

theorem driftBound_next (hclock : Monotone host.instant) (reads : ℕ)
    (state : SyncState × ℕ) (op : ClockOp)
    (hbound : DriftBound host ceiling start reads state) :
    DriftBound host ceiling start (reads + op.reads)
      ((clockMachine host).next state op) := by
  obtain ⟨s, n⟩ := state
  cases op with
  | read => exact hbound.read hclock
  | sync estimates =>
      change DriftBound host ceiling start (reads + 2)
        ((s.applyBftSync host n estimates).state,
          (s.applyBftSync host n estimates).nextReading)
      rcases applyBftSync_cases host n s estimates with
        ⟨offset, adjustment, _, heq⟩ | ⟨status, pendingAlert, heq⟩
      · rw [heq]
        exact ((hbound.rebase hclock offset).read hclock).mono hclock
          (show n + 4 + 2 ≤ n + 7 by omega) le_rfl
      · rw [heq]
        exact (hbound.withStatus status pendingAlert).mono hclock
          le_rfl (by omega)

/-- A timestamp within the line at its own reading, after `reads` readings. -/
def StampBound (host : Host) (ceiling : ℚ) (start reads : ℕ) (stamp : Stamp) :
    Prop :=
  (stamp.utc : ℚ) ≤ ceiling +
    1005 / 1000 * ((host.instant stamp.reading : ℚ) - start) + reads

theorem StampBound.mono {stamp : Stamp} {more : ℕ} (hmore : reads ≤ more)
    (hbound : StampBound host ceiling start reads stamp) :
    StampBound host ceiling start more stamp :=
  hbound.trans (add_le_add_right (Nat.cast_le.mpr hmore) _)

theorem stampBound_emit (hclock : Monotone host.instant) (reads : ℕ)
    (state : SyncState × ℕ) (op : ClockOp)
    (hbound : DriftBound host ceiling start reads state) :
    ∀ stamp ∈ (clockMachine host).emit state op,
      StampBound host ceiling start (reads + op.reads) stamp := by
  obtain ⟨s, n⟩ := state
  cases op with
  | read =>
      intro stamp hstamp
      rw [List.mem_singleton.mp hstamp]
      exact hbound.stamp_le hclock
  | sync estimates =>
      change ∀ stamp ∈ (s.applyBftSync host n estimates).emitted,
        StampBound host ceiling start (reads + 2) stamp
      rcases applyBftSync_cases host n s estimates with
        ⟨offset, adjustment, _, heq⟩ | ⟨status, pendingAlert, heq⟩
      · rw [heq]
        intro stamp hstamp
        rcases List.mem_cons.mp hstamp with rfl | hsecond
        · exact StampBound.mono (Nat.le_succ (reads + 1))
            (hbound.stamp_le hclock)
        · rw [List.mem_singleton.mp hsecond]
          exact (hbound.rebase hclock offset).stamp_le hclock
      · rw [heq]
        simp [SyncOutcome.withoutReading]

/-- A clock is below the line it starts on. -/
theorem driftBound_start (hbase : s.baseInstant ≤ host.instant n)
    (hlow : 995 / 1000 ≤ s.slewRate) (hhigh : s.slewRate ≤ 1005 / 1000) :
    DriftBound host (max s.baseUtc s.lastEmittedUtc : ℤ) s.baseInstant 0
      (s, n) := by
  refine ⟨hlow, hhigh, le_rfl, hbase, ?_, ?_⟩
  · simp
  · intro late hlate _
    have hmax := le_max_right (s.baseUtc : ℚ) s.lastEmittedUtc
    have helapsed : (s.baseInstant : ℚ) ≤ late := Nat.cast_le.mpr hlate
    push_cast
    linarith

/-- A run that starts on its own base line stays under the steepest admissible
line, plus one nanosecond a reading. -/
theorem stampBound_trace (hclock : Monotone host.instant)
    (hbase : s.baseInstant ≤ host.instant n)
    (hlow : 995 / 1000 ≤ s.slewRate) (hhigh : s.slewRate ≤ 1005 / 1000)
    (ops : List ClockOp) :
    ∀ stamp ∈ (clockMachine host).trace (s, n) ops,
      StampBound host (max s.baseUtc s.lastEmittedUtc : ℤ) s.baseInstant
        (ops.map ClockOp.reads).sum stamp := by
  have htrace := (clockMachine host).forall_trace_of_budget
    (DriftBound host (max s.baseUtc s.lastEmittedUtc : ℤ) s.baseInstant)
    (StampBound host (max s.baseUtc s.lastEmittedUtc : ℤ) s.baseInstant)
    ClockOp.reads (driftBound_next hclock) (stampBound_emit hclock)
    (fun _ _ _ hmore => StampBound.mono hmore)
    (driftBound_start hbase hlow hhigh) ops
  rwa [Nat.zero_add] at htrace

end Drift

/-- A new clock took its base instant from the host, and its slew rate is
admissible when the stored one was. -/
theorem new_startable {host : Host} (hclock : Monotone host.instant) (n f : ℕ)
    (storageFile : String) (stored : Option ClockCheckpoint)
    (hstored : ∀ checkpoint, stored = some checkpoint →
      995 / 1000 ≤ checkpoint.lastSlewRate ∧
        checkpoint.lastSlewRate ≤ 1005 / 1000) :
    (SyncState.new host n f storageFile stored).1.baseInstant ≤
        host.instant (SyncState.new host n f storageFile stored).2 ∧
      995 / 1000 ≤ (SyncState.new host n f storageFile stored).1.slewRate ∧
      (SyncState.new host n f storageFile stored).1.slewRate ≤ 1005 / 1000 := by
  cases stored with
  | none =>
      refine ⟨hclock (Nat.add_le_add_left (by decide) n), ?_⟩
      constructor <;> norm_num [SyncState.new]
  | some checkpoint =>
      exact ⟨hclock (Nat.add_le_add_left (by decide) n), hstored checkpoint rfl⟩

/-- A synchronization writes admissible slew rates only. -/
theorem checkpoint_slewRate_mem {host : Host} {n : ℕ} {s : SyncState}
    {estimates : List Estimation} {path : String} {checkpoint : ClockCheckpoint}
    (hwritten : (s.applyBftSync host n estimates).checkpoint =
      some (path, checkpoint)) :
    995 / 1000 ≤ checkpoint.lastSlewRate ∧
      checkpoint.lastSlewRate ≤ 1005 / 1000 := by
  rw [SyncState.applyBftSync] at hwritten
  cases hdecision : syncDecision s.f estimates with
  | tooFew =>
      rw [hdecision] at hwritten
      cases hwritten
  | outOfRange =>
      rw [hdecision] at hwritten
      cases hwritten
  | partitioned =>
      rw [hdecision] at hwritten
      cases hwritten
  | accept offset =>
      rw [hdecision] at hwritten
      simp only [Option.some.injEq, Prod.mk.injEq] at hwritten
      rw [← hwritten.2, getLogicalUtc_slewRate]
      exact rebase_slewRate_mem host n s offset

/-- A clock restarted from the checkpoint of a synchronization, perhaps on
another host, keeps the bound along all its runs. -/
theorem stampBound_restart {host restarted : Host}
    (hclock : Monotone restarted.instant) {n : ℕ} {s : SyncState}
    {estimates : List Estimation} {path : String} {checkpoint : ClockCheckpoint}
    (hwritten : (s.applyBftSync host n estimates).checkpoint =
      some (path, checkpoint)) (m f : ℕ) (ops : List ClockOp) :
    let fresh := SyncState.new restarted m f path (some checkpoint)
    ∀ stamp ∈ (clockMachine restarted).trace fresh ops,
      StampBound restarted (max fresh.1.baseUtc fresh.1.lastEmittedUtc : ℤ)
        fresh.1.baseInstant (ops.map ClockOp.reads).sum stamp := by
  intro fresh
  obtain ⟨hbase, hlow, hhigh⟩ := new_startable hclock m f path
    (some checkpoint) (by
      rintro _ ⟨⟩
      exact checkpoint_slewRate_mem hwritten)
  exact stampBound_trace hclock hbase hlow hhigh ops

end Time

end Gnostr
