/-
When the clock of `p2p/src/time.rs` raises an alert.  An accepted synchronization reads
the clock before it renews the time of the last success, and the status that this reading
sets is lost, while its alert is not.
-/
import Gnostr.Time.Run

namespace Gnostr

namespace Time

/-- A call on the clock, or the daemon taking the pending alert to publish it. -/
inductive AlertOp where
  | call (op : ClockOp)
  | take
deriving Repr, DecidableEq

/-- The clock with its alerts. -/
def alertMachine (host : Host) : Machine (SyncState × ℕ) AlertOp Stamp where
  step
    | state, .call op => (clockMachine host).step state op
    | (s, n), .take => (({ s with pendingAlert := none }, n), [])

/-- The alert is pending now and was not before. -/
def Raises (before after : SyncState) (alert : String) : Prop :=
  after.pendingAlert = some alert ∧ before.pendingAlert ≠ some alert

instance (before after : SyncState) (alert : String) :
    Decidable (Raises before after alert) :=
  inferInstanceAs (Decidable (_ ∧ _))

/-- The synchronization succeeds: the estimates are accepted. -/
def ClockOp.Succeeds (s : SyncState) : ClockOp → Prop
  | .read => False
  | .sync estimates => ∃ offset, syncDecision s.f estimates = .accept offset

/-- A call that raises an alert leaves the clock unreliable, and a successful
synchronization raises none. -/
structure Coherent (host : Host) (state : SyncState × ℕ) (op : ClockOp) : Prop where
  unreliable : ∀ alert, Raises state.1 ((clockMachine host).next state op).1 alert →
    ((clockMachine host).next state op).1.status.isUnreliable = true
  quiet : op.Succeeds state.1 →
    ∀ alert, ¬ Raises state.1 ((clockMachine host).next state op).1 alert

/-- The calls of a step are coherent. -/
def CoherentStep (host : Host) (state : SyncState × ℕ) : AlertOp → Prop
  | .call op => Coherent host state op
  | .take => True

section Reading

variable (host : Host) (n : ℕ) (s : SyncState)

/-- The last success is too long ago at a reading. -/
def SyncState.Stale : Prop := syncTimeoutNs < host.elapsed n s.lastSyncSuccess

instance : Decidable (s.Stale host n) :=
  inferInstanceAs (Decidable (syncTimeoutNs < host.elapsed n s.lastSyncSuccess))

theorem checkTimeout_pendingAlert_eq :
    (s.checkTimeout host n).pendingAlert =
      if s.Stale host n ∧ s.status.isUnreliable = false then some "Consensus Lost"
      else s.pendingAlert := by
  rw [SyncState.checkTimeout]
  by_cases hstale : syncTimeoutNs < host.elapsed n s.lastSyncSuccess
  · rw [if_pos hstale]
    dsimp only
    cases hstatus : s.status.isUnreliable with
    | true => rw [if_pos rfl, if_neg fun hboth => Bool.noConfusion hboth.2]
    | false => rw [if_neg Bool.false_ne_true, if_pos ⟨hstale, rfl⟩]
  · rw [if_neg hstale, if_neg fun hboth => hstale hboth.1]

theorem getLogicalUtc_pendingAlert_eq :
    (s.getLogicalUtc host n).2.pendingAlert =
      if s.Stale host (n + 1) ∧ s.status.isUnreliable = false then some "Consensus Lost"
      else s.pendingAlert :=
  checkTimeout_pendingAlert_eq host (n + 1) { s with lastEmittedUtc := s.emittedUtc host n }

/-- A reading that raises an alert leaves the clock unreliable. -/
theorem isUnreliable_of_raises_read {alert : String}
    (hraises : Raises s (s.getLogicalUtc host n).2 alert) :
    (s.getLogicalUtc host n).2.status.isUnreliable = true := by
  obtain ⟨hafter, hbefore⟩ := hraises
  rw [getLogicalUtc_pendingAlert_eq] at hafter
  split_ifs at hafter with hlost
  · have hstatus := checkTimeout_status host (n + 1)
      { s with lastEmittedUtc := s.emittedUtc host n }
    exact congrArg ClockStatus.isUnreliable (hstatus.trans (if_pos hlost.1))
  · exact absurd hafter hbefore

end Reading

section Sync

variable {host : Host} {n : ℕ} {s : SyncState} {estimates : List Estimation} {offset : ℚ}

theorem isUnreliable_rebase : (s.rebase host n offset).status.isUnreliable = false := by
  change ClockStatus.isUnreliable (if |offset| < 1 / 100 then .synced else .slewing) = false
  split <;> rfl

/-- What is pending after an accepted synchronization. -/
theorem applyBftSync_pendingAlert_of_accept
    (haccept : syncDecision s.f estimates = .accept offset) :
    (s.applyBftSync host n estimates).state.pendingAlert =
      if (s.rebase host n offset).Stale host (n + 5) ∨
          s.Stale host (n + 1) ∧ s.status.isUnreliable = false then some "Consensus Lost"
      else s.pendingAlert := by
  rw [applyBftSync_state_of_accept haccept, getLogicalUtc_pendingAlert_eq,
    isUnreliable_rebase]
  have hrebase : (s.rebase host n offset).pendingAlert =
      (s.getLogicalUtc host n).2.pendingAlert := rfl
  rw [hrebase, getLogicalUtc_pendingAlert_eq]
  by_cases hlate : (s.rebase host n offset).Stale host (n + 5)
  · rw [if_pos ⟨hlate, rfl⟩, if_pos (.inl hlate)]
  · rw [if_neg fun hboth => hlate hboth.1]
    exact if_congr (or_iff_right hlate).symm rfl rfl

end Sync

/-- The synchronization comes in time, or on a clock that is known to be unreliable, and
does not itself take too long; or the alert is pending already. -/
def TimelyStep (host : Host) (state : SyncState × ℕ) : AlertOp → Prop
  | .call (.sync estimates) =>
      (ClockOp.sync estimates).Succeeds state.1 →
        state.1.pendingAlert = some "Consensus Lost" ∨
          host.elapsed (state.2 + 5) (host.instant (state.2 + 3)) ≤ syncTimeoutNs ∧
            (host.elapsed (state.2 + 1) state.1.lastSyncSuccess ≤ syncTimeoutNs ∨
              state.1.status.isUnreliable = true)
  | .call .read => True
  | .take => True

section Coherent

variable {host : Host} {n : ℕ} {s : SyncState}

theorem coherent_read : Coherent host (s, n) .read where
  unreliable _ := isUnreliable_of_raises_read host n s
  quiet hsucceeds := hsucceeds.elim

/-- Without success a synchronization changes nothing, or finds a partition and says so in
the status too. -/
theorem coherent_sync_of_not_succeeds {estimates : List Estimation}
    (hfails : ¬ (ClockOp.sync estimates).Succeeds s) :
    Coherent host (s, n) (.sync estimates) where
  unreliable alert hraises := by
    change (s.applyBftSync host n estimates).state.status.isUnreliable = true
    change Raises s (s.applyBftSync host n estimates).state alert at hraises
    unfold SyncState.applyBftSync at hraises ⊢
    cases hdecision : syncDecision s.f estimates with
    | tooFew =>
        rw [hdecision] at hraises
        exact absurd hraises.1 hraises.2
    | outOfRange =>
        rw [hdecision] at hraises
        exact absurd hraises.1 hraises.2
    | accept offset => exact absurd ⟨offset, hdecision⟩ hfails
    | partitioned => rfl
  quiet hsucceeds := absurd hsucceeds hfails

theorem coherent_sync_iff_of_accept {estimates : List Estimation} {offset : ℚ}
    (haccept : syncDecision s.f estimates = .accept offset) :
    Coherent host (s, n) (.sync estimates) ↔
      s.pendingAlert = some "Consensus Lost" ∨
        ¬ ((s.rebase host n offset).Stale host (n + 5) ∨
          s.Stale host (n + 1) ∧ s.status.isUnreliable = false) := by
  have hafter := @applyBftSync_pendingAlert_of_accept host n s estimates offset haccept
  have hraises (alert : String) :
      Raises s ((clockMachine host).next (s, n) (.sync estimates)).1 alert ↔
        (s.applyBftSync host n estimates).state.pendingAlert = some alert ∧
          s.pendingAlert ≠ some alert := Iff.rfl
  by_cases hlost : (s.rebase host n offset).Stale host (n + 5) ∨
      s.Stale host (n + 1) ∧ s.status.isUnreliable = false
  · rw [if_pos hlost] at hafter
    rw [or_iff_left (not_not_intro hlost)]
    constructor
    · intro hcoherent
      by_contra hpending
      exact hcoherent.quiet ⟨offset, haccept⟩ "Consensus Lost" ⟨hafter, hpending⟩
    · intro hpending
      have hquiet (alert : String) :
          ¬ Raises s ((clockMachine host).next (s, n) (.sync estimates)).1 alert := by
        rw [hraises, hafter, ← hpending]
        exact fun hboth => hboth.2 hboth.1
      exact ⟨fun alert hraise => absurd hraise (hquiet alert), fun _ => hquiet⟩
  · rw [if_neg hlost] at hafter
    have hquiet (alert : String) :
        ¬ Raises s ((clockMachine host).next (s, n) (.sync estimates)).1 alert := by
      rw [hraises, hafter]
      exact fun hboth => hboth.2 hboth.1
    exact iff_of_true ⟨fun alert hraise => absurd hraise (hquiet alert), fun _ => hquiet⟩
      (.inr hlost)

theorem not_lost_iff {offset : ℚ} :
    ¬ ((s.rebase host n offset).Stale host (n + 5) ∨
        s.Stale host (n + 1) ∧ s.status.isUnreliable = false) ↔
      host.elapsed (n + 5) (host.instant (n + 3)) ≤ syncTimeoutNs ∧
        (host.elapsed (n + 1) s.lastSyncSuccess ≤ syncTimeoutNs ∨
          s.status.isUnreliable = true) := by
  have hlate : (s.rebase host n offset).Stale host (n + 5) ↔
      syncTimeoutNs < host.elapsed (n + 5) (host.instant (n + 3)) := Iff.rfl
  have hstale : s.Stale host (n + 1) ↔
      syncTimeoutNs < host.elapsed (n + 1) s.lastSyncSuccess := Iff.rfl
  rw [hlate, hstale, not_or, not_and_or, not_lt, not_lt, Bool.not_eq_false]

/-- A call is coherent exactly when it is timely. -/
theorem coherent_iff (op : ClockOp) :
    Coherent host (s, n) op ↔ TimelyStep host (s, n) (.call op) := by
  cases op with
  | read => exact iff_of_true coherent_read trivial
  | sync estimates =>
      by_cases hsucceeds : (ClockOp.sync estimates).Succeeds s
      · have htimely := hsucceeds
        obtain ⟨offset, haccept⟩ := hsucceeds
        rw [coherent_sync_iff_of_accept haccept, not_lost_iff]
        exact ⟨fun hquiet _ => hquiet, fun hstep => hstep htimely⟩
      · exact iff_of_true (coherent_sync_of_not_succeeds hsucceeds)
          fun hsucceeds' => absurd hsucceeds' hsucceeds

theorem coherentStep_iff (state : SyncState × ℕ) (op : AlertOp) :
    CoherentStep host state op ↔ TimelyStep host state op := by
  cases op with
  | call op => exact coherent_iff op
  | take => exact Iff.rfl

end Coherent

/-- In the life of a clock every call is coherent exactly when every accepted
synchronization comes in time, or on a clock that is known to be unreliable, and does not
itself take too long, or finds the alert already pending. -/
theorem run_coherent_iff (host : Host) (n f : ℕ) (storageFile : String)
    (stored : Option ClockCheckpoint) (ops : List AlertOp) :
    (alertMachine host).EachStep (CoherentStep host)
        (SyncState.new host n f storageFile stored) ops ↔
      (alertMachine host).EachStep (TimelyStep host)
        (SyncState.new host n f storageFile stored) ops :=
  @Machine.eachStep_congr _ _ _ _ (fun _ => True) _ _ (fun _ _ _ => trivial)
    (fun state op _ => coherentStep_iff state op) _ trivial ops

/-- A host that is suspended for more than the timeout once its clock has been made. -/
def suspendedHost : Host where
  instant n := if n ≤ 3 then 0 else 301 * 10 ^ 9
  utc n := if n ≤ 3 then 0 else 301 * 10 ^ 9

theorem suspendedHost_monotone : Monotone suspendedHost.instant := by
  intro early late hle
  change (if early ≤ 3 then 0 else 301 * 10 ^ 9) ≤ if late ≤ 3 then 0 else 301 * 10 ^ 9
  split_ifs <;> omega

/-- The synchronization after the suspension succeeds and raises the alert of a lost
consensus. -/
theorem suspendedHost_raises :
    let start := SyncState.new suspendedHost 0 1 "clock_final.json" none
    let after := ((clockMachine suspendedHost).next start
      (.sync [⟨0, 0⟩, ⟨0, 0⟩, ⟨0, 0⟩])).1
    (syncDecision start.1.f [⟨0, 0⟩, ⟨0, 0⟩, ⟨0, 0⟩] = .accept 0 ∧
        Raises start.1 after "Consensus Lost") ∧
      after.status = .synced := by
  decide +kernel

theorem not_run_coherent_suspendedHost :
    ¬ ∀ (host : Host) (_ : Monotone host.instant) (n f : ℕ) (storageFile : String)
      (stored : Option ClockCheckpoint) (ops : List AlertOp),
      (alertMachine host).EachStep (CoherentStep host)
        (SyncState.new host n f storageFile stored) ops := by
  intro hall
  have hcoherent : Coherent suspendedHost
      (SyncState.new suspendedHost 0 1 "clock_final.json" none)
      (.sync [⟨0, 0⟩, ⟨0, 0⟩, ⟨0, 0⟩]) :=
    hall suspendedHost suspendedHost_monotone 0 1 "clock_final.json" none
      [.call (.sync [⟨0, 0⟩, ⟨0, 0⟩, ⟨0, 0⟩])] [] _ [] rfl
  obtain ⟨⟨haccept, hraises⟩, -⟩ := suspendedHost_raises
  exact hcoherent.quiet ⟨0, haccept⟩ "Consensus Lost" hraises

end Time

end Gnostr
