/-
What one call of `apply_bft_sync` decides.  The consensus window is a pair of
order statistics, so at most `f` arbitrary estimates cannot move it past the
honest ones, and the order of the estimates does not matter.
-/
import Gnostr.Lib.OrderStat
import Gnostr.Time.Clock
import Mathlib.Data.List.MinMax
import Mathlib.Tactic.Linarith

namespace Gnostr

namespace Time

/-- With enough estimates the decision compares the two ends of the consensus
window. -/
theorem syncDecision_eq_of_le {f : ℕ} {estimates : List Estimation}
    (hcount : 2 * f + 1 ≤ estimates.length) :
    ∃ mMin mMax : ℚ,
      orderStat (estimates.map Estimation.over) f = some mMin ∧
      orderStat (estimates.map Estimation.under)
        ((estimates.map Estimation.under).length - 1 - f) = some mMax ∧
      syncDecision f estimates =
        if mMin ≤ mMax then .accept ((mMin + mMax) / 2) else .partitioned := by
  have hlow : f < (estimates.map Estimation.over).length := by
    rw [List.length_map]
    omega
  have hhigh : (estimates.map Estimation.under).length - 1 - f <
      (estimates.map Estimation.under).length := by
    rw [List.length_map]
    omega
  obtain ⟨mMin, hmin⟩ := exists_orderStat_eq_some _ hlow
  obtain ⟨mMax, hmax⟩ := exists_orderStat_eq_some _ hhigh
  refine ⟨mMin, mMax, hmin, hmax, ?_⟩
  rw [orderStat] at hmin
  rw [orderStat, List.length_map] at hmax
  simp only [syncDecision, Nat.not_lt.mpr hcount, ↓reduceIte, hmin, hmax]

/-- The two indices are in range whenever they are used. -/
theorem syncDecision_ne_outOfRange (f : ℕ) (estimates : List Estimation) :
    syncDecision f estimates ≠ .outOfRange := by
  by_cases hcount : 2 * f + 1 ≤ estimates.length
  · obtain ⟨mMin, mMax, _, _, heq⟩ := syncDecision_eq_of_le hcount
    rw [heq]
    split <;> simp
  · simp [syncDecision, Nat.lt_of_not_le hcount]

theorem syncDecision_eq_of_perm {f : ℕ} {first second : List Estimation}
    (hperm : first.Perm second) :
    syncDecision f first = syncDecision f second := by
  simp only [syncDecision, hperm.length_eq,
    insertionSort_eq_of_perm (hperm.map Estimation.over),
    insertionSort_eq_of_perm (hperm.map Estimation.under)]

section Faults

variable {f : ℕ} {estimates honest byzantine : List Estimation}

/-- An accepted offset lies between an honest over-estimate and an honest
under-estimate. -/
theorem exists_honest_of_accept (hsplit : estimates.Perm (honest ++ byzantine))
    (hbyz : byzantine.length ≤ f) (hcount : 2 * f + 1 ≤ estimates.length)
    {offset : ℚ} (haccept : syncDecision f estimates = .accept offset) :
    (∃ e ∈ honest, e.over ≤ offset) ∧ ∃ e ∈ honest, offset ≤ e.under := by
  obtain ⟨mMin, mMax, hmin, hmax, heq⟩ := syncDecision_eq_of_le hcount
  rw [heq] at haccept
  split at haccept
  case isFalse => simp at haccept
  case isTrue hwindow =>
    simp only [SyncDecision.accept.injEq] at haccept
    have hover := hsplit.map Estimation.over
    have hunder := hsplit.map Estimation.under
    rw [List.map_append] at hover hunder
    obtain ⟨low, hlow, hlowle⟩ := exists_good_le_orderStat hover
      (by rwa [List.length_map]) hmin
    obtain ⟨high, hhigh, hhighle⟩ := exists_orderStat_top_le_good hunder
      (by rwa [List.length_map]) (by rw [List.length_map]; omega) hmax
    rw [List.mem_map] at hlow hhigh
    obtain ⟨early, hearly, rfl⟩ := hlow
    obtain ⟨late, hlate, rfl⟩ := hhigh
    exact ⟨⟨early, hearly, by linarith⟩, ⟨late, hlate, by linarith⟩⟩

/-- When the honest intervals share `t`, the window opens at or above `t` and
closes at or below it, so it is accepted only when both ends are `t` itself. -/
theorem exists_accept_iff_countP (hsplit : estimates.Perm (honest ++ byzantine))
    (hbyz : byzantine.length ≤ f) (hcount : 2 * f + 1 ≤ estimates.length)
    {t : ℚ} (hhonest : ∀ e ∈ honest, |e.d - t| ≤ e.a) :
    (∃ offset, syncDecision f estimates = .accept offset) ↔
      f < estimates.countP (fun e => decide (e.d + e.a ≤ t)) ∧
        f < estimates.countP (fun e => decide (t ≤ e.d - e.a)) := by
  obtain ⟨mMin, mMax, hmin, hmax, heq⟩ := syncDecision_eq_of_le hcount
  have hover := hsplit.map Estimation.over
  have hunder := hsplit.map Estimation.under
  rw [List.map_append] at hover hunder
  have hlower : t ≤ mMin := by
    obtain ⟨low, hlow, hlowle⟩ := exists_good_le_orderStat hover
      (by rwa [List.length_map]) hmin
    obtain ⟨e, he, rfl⟩ := List.mem_map.mp hlow
    have hinside := abs_le.mp (hhonest e he)
    have htover : t ≤ e.over := by rw [Estimation.over]; linarith
    exact htover.trans hlowle
  have hupper : mMax ≤ t := by
    obtain ⟨high, hhigh, hhighle⟩ := exists_orderStat_top_le_good hunder
      (by rwa [List.length_map]) (by rw [List.length_map]; omega) hmax
    obtain ⟨e, he, rfl⟩ := List.mem_map.mp hhigh
    have hinside := abs_le.mp (hhonest e he)
    have hundert : e.under ≤ t := by rw [Estimation.under]; linarith
    exact hhighle.trans hundert
  have hminIff := orderStat_le_iff t hmin
  have hmaxIff := le_orderStat_top_iff t
    (by rw [List.length_map]; omega) hmax
  rw [List.countP_map] at hminIff hmaxIff
  change mMin ≤ t ↔ f < estimates.countP (fun e => decide (e.d + e.a ≤ t))
    at hminIff
  change t ≤ mMax ↔ f < estimates.countP (fun e => decide (t ≤ e.d - e.a))
    at hmaxIff
  rw [← hminIff, ← hmaxIff, heq]
  constructor
  · rintro ⟨offset, hoffset⟩
    split at hoffset
    case isTrue hwindow => exact ⟨hwindow.trans hupper, hlower.trans hwindow⟩
    case isFalse => simp at hoffset
  · rintro ⟨hclose, hopen⟩
    exact ⟨(mMin + mMax) / 2, if_pos (hclose.trans hopen)⟩

end Faults

/-- The status a synchronization sets does not survive its own checkpoint
reading when that reading comes too late. -/
theorem checkTimeout_status (host : Host) (n : ℕ) (s : SyncState) :
    (s.checkTimeout host n).status =
      if syncTimeoutNs < host.elapsed n s.lastSyncSuccess then
        .unreliable "Timeout"
      else s.status := by
  rw [SyncState.checkTimeout]
  split <;> rfl

theorem checkTimeout_pendingAlert (host : Host) (n : ℕ) (s : SyncState) :
    (s.checkTimeout host n).pendingAlert = s.pendingAlert ∨
      (s.checkTimeout host n).pendingAlert = some "Consensus Lost" := by
  rw [SyncState.checkTimeout]
  split
  · cases hstatus : s.status.isUnreliable with
    | false => exact Or.inr rfl
    | true => exact Or.inl rfl
  · exact Or.inl rfl

/-- Reading the clock never raises a partition alert. -/
theorem getLogicalUtc_pendingAlert (host : Host) (n : ℕ) (s : SyncState)
    (halert : (s.getLogicalUtc host n).2.pendingAlert =
      some "Byzantine Partition") :
    s.pendingAlert = some "Byzantine Partition" := by
  rcases checkTimeout_pendingAlert host (n + 1)
    { s with lastEmittedUtc := s.emittedUtc host n } with hkeep | hlost
  · exact hkeep.symm.trans halert
  · rw [SyncState.getLogicalUtc, hlost] at halert
    simp at halert

theorem applyBftSync_state_of_accept {host : Host} {n : ℕ} {s : SyncState}
    {estimates : List Estimation} {offset : ℚ}
    (haccept : syncDecision s.f estimates = .accept offset) :
    (s.applyBftSync host n estimates).state =
      ((s.rebase host n offset).getLogicalUtc host (n + 4)).2 := by
  rw [SyncState.applyBftSync, haccept]

/-- On return from the accepting branch the status is the one the branch set,
unless its own checkpoint reading found it stale already. -/
theorem applyBftSync_status_of_accept {host : Host} {n : ℕ} {s : SyncState}
    {estimates : List Estimation} {offset : ℚ}
    (haccept : syncDecision s.f estimates = .accept offset) :
    (s.applyBftSync host n estimates).state.status =
      if syncTimeoutNs < host.elapsed (n + 5) (host.instant (n + 3)) then
        .unreliable "Timeout"
      else if |offset| < 1 / 100 then .synced else .slewing := by
  rw [applyBftSync_state_of_accept haccept, SyncState.getLogicalUtc,
    checkTimeout_status]
  rfl

/-- The call takes its accepting branch: it returns synced or slewing, and any
partition alert still pending was pending before. -/
def AcceptsSync (host : Host) (n : ℕ) (s : SyncState)
    (estimates : List Estimation) : Prop :=
  let final := (s.applyBftSync host n estimates).state
  (∃ offset, syncDecision s.f estimates = .accept offset) ∧
    (final.status = .synced ∨ final.status = .slewing) ∧
    (final.pendingAlert = some "Byzantine Partition" →
      s.pendingAlert = some "Byzantine Partition")

theorem acceptsSync_iff (host : Host) (n : ℕ) (s : SyncState)
    (estimates : List Estimation) :
    AcceptsSync host n s estimates ↔
      (∃ offset, syncDecision s.f estimates = .accept offset) ∧
        host.elapsed (n + 5) (host.instant (n + 3)) ≤ syncTimeoutNs := by
  constructor
  · rintro ⟨⟨offset, haccept⟩, hstatus, _⟩
    refine ⟨⟨offset, haccept⟩, ?_⟩
    by_contra hlate
    rw [applyBftSync_status_of_accept haccept, if_pos (not_le.mp hlate)]
      at hstatus
    simp at hstatus
  · rintro ⟨⟨offset, haccept⟩, hquick⟩
    refine ⟨⟨offset, haccept⟩, ?_, ?_⟩
    · rw [applyBftSync_status_of_accept haccept, if_neg (not_lt.mpr hquick)]
      split
      · exact Or.inl rfl
      · exact Or.inr rfl
    · intro halert
      rw [applyBftSync_state_of_accept haccept] at halert
      have hrebase : (s.rebase host n offset).pendingAlert =
          some "Byzantine Partition" :=
        getLogicalUtc_pendingAlert host (n + 4) _ halert
      exact getLogicalUtc_pendingAlert host n s hrebase

/-- Estimates whose honest intervals share the offset `t` are accepted exactly
when more than `f` over-estimates reach down to `t` and more than `f`
under-estimates reach up to it, and the call itself stays inside the
synchronization timeout. -/
theorem acceptsSync_iff_countP (host : Host) (n : ℕ) (s : SyncState) (t : ℚ)
    {estimates honest byzantine : List Estimation}
    (hsplit : estimates.Perm (honest ++ byzantine))
    (hbyz : byzantine.length ≤ s.f)
    (hcount : 2 * s.f + 1 ≤ estimates.length)
    (hhonest : ∀ e ∈ honest, |e.d - t| ≤ e.a) :
    AcceptsSync host n s estimates ↔
      (s.f < estimates.countP (fun e => decide (e.d + e.a ≤ t)) ∧
        s.f < estimates.countP (fun e => decide (t ≤ e.d - e.a))) ∧
      host.elapsed (n + 5) (host.instant (n + 3)) ≤ syncTimeoutNs := by
  rw [acceptsSync_iff, exists_accept_iff_countP hsplit hbyz hcount hhonest]

/-- A host whose clocks stand still. -/
def stillHost : Host where
  instant _ := 0
  utc _ := 0

/-- The state the daemon starts with when it finds no checkpoint. -/
def daemonState : SyncState :=
  (SyncState.new stillHost 0 1 "clock_final.json" none).1

theorem acceptsSync_iff_countP_points :
    AcceptsSync stillHost 4 daemonState [⟨0, 0⟩, ⟨0, 0⟩, ⟨5, 1⟩] ↔
      (1 < [(⟨0, 0⟩ : Estimation), ⟨0, 0⟩, ⟨5, 1⟩].countP
          (fun e => decide (e.d + e.a ≤ 0)) ∧
        1 < [(⟨0, 0⟩ : Estimation), ⟨0, 0⟩, ⟨5, 1⟩].countP
          (fun e => decide (0 ≤ e.d - e.a))) ∧
      stillHost.elapsed 9 (stillHost.instant 7) ≤ syncTimeoutNs :=
  acceptsSync_iff_countP stillHost 4 daemonState 0
    (show List.Perm _ ([⟨0, 0⟩, ⟨0, 0⟩] ++ [⟨5, 1⟩]) from List.Perm.refl _)
    (by decide) (by decide) (by simp)

/-- Three peers that agree on the offset zero up to ten milliseconds are taken
for a Byzantine partition. -/
theorem agreeing_peers_rejected :
    let e : Estimation := ⟨0, 1 / 100⟩
    let final := (daemonState.applyBftSync stillHost 4 [e, e, e]).state
    ([e, e, e].Perm ([e, e, e] ++ []) ∧
      ([] : List Estimation).length ≤ daemonState.f ∧
      2 * daemonState.f + 1 ≤ [e, e, e].length ∧
      ∀ x ∈ [e, e, e], 0 ≤ x.a ∧ |x.d - 0| ≤ x.a) ∧
    final.status = .unreliable "Byzantine Error" ∧
    final.pendingAlert = some "Byzantine Partition" ∧
    ¬ AcceptsSync stillHost 4 daemonState [e, e, e] := by
  have hstate : (daemonState.applyBftSync stillHost 4
      [⟨0, 1 / 100⟩, ⟨0, 1 / 100⟩, ⟨0, 1 / 100⟩]).state =
      { daemonState with
        status := .unreliable "Byzantine Error"
        pendingAlert := some "Byzantine Partition" } := by
    decide +kernel
  intro e final
  refine ⟨⟨List.Perm.refl _, by decide, by decide, by simp [e]⟩, ?_, ?_, ?_⟩
  · exact congrArg SyncState.status hstate
  · exact congrArg SyncState.pendingAlert hstate
  · rintro ⟨_, hstatus, _⟩
    rw [hstate] at hstatus
    simp at hstatus

/-- As soon as every honest interval holds `t` strictly inside, no call accepts
them: the estimates agree and are rejected for it. -/
theorem not_acceptsSync_of_strict (host : Host) (n : ℕ) (s : SyncState) (t : ℚ)
    {estimates honest byzantine : List Estimation}
    (hsplit : estimates.Perm (honest ++ byzantine))
    (hbyz : byzantine.length ≤ s.f)
    (hcount : 2 * s.f + 1 ≤ estimates.length)
    (hhonest : ∀ e ∈ honest, |e.d - t| < e.a) :
    ¬ AcceptsSync host n s estimates := by
  intro haccept
  obtain ⟨hdecision, _⟩ := haccept
  rw [exists_accept_iff_countP hsplit hbyz hcount
    (fun e he => (hhonest e he).le)] at hdecision
  obtain ⟨e, he, hreach⟩ := exists_good_of_lt_countP hsplit hbyz _ hdecision.1
  have hinside := (abs_lt.mp (hhonest e he)).1
  have hover := of_decide_eq_true hreach
  linarith

theorem clamp_mem_Icc (x lo hi : ℚ) (hle : lo ≤ hi) :
    lo ≤ clamp x lo hi ∧ clamp x lo hi ≤ hi := by
  rw [clamp]
  split
  · exact ⟨le_rfl, hle⟩
  · split
    · exact ⟨hle, le_rfl⟩
    · constructor <;> linarith

theorem rebase_slewRate_mem (host : Host) (n : ℕ) (s : SyncState) (offset : ℚ) :
    995 / 1000 ≤ (s.rebase host n offset).slewRate ∧
      (s.rebase host n offset).slewRate ≤ 1005 / 1000 := by
  have hclamp := clamp_mem_Icc (offset / 30) (-5 / 1000) (5 / 1000) (by norm_num)
  change 995 / 1000 ≤ 1 + clamp (offset / 30) (-5 / 1000) (5 / 1000) ∧
    1 + clamp (offset / 30) (-5 / 1000) (5 / 1000) ≤ 1005 / 1000
  constructor <;> linarith [hclamp.1, hclamp.2]

/-- With at most `f` arbitrary estimates an accepted offset stays between the
honest bounds, the new slew rate stays within half a percent of one, and no
part of the outcome depends on the order of the estimates. -/
theorem applyBftSync_safe (host : Host) (n : ℕ) (s : SyncState)
    {estimates honest byzantine : List Estimation}
    (hsplit : estimates.Perm (honest ++ byzantine))
    (hbyz : byzantine.length ≤ s.f)
    (hcount : 2 * s.f + 1 ≤ estimates.length) :
    (∀ offset, syncDecision s.f estimates = .accept offset →
      (honest.map fun e => e.d + e.a).minimum ≤ (offset : WithTop ℚ) ∧
      (offset : WithBot ℚ) ≤ (honest.map fun e => e.d - e.a).maximum ∧
      995 / 1000 ≤ (s.applyBftSync host n estimates).state.slewRate ∧
      (s.applyBftSync host n estimates).state.slewRate ≤ 1005 / 1000) ∧
    ∀ permuted : List Estimation, permuted.Perm estimates →
      syncDecision s.f permuted = syncDecision s.f estimates ∧
      s.applyBftSync host n permuted = s.applyBftSync host n estimates := by
  constructor
  · intro offset haccept
    obtain ⟨⟨low, hlow, hlowle⟩, high, hhigh, hhighle⟩ :=
      exists_honest_of_accept hsplit hbyz hcount haccept
    have hslew := rebase_slewRate_mem host n s offset
    rw [applyBftSync_state_of_accept haccept, getLogicalUtc_slewRate]
    refine ⟨?_, ?_, hslew⟩
    · exact (List.minimum_le_of_mem' (List.mem_map_of_mem hlow)).trans
        (WithTop.coe_le_coe.mpr hlowle)
    · exact (WithBot.coe_le_coe.mpr hhighle).trans
        (List.le_maximum_of_mem' (List.mem_map_of_mem hhigh))
  · intro permuted hperm
    have hdecision := syncDecision_eq_of_perm (f := s.f) hperm
    refine ⟨hdecision, ?_⟩
    rw [SyncState.applyBftSync, SyncState.applyBftSync, hdecision]

theorem applyBftSync_safe_outlier :
    syncDecision 1 [⟨5, 0⟩, ⟨6, 0⟩, ⟨-200, 0⟩] = .accept 5 ∧
      ([(⟨5, 0⟩ : Estimation), ⟨6, 0⟩].map fun e => e.d + e.a).minimum ≤
        ((5 : ℚ) : WithTop ℚ) ∧
      ((5 : ℚ) : WithBot ℚ) ≤
        ([(⟨5, 0⟩ : Estimation), ⟨6, 0⟩].map fun e => e.d - e.a).maximum := by
  have haccept :
      syncDecision 1 [⟨5, 0⟩, ⟨6, 0⟩, ⟨-200, 0⟩] = .accept 5 := by
    decide +kernel
  have hsafe := (applyBftSync_safe stillHost 4 daemonState
    (show List.Perm _ ([⟨5, 0⟩, ⟨6, 0⟩] ++ [⟨-200, 0⟩]) from List.Perm.refl _)
    (by decide) (by decide)).1 5 haccept
  exact ⟨haccept, hsafe.1, hsafe.2.1⟩

end Time

end Gnostr
