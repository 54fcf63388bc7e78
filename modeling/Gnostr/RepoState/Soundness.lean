/-
What a met quorum says.  It counts accepted deliveries, so it vouches for as
many events exactly when the deliveries that first fill it are of different
events.
-/
import Gnostr.RepoState.Convergence

namespace Gnostr

namespace RepoState

def RepoStateQuorum.acceptedEvents (quorum : RepoStateQuorum) :
    Finset EventV3 :=
  (quorum.snapshots.map RepoStateSnapshot.event).toFinset

/-- Along a run a met quorum has accepted enough different events, and a
repeated delivery never completes one. -/
structure SoundRun (identifier : String) (quorumSize : ℕ)
    (pushes : List RepoStateSnapshot) : Prop where
  enough_events : ∀ done, done <+: pushes →
    (quorumMachine.run (.new identifier quorumSize) done).isQuorumMet = true →
    quorumSize ≤
      (quorumMachine.run (.new identifier quorumSize) done).acceptedEvents.card
  repeat_harmless : ∀ done snapshot, done ++ [snapshot] <+: pushes →
    snapshot.event ∈
      (quorumMachine.run (.new identifier quorumSize) done).acceptedEvents →
    (quorumMachine.run (.new identifier quorumSize) done).isQuorumMet = false →
    (quorumMachine.run (.new identifier quorumSize)
      (done ++ [snapshot])).isQuorumMet = false

theorem isQuorumMet_run_new_iff (identifier : String) (quorumSize : ℕ)
    (pushes : List RepoStateSnapshot) :
    (quorumMachine.run (.new identifier quorumSize) pushes).isQuorumMet =
        true ↔
      0 < quorumSize ∧ quorumSize ≤ (accepted identifier pushes).length := by
  rw [RepoStateQuorum.isQuorumMet_iff, snapshots_run_new, quorumSize_run]
  rfl

theorem acceptedEvents_run_new (identifier : String) (quorumSize : ℕ)
    (pushes : List RepoStateSnapshot) :
    (quorumMachine.run (.new identifier quorumSize) pushes).acceptedEvents =
      ((accepted identifier pushes).map RepoStateSnapshot.event).toFinset := by
  rw [RepoStateQuorum.acceptedEvents, snapshots_run_new]

/-- Some moment of the run has accepted exactly the first `n` snapshots. -/
theorem exists_prefix_accepted_eq_take (identifier : String)
    (pushes : List RepoStateSnapshot) (n : ℕ) :
    ∃ done, done <+: pushes ∧
      accepted identifier done = (accepted identifier pushes).take n := by
  induction pushes generalizing n with
  | nil => exact ⟨[], List.prefix_rfl, by simp [accepted]⟩
  | cons snapshot pushes ih =>
      by_cases hid : (snapshot.identifier == identifier) = true
      · cases n with
        | zero => exact ⟨[], List.nil_prefix, by simp [accepted]⟩
        | succ n =>
            obtain ⟨done, hdone, htake⟩ := ih n
            refine ⟨snapshot :: done, (List.prefix_cons_inj snapshot).mpr hdone,
              ?_⟩
            simp only [accepted, List.filter_cons, hid, if_true,
              List.take_succ_cons] at htake ⊢
            rw [htake]
      · obtain ⟨done, hdone, htake⟩ := ih n
        refine ⟨snapshot :: done, (List.prefix_cons_inj snapshot).mpr hdone, ?_⟩
        simp only [accepted, List.filter_cons, hid] at htake ⊢
        exact htake

/-- The first `n` accepted events are known as soon as `n` are accepted. -/
theorem take_accepted_eq {identifier : String}
    {done pushes : List RepoStateSnapshot} (hdone : done <+: pushes) {n : ℕ}
    (hle : n ≤ (accepted identifier done).length) :
    ((accepted identifier pushes).map RepoStateSnapshot.event).take n =
      ((accepted identifier done).map RepoStateSnapshot.event).take n := by
  obtain ⟨rest, hrest⟩ :=
    (accepted_mono identifier hdone).map RepoStateSnapshot.event
  have hlength : n ≤
      ((accepted identifier done).map RepoStateSnapshot.event).length := by
    rw [List.length_map]
    exact hle
  rw [← hrest, List.take_append_of_le_length hlength]

/-- A push that completes a quorum of different events is not a repeat. -/
theorem not_mem_of_completes {identifier : String} {quorumSize : ℕ}
    {done : List RepoStateSnapshot} {snapshot : RepoStateSnapshot}
    (hbefore : (accepted identifier done).length < quorumSize)
    (hafter : quorumSize ≤ (accepted identifier (done ++ [snapshot])).length)
    (hnodup : (((accepted identifier (done ++ [snapshot])).map
      RepoStateSnapshot.event).take quorumSize).Nodup) :
    snapshot.event ∉ (accepted identifier done).map RepoStateSnapshot.event := by
  have happend : accepted identifier (done ++ [snapshot]) =
      accepted identifier done ++ accepted identifier [snapshot] :=
    List.filter_append _ _
  rw [happend] at hafter hnodup
  by_cases hid : snapshot.identifier = identifier
  · have hone : accepted identifier [snapshot] = [snapshot] := by
      simp [accepted, hid]
    rw [hone, List.length_append, List.length_singleton] at hafter
    rw [hone, List.take_of_length_le (by simp; omega), List.map_append] at hnodup
    intro hmem
    exact (List.nodup_append'.mp hnodup).2.2 hmem List.mem_cons_self
  · have hnone : accepted identifier [snapshot] = [] := by
      simp [accepted, hid]
    rw [hnone, List.append_nil] at hafter
    omega

/-- A quorum is sound along a run exactly when the deliveries that first fill
it, should it be filled, carry different events. -/
theorem soundRun_iff (identifier : String) (quorumSize : ℕ)
    (pushes : List RepoStateSnapshot) :
    SoundRun identifier quorumSize pushes ↔
      (quorumSize ≤ (accepted identifier pushes).length →
        (((accepted identifier pushes).map
          RepoStateSnapshot.event).take quorumSize).Nodup) := by
  constructor
  · intro hsound hle
    by_cases hzero : quorumSize = 0
    · rw [hzero]
      exact List.nodup_nil
    · obtain ⟨done, hdone, htake⟩ :=
        exists_prefix_accepted_eq_take identifier pushes quorumSize
      have hlength : (accepted identifier done).length = quorumSize := by
        rw [htake, List.length_take, Nat.min_eq_left hle]
      have henough := hsound.enough_events done hdone
        ((isQuorumMet_run_new_iff _ _ _).mpr
          ⟨Nat.pos_of_ne_zero hzero, hlength.ge⟩)
      rw [acceptedEvents_run_new] at henough
      rw [take_accepted_eq hdone hlength.ge,
        List.take_of_length_le (by rw [List.length_map, hlength])]
      apply Multiset.coe_nodup.mp
      apply Multiset.toFinset_card_eq_card_iff_nodup.mp
      apply le_antisymm (Multiset.toFinset_card_le _)
      rw [Multiset.coe_card, List.length_map, hlength]
      exact henough
  · intro hnodup
    constructor
    · intro done hdone hmet
      obtain ⟨_, hle⟩ := (isQuorumMet_run_new_iff _ _ _).mp hmet
      have hfirst := hnodup
        (hle.trans (accepted_mono identifier hdone).length_le)
      rw [take_accepted_eq hdone hle] at hfirst
      rw [acceptedEvents_run_new]
      calc quorumSize
          = (((accepted identifier done).map
              RepoStateSnapshot.event).take quorumSize).length := by
            rw [List.length_take, List.length_map, Nat.min_eq_left hle]
        _ = (((accepted identifier done).map
              RepoStateSnapshot.event).take quorumSize).toFinset.card :=
            (List.toFinset_card_of_nodup hfirst).symm
        _ ≤ ((accepted identifier done).map
              RepoStateSnapshot.event).toFinset.card :=
            Finset.card_le_card fun _ hmem => List.mem_toFinset.mpr
              (List.mem_of_mem_take (List.mem_toFinset.mp hmem))
    · intro done snapshot hdone hevent hunmet
      rw [← Bool.not_eq_true, isQuorumMet_run_new_iff] at hunmet ⊢
      rintro ⟨hpos, hle⟩
      have hbefore : (accepted identifier done).length < quorumSize :=
        Nat.lt_of_not_le fun hfull => hunmet ⟨hpos, hfull⟩
      have hfirst := hnodup
        (hle.trans (accepted_mono identifier hdone).length_le)
      rw [take_accepted_eq hdone hle] at hfirst
      rw [acceptedEvents_run_new, List.mem_toFinset] at hevent
      exact not_mem_of_completes hbefore hle hfirst hevent

/-- One signed event delivered twice fills a quorum of two. -/
theorem repeated_delivery_fills_quorum :
    (quorumMachine.run (.new "gnostr" 2)
        [snapshotAt 1 "main", snapshotAt 1 "main"]).isQuorumMet = true ∧
      (quorumMachine.run (.new "gnostr" 2)
        [snapshotAt 1 "main", snapshotAt 1 "main"]).acceptedEvents.card = 1 ∧
      ¬ SoundRun "gnostr" 2 [snapshotAt 1 "main", snapshotAt 1 "main"] := by
  have hmet : (quorumMachine.run (.new "gnostr" 2)
      [snapshotAt 1 "main", snapshotAt 1 "main"]).isQuorumMet = true :=
    (isQuorumMet_run_new_iff _ _ _).mpr ⟨by decide, by decide⟩
  have hcard : (quorumMachine.run (.new "gnostr" 2)
      [snapshotAt 1 "main", snapshotAt 1 "main"]).acceptedEvents.card = 1 := by
    rw [acceptedEvents_run_new]
    simp [accepted, snapshotAt]
  refine ⟨hmet, hcard, ?_⟩
  intro hsound
  have henough := hsound.enough_events _ List.prefix_rfl hmet
  rw [hcard] at henough
  exact absurd henough (by decide)

end RepoState

end Gnostr
