/-
Replicas that receive the same snapshots in different orders.  The consensus
event is a function of the accepted events; the head is one only when the
snapshots of an event agree on it.  The quorum counts deliveries, so it is
sound exactly while the deliveries that fill it carry different events.
-/
import Gnostr.RepoState.Quorum
import Mathlib.Data.Finset.Card

namespace Gnostr

namespace RepoState

/-- Different events compete with different keys. -/
def DistinctKeys (pushes : List RepoStateSnapshot) : Prop :=
  ∀ left ∈ pushes, ∀ right ∈ pushes, left.event ≠ right.event →
    (left.event.createdAt, left.event.id) ≠
      (right.event.createdAt, right.event.id)

/-- Snapshots of one event carry one head. -/
def SameHeads (snapshots : List RepoStateSnapshot) : Prop :=
  ∀ left ∈ snapshots, ∀ right ∈ snapshots, left.event = right.event →
    left.head = right.head

theorem event_eq_of_tie {pushes : List RepoStateSnapshot}
    (hkeys : DistinctKeys pushes) {left right : RepoStateSnapshot}
    (hleft : left ∈ pushes) (hright : right ∈ pushes)
    (htie : eventOrder left right = .eq) : left.event = right.event := by
  by_contra hne
  obtain ⟨htime, hid⟩ := (eventOrder_eq_iff left right).mp htie
  exact hkeys left hleft right hright hne (Prod.ext htime hid)

section Permutation

variable {identifier : String} {quorumSize : ℕ}
  {first second : List RepoStateSnapshot} (hperm : first.Perm second)

include hperm

theorem accepted_perm : (accepted identifier first).Perm
    (accepted identifier second) :=
  hperm.filter _

/-- What ties do not tell apart is the same at the consensus of both replicas. -/
theorem map_consensusSnapshot_eq {β : Type} (f : RepoStateSnapshot → β)
    (hties : ∀ left ∈ accepted identifier first,
      ∀ right ∈ accepted identifier first,
      eventOrder left right = .eq → f left = f right) :
    (quorumMachine.run (.new identifier quorumSize) first).consensusSnapshot.map
        f =
      (quorumMachine.run (.new identifier quorumSize)
        second).consensusSnapshot.map f := by
  unfold RepoStateQuorum.consensusSnapshot
  rw [snapshots_run_new, snapshots_run_new]
  exact map_maxBy_eq_of_perm eventOrder f (accepted_perm hperm) hties

theorem consensusEvent_eq (hkeys : DistinctKeys first) :
    (quorumMachine.run (.new identifier quorumSize) first).consensusSnapshot.map
        RepoStateSnapshot.event =
      (quorumMachine.run (.new identifier quorumSize)
        second).consensusSnapshot.map RepoStateSnapshot.event := by
  apply map_consensusSnapshot_eq hperm
  intro left hleft right hright htie
  exact event_eq_of_tie hkeys (List.mem_of_mem_filter hleft)
    (List.mem_of_mem_filter hright) htie

/-- The time of the consensus does not even need distinct keys. -/
theorem consensusCreatedAt_eq :
    (quorumMachine.run (.new identifier quorumSize) first).consensusCreatedAt =
      (quorumMachine.run (.new identifier quorumSize)
        second).consensusCreatedAt := by
  apply map_consensusSnapshot_eq hperm
  intro left _ right _ htie
  exact ((eventOrder_eq_iff left right).mp htie).1

theorem consensusHead_eq (hkeys : DistinctKeys first)
    (hheads : SameHeads (accepted identifier first)) :
    (quorumMachine.run (.new identifier quorumSize) first).consensusHead =
      (quorumMachine.run (.new identifier quorumSize) second).consensusHead := by
  have hmap : (quorumMachine.run (.new identifier quorumSize)
        first).consensusSnapshot.map RepoStateSnapshot.head =
      (quorumMachine.run (.new identifier quorumSize)
        second).consensusSnapshot.map RepoStateSnapshot.head := by
    apply map_consensusSnapshot_eq hperm
    intro left hleft right hright htie
    exact hheads left hleft right hright (event_eq_of_tie hkeys
      (List.mem_of_mem_filter hleft) (List.mem_of_mem_filter hright) htie)
  rw [RepoStateQuorum.consensusHead_eq_join,
    RepoStateQuorum.consensusHead_eq_join, hmap]

theorem isQuorumMet_eq :
    (quorumMachine.run (.new identifier quorumSize) first).isQuorumMet =
      (quorumMachine.run (.new identifier quorumSize) second).isQuorumMet := by
  unfold RepoStateQuorum.isQuorumMet
  rw [snapshots_run_new, snapshots_run_new, quorumSize_run, quorumSize_run,
    (accepted_perm hperm).length_eq]

end Permutation

theorem snapshots_prefix_run (quorum : RepoStateQuorum)
    (pushes more : List RepoStateSnapshot) :
    (quorumMachine.run quorum pushes).snapshots <+:
      (quorumMachine.run quorum (pushes ++ more)).snapshots := by
  rw [Machine.run_append, run_quorumMachine (quorumMachine.run quorum pushes)]
  exact List.prefix_append _ _

/-- Further pushes never take the consensus back in time. -/
theorem consensusCreatedAt_mono {quorum : RepoStateQuorum}
    {pushes : List RepoStateSnapshot} {time : Unixtime}
    (htime : (quorumMachine.run quorum pushes).consensusCreatedAt = some time)
    (more : List RepoStateSnapshot) :
    ∃ later, (quorumMachine.run quorum (pushes ++ more)).consensusCreatedAt =
      some later ∧ time ≤ later := by
  obtain ⟨best, hbest, rfl⟩ := Option.map_eq_some_iff.mp htime
  obtain ⟨top, htop, hle⟩ := exists_maxBy_of_subset eventOrder
    (snapshots_prefix_run quorum pushes more).subset hbest
  exact ⟨top.event.createdAt, congrArg (Option.map _) htop,
    createdAt_le_of_isLE hle⟩

theorem isQuorumMet_mono {quorum : RepoStateQuorum}
    {pushes : List RepoStateSnapshot}
    (hmet : (quorumMachine.run quorum pushes).isQuorumMet = true)
    (more : List RepoStateSnapshot) :
    (quorumMachine.run quorum (pushes ++ more)).isQuorumMet = true := by
  rw [RepoStateQuorum.isQuorumMet_iff, quorumSize_run] at hmet ⊢
  exact ⟨hmet.1,
    hmet.2.trans (snapshots_prefix_run quorum pushes more).length_le⟩

/-- Replicas that received the same snapshots, in whatever order, agree on the
consensus event, its time and whether the quorum is met, and on the head when
no event was accepted with two heads.  Along every run the consensus time does
not decrease and a met quorum stays met, and a rejected push is without
effect. -/
theorem quorum_convergence (identifier : String) (quorumSize : ℕ) :
    (∀ first second : List RepoStateSnapshot, first.Perm second →
      DistinctKeys first →
      let one := quorumMachine.run (.new identifier quorumSize) first
      let other := quorumMachine.run (.new identifier quorumSize) second
      one.consensusSnapshot.map RepoStateSnapshot.event =
          other.consensusSnapshot.map RepoStateSnapshot.event ∧
        one.consensusCreatedAt = other.consensusCreatedAt ∧
        one.isQuorumMet = other.isQuorumMet ∧
        (SameHeads (accepted identifier first) →
          one.consensusHead = other.consensusHead)) ∧
    (∀ (quorum : RepoStateQuorum) (pushes more : List RepoStateSnapshot),
      (∀ time,
        (quorumMachine.run quorum pushes).consensusCreatedAt = some time →
        ∃ later,
          (quorumMachine.run quorum (pushes ++ more)).consensusCreatedAt =
            some later ∧ time ≤ later) ∧
      ((quorumMachine.run quorum pushes).isQuorumMet = true →
        (quorumMachine.run quorum (pushes ++ more)).isQuorumMet = true)) ∧
    (∀ (quorum : RepoStateQuorum) (snapshot returned : RepoStateSnapshot),
      (quorum.push snapshot).2 = .error returned →
      (quorum.push snapshot).1 = quorum ∧ returned = snapshot) := by
  refine ⟨?_, ?_, ?_⟩
  · intro first second hperm hkeys
    exact ⟨consensusEvent_eq hperm hkeys, consensusCreatedAt_eq hperm,
      isQuorumMet_eq hperm, consensusHead_eq hperm hkeys⟩
  · intro quorum pushes more
    exact ⟨fun _ htime => consensusCreatedAt_mono htime more,
      fun hmet => isQuorumMet_mono hmet more⟩
  · intro quorum snapshot returned herror
    exact RepoStateQuorum.push_eq_of_error herror

/-- A repo-state event made at `time`. -/
def eventAt (time : Unixtime) : EventV3 :=
  ⟨Vector.replicate 32 1, Vector.replicate 32 2, time, 30618,
    Vector.replicate 64 3, "", [["d", "gnostr"]]⟩

/-- A snapshot of that event whose head points to `target`. -/
def snapshotAt (time : Unixtime) (target : String) : RepoStateSnapshot :=
  ⟨"gnostr", Finmap.singleton "HEAD" target, eventAt time⟩

theorem head_snapshotAt (time : Unixtime) (target : String) :
    (snapshotAt time target).head = some target :=
  Finmap.lookup_singleton_eq

theorem distinctKeys_of_eventAt {pushes : List RepoStateSnapshot}
    (hevents : ∀ snapshot ∈ pushes,
      snapshot.event = eventAt snapshot.event.createdAt) :
    DistinctKeys pushes := by
  intro left hleft right hright hne hkey
  apply hne
  rw [hevents left hleft, hevents right hright, (Prod.mk.inj hkey).1]

/-- Two snapshots in either order. -/
theorem quorum_convergence_two_snapshots :
    (quorumMachine.run (.new "gnostr" 2)
        [snapshotAt 1 "main", snapshotAt 2 "dev"]).consensusHead =
      (quorumMachine.run (.new "gnostr" 2)
        [snapshotAt 2 "dev", snapshotAt 1 "main"]).consensusHead := by
  have hmem : ∀ snapshot ∈ [snapshotAt 1 "main", snapshotAt 2 "dev"],
      snapshot = snapshotAt 1 "main" ∨ snapshot = snapshotAt 2 "dev" := by
    simp
  have hkeys : DistinctKeys [snapshotAt 1 "main", snapshotAt 2 "dev"] := by
    apply distinctKeys_of_eventAt
    intro snapshot hsnapshot
    rcases hmem snapshot hsnapshot with rfl | rfl <;> rfl
  have hheads : SameHeads
      (accepted "gnostr" [snapshotAt 1 "main", snapshotAt 2 "dev"]) := by
    intro left hleft right hright hevent
    have htime := congrArg EventV3.createdAt hevent
    rcases hmem left (List.mem_of_mem_filter hleft) with rfl | rfl <;>
      rcases hmem right (List.mem_of_mem_filter hright) with rfl | rfl
    · rfl
    · exact absurd htime (by decide)
    · exact absurd htime (by decide)
    · rfl
  exact ((quorum_convergence "gnostr" 2).1 _ _ (List.Perm.swap _ _ _)
    hkeys).2.2.2 hheads

/-- Two snapshots of one event with different heads: the last to arrive
decides, so the replicas part. -/
theorem heads_of_one_event_diverge :
    [snapshotAt 1 "main", snapshotAt 1 "dev"].Perm
        [snapshotAt 1 "dev", snapshotAt 1 "main"] ∧
      DistinctKeys [snapshotAt 1 "main", snapshotAt 1 "dev"] ∧
      (quorumMachine.run (.new "gnostr" 2)
          [snapshotAt 1 "main", snapshotAt 1 "dev"]).consensusHead ≠
        (quorumMachine.run (.new "gnostr" 2)
          [snapshotAt 1 "dev", snapshotAt 1 "main"]).consensusHead := by
  have hrun : ∀ early late : String,
      (quorumMachine.run (.new "gnostr" 2)
        [snapshotAt 1 early, snapshotAt 1 late]).consensusHead = some late := by
    intro early late
    have htie : eventOrder (snapshotAt 1 early) (snapshotAt 1 late) = .eq :=
      (eventOrder_eq_iff _ _).mpr ⟨rfl, rfl⟩
    have hlast : laterMax eventOrder (snapshotAt 1 early) (snapshotAt 1 late) =
        snapshotAt 1 late := by
      rw [laterMax, htie]
    rw [RepoStateQuorum.consensusHead, RepoStateQuorum.consensusSnapshot,
      snapshots_run_new]
    change (some (laterMax eventOrder (snapshotAt 1 early)
      (snapshotAt 1 late))).bind RepoStateSnapshot.head = some late
    rw [hlast, Option.bind_some, head_snapshotAt]
  refine ⟨List.Perm.swap _ _ _, ?_, ?_⟩
  · apply distinctKeys_of_eventAt
    intro snapshot hsnapshot
    rcases List.mem_cons.mp hsnapshot with rfl | hrest
    · rfl
    · rw [List.mem_singleton.mp hrest]
      rfl
  · rw [hrun, hrun]
    decide

end RepoState

end Gnostr
