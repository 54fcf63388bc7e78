/-
The quorum of `p2p/src/repo_state.rs`: snapshots of repo-state events collected
for one repository, the newest of which is the consensus.
-/
import Gnostr.Lib.Machine
import Gnostr.Lib.MaxBy
import Mathlib.Data.Finmap

namespace Gnostr

namespace RepoState

/-- An event identifier, a SHA256 hash. -/
abbrev Id := Vector UInt8 32

/-- Seconds since 1970. -/
abbrev Unixtime := Int64

/-- The main event type. -/
structure EventV3 where
  id : Id
  pubkey : Vector UInt8 32
  createdAt : Unixtime
  kind : UInt32
  sig : Vector UInt8 64
  content : String
  tags : List (List String)
deriving DecidableEq

/-- Refs by name. -/
abbrev RepoStateRefs := Finmap fun _ : String => String

/-- Canonical view of a repo-state event and its refs. -/
structure RepoStateSnapshot where
  identifier : String
  refs : RepoStateRefs
  event : EventV3
deriving DecidableEq

namespace RepoStateSnapshot

def refValue (snapshot : RepoStateSnapshot) (name : String) : Option String :=
  snapshot.refs.lookup name

def head (snapshot : RepoStateSnapshot) : Option String :=
  snapshot.refValue "HEAD"

def branchRef (snapshot : RepoStateSnapshot) (branch : String) :
    Option String :=
  snapshot.refValue ("refs/heads/" ++ branch)

def tagRef (snapshot : RepoStateSnapshot) (tag : String) : Option String :=
  snapshot.refValue ("refs/tags/" ++ tag)

end RepoStateSnapshot

/-- Quorum-backed repo-state envelope. -/
structure RepoStateQuorum where
  identifier : String
  snapshots : List RepoStateSnapshot
  quorumSize : ℕ
  consensusUtc : Option Unixtime
deriving DecidableEq

/-- The order in which snapshots compete: by the time of the event, then by its
id. -/
def eventOrder (left right : RepoStateSnapshot) : Ordering :=
  (compare left.event.createdAt right.event.createdAt).then
    (compare left.event.id right.event.id)

namespace RepoStateQuorum

def new (identifier : String) (quorumSize : ℕ) : RepoStateQuorum :=
  ⟨identifier, [], quorumSize, none⟩

/-- Add a snapshot, or give it back when it is about another repository. -/
def push (quorum : RepoStateQuorum) (snapshot : RepoStateSnapshot) :
    RepoStateQuorum × Except RepoStateSnapshot Unit :=
  if snapshot.identifier ≠ quorum.identifier then (quorum, .error snapshot)
  else
    ({ quorum with snapshots := quorum.snapshots ++ [snapshot] }, .ok ())

def isQuorumMet (quorum : RepoStateQuorum) : Bool :=
  decide (0 < quorum.quorumSize) &&
    decide (quorum.quorumSize ≤ quorum.snapshots.length)

def consensusSnapshot (quorum : RepoStateQuorum) : Option RepoStateSnapshot :=
  maxBy eventOrder quorum.snapshots

def consensusCreatedAt (quorum : RepoStateQuorum) : Option Unixtime :=
  quorum.consensusSnapshot.map fun snapshot => snapshot.event.createdAt

def consensusHead (quorum : RepoStateQuorum) : Option String :=
  quorum.consensusSnapshot.bind RepoStateSnapshot.head

theorem consensusHead_eq_join (quorum : RepoStateQuorum) :
    quorum.consensusHead =
      (quorum.consensusSnapshot.map RepoStateSnapshot.head).join := by
  unfold consensusHead
  cases quorum.consensusSnapshot <;> rfl

/-- A rejected push changes nothing and returns the snapshot. -/
theorem push_eq_of_error {quorum : RepoStateQuorum}
    {snapshot returned : RepoStateSnapshot}
    (herror : (quorum.push snapshot).2 = .error returned) :
    (quorum.push snapshot).1 = quorum ∧ returned = snapshot := by
  unfold push at herror ⊢
  by_cases hother : snapshot.identifier ≠ quorum.identifier
  · rw [if_pos hother] at herror ⊢
    exact ⟨rfl, (Except.error.inj herror).symm⟩
  · rw [if_neg hother] at herror
    cases herror

/-- What a push does to the quorum, accepted or not. -/
theorem push_fst (quorum : RepoStateQuorum) (snapshot : RepoStateSnapshot) :
    (quorum.push snapshot).1 = { quorum with
      snapshots := quorum.snapshots ++
        [snapshot].filter fun pushed =>
          pushed.identifier == quorum.identifier } := by
  unfold push
  by_cases hother : snapshot.identifier = quorum.identifier
  · simp [hother]
  · simp [hother]

theorem isQuorumMet_iff (quorum : RepoStateQuorum) :
    quorum.isQuorumMet = true ↔
      0 < quorum.quorumSize ∧ quorum.quorumSize ≤ quorum.snapshots.length := by
  simp [isQuorumMet]

end RepoStateQuorum

/-- A quorum as a machine: pushes in, their results out. -/
def quorumMachine :
    Machine RepoStateQuorum RepoStateSnapshot
      (Except RepoStateSnapshot Unit) where
  step quorum snapshot :=
    ((quorum.push snapshot).1, [(quorum.push snapshot).2])

/-- The pushes that are about the repository. -/
def accepted (identifier : String) (pushes : List RepoStateSnapshot) :
    List RepoStateSnapshot :=
  pushes.filter fun snapshot => snapshot.identifier == identifier

theorem accepted_mono (identifier : String)
    {done pushes : List RepoStateSnapshot} (hdone : done <+: pushes) :
    accepted identifier done <+: accepted identifier pushes :=
  hdone.filter _

theorem next_quorumMachine (quorum : RepoStateQuorum)
    (snapshot : RepoStateSnapshot) :
    quorumMachine.next quorum snapshot = { quorum with
      snapshots := quorum.snapshots ++ accepted quorum.identifier [snapshot] } :=
  quorum.push_fst snapshot

/-- A run of pushes collects the accepted snapshots in order. -/
theorem run_quorumMachine (quorum : RepoStateQuorum)
    (pushes : List RepoStateSnapshot) :
    quorumMachine.run quorum pushes = { quorum with
      snapshots := quorum.snapshots ++ accepted quorum.identifier pushes } := by
  induction pushes generalizing quorum with
  | nil => simp [accepted]
  | cons snapshot pushes ih =>
      rw [Machine.run_cons, ih, next_quorumMachine]
      simp only [accepted, List.append_assoc, ← List.filter_append,
        List.singleton_append]

theorem snapshots_run_new (identifier : String) (quorumSize : ℕ)
    (pushes : List RepoStateSnapshot) :
    (quorumMachine.run (.new identifier quorumSize) pushes).snapshots =
      accepted identifier pushes := by
  rw [run_quorumMachine]
  rfl

theorem quorumSize_run (quorum : RepoStateQuorum)
    (pushes : List RepoStateSnapshot) :
    (quorumMachine.run quorum pushes).quorumSize = quorum.quorumSize := by
  rw [run_quorumMachine]

instance transCmp_eventOrder : Std.TransCmp eventOrder :=
  inferInstanceAs (Std.TransCmp (compareLex
    (compareOn fun snapshot : RepoStateSnapshot => snapshot.event.createdAt)
    (compareOn fun snapshot : RepoStateSnapshot => snapshot.event.id)))

/-- Ties have the same time and the same id. -/
theorem eventOrder_eq_iff (left right : RepoStateSnapshot) :
    eventOrder left right = .eq ↔
      left.event.createdAt = right.event.createdAt ∧
        left.event.id = right.event.id := by
  rw [eventOrder, Ordering.then_eq_eq, Std.compare_eq_iff_eq,
    Std.compare_eq_iff_eq]

theorem createdAt_le_of_isLE {left right : RepoStateSnapshot}
    (hle : (eventOrder left right).isLE = true) :
    left.event.createdAt ≤ right.event.createdAt :=
  Std.isLE_compare.mp (Ordering.isLE_left_of_isLE_then hle)

end RepoState

end Gnostr
