/-
The order of the tags of a repository state.  The references are collected from
all tags, the identifier is expected in the first tag that has a value.
-/
import Gnostr.Nip34.RepoState

namespace Gnostr

namespace Nip34

open Gnostr.Types

/-- The name and the value of a tag that has both. -/
def nameAndValue (tag : TagV3) : Option (String × String) :=
  match tag.fields with
  | name :: value :: _ => some (name, value)
  | _ => none

/-- The references among the tags. -/
def refEntries (git : Git2) (tags : List TagV3) : List (String × String) :=
  (tags.filterMap nameAndValue).filter fun entry =>
    isRefName entry.1 && isRefValue git entry.2

theorem readRefTag_eq (git : Git2) (state : RefMap) (tag : TagV3) :
    readRefTag git state tag =
      insertEntries state ((nameAndValue tag).toList.filter fun entry =>
        isRefName entry.1 && isRefValue git entry.2) := by
  obtain ⟨_ | ⟨name, _ | ⟨value, rest⟩⟩⟩ := tag
  · rfl
  · rfl
  · have hread : nameAndValue ⟨name :: value :: rest⟩ = some (name, value) := rfl
    rw [hread, Option.toList_some, List.filter_singleton, readRefTag]
    dsimp only
    cases isRefName name && isRefValue git value <;> rfl

/-- The tags are read by inserting the references among them. -/
theorem foldl_readRefTag_eq (git : Git2) (tags : List TagV3) (state : RefMap) :
    tags.foldl (readRefTag git) state =
      insertEntries state (refEntries git tags) := by
  induction tags generalizing state with
  | nil => rfl
  | cons tag tags ih =>
      rw [List.foldl_cons, ih, readRefTag_eq]
      unfold insertEntries refEntries
      rw [← List.foldl_append, ← List.filter_append]
      congr 2
      rw [List.filterMap_cons]
      cases nameAndValue tag <;> rfl

theorem identifierOf_eq (tags : List TagV3) :
    identifierOf tags = Outcome.okOr .tagMismatch
      (((tags.filterMap nameAndValue).head?.filter fun entry =>
        entry.1 == "d").map Prod.snd) := by
  rw [List.head?_filterMap]
  rfl

/-- The identifier is found exactly when the first tag with a value holds it. -/
theorem identifierOf_eq_ok_iff {tags : List TagV3} {identifier : String} :
    identifierOf tags = .ok identifier ↔
      (tags.filterMap nameAndValue).head? = some ("d", identifier) := by
  rw [identifierOf_eq, Outcome.okOr_eq_ok_iff, Option.map_eq_some_iff]
  constructor
  · rintro ⟨entry, hentry, rfl⟩
    rw [Option.filter_eq_some_iff, beq_iff_eq] at hentry
    rw [hentry.1, ← hentry.2]
  · intro hhead
    refine ⟨("d", identifier), ?_, rfl⟩
    rw [hhead]
    rfl

/-- Otherwise the tags are not those of a repository state. -/
theorem identifierOf_eq_err_iff {tags : List TagV3} :
    identifierOf tags = .err .tagMismatch ↔
      ¬ ∃ identifier, (tags.filterMap nameAndValue).head? =
        some ("d", identifier) := by
  rw [← not_iff_not, not_not]
  simp only [← identifierOf_eq_ok_iff]
  rw [identifierOf_eq]
  cases ((tags.filterMap nameAndValue).head?.filter fun entry =>
    entry.1 == "d").map Prod.snd <;> simp

section Single

variable {git : Git2} {order : IterOrder String} {event : EventV3}

/-- What is read of one event. -/
theorem RepoState.tryFrom_one (git : Git2) (order : IterOrder String)
    (hkind : event.kind = repoStateKind) :
    RepoState.tryFrom git order [event] = (do
      let identifier ← identifierOf event.tags
      return ⟨identifier, addHead order (insertEntries ∅
        (refEntries git event.tags)), event⟩) := by
  unfold RepoState.tryFrom
  rw [List.mergeSort_singleton, ← foldl_readRefTag_eq]
  exact if_neg (not_not_intro hkind)

theorem RepoState.tryFrom_one_eq_ok_iff (hkind : event.kind = repoStateKind)
    {result : RepoState} :
    RepoState.tryFrom git order [event] = .ok result ↔
      (event.tags.filterMap nameAndValue).head? = some ("d", result.identifier) ∧
        result.state = addHead order (insertEntries ∅
          (refEntries git event.tags)) ∧ result.event = event := by
  rw [tryFrom_one git order hkind, Outcome.bind_eq_ok_iff]
  constructor
  · rintro ⟨identifier, hidentifier, hresult⟩
    cases hresult
    exact ⟨identifierOf_eq_ok_iff.mp hidentifier, rfl, rfl⟩
  · rintro ⟨hhead, hstate, hevent⟩
    refine ⟨result.identifier, identifierOf_eq_ok_iff.mpr hhead, ?_⟩
    rw [← hstate]
    cases result
    cases hevent
    rfl

theorem RepoState.tryFrom_one_of_head {identifier : String}
    (hkind : event.kind = repoStateKind)
    (hhead : (event.tags.filterMap nameAndValue).head? = some ("d", identifier)) :
    RepoState.tryFrom git order [event] =
      .ok ⟨identifier, addHead order (insertEntries ∅
        (refEntries git event.tags)), event⟩ :=
  (tryFrom_one_eq_ok_iff hkind).mpr ⟨hhead, rfl, rfl⟩

/-- An event without an identifier in its place is refused. -/
theorem RepoState.tryFrom_one_eq_err (hkind : event.kind = repoStateKind)
    (hnone : ¬ ∃ identifier, (event.tags.filterMap nameAndValue).head? =
      some ("d", identifier)) :
    RepoState.tryFrom git order [event] = .err .tagMismatch := by
  rw [tryFrom_one git order hkind, identifierOf_eq_err_iff.mpr hnone]
  rfl

end Single

section Permuted

variable {git : Git2} {order : IterOrder String} {event : EventV3}
  {tags : List TagV3} {identifier : String}

end Permuted

/-- An event of a repository state. -/
def stateEvent (createdAt : Int64) (id : UInt8) (tags : List TagV3) : EventV3 where
  id := ⟨Vector.replicate 32 id⟩
  pubkey := ⟨Vector.replicate 32 1⟩
  createdAt := createdAt
  kind := repoStateKind
  sig := ⟨Vector.replicate 64 0⟩
  content := ""
  tags := tags

def identifierTag : TagV3 := ⟨["d", "gnostr"]⟩

end Nip34

end Gnostr
