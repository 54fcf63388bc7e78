/-
Histories that are read by walking back from a node: how far one node is ahead of
another and behind it, by where the two walks meet.
-/
import Mathlib.Data.List.Basic
import Mathlib.Data.List.Pairwise

namespace Gnostr

universe u

variable {α : Type u}

/-- A walk from each node over all that is behind it, where nothing is listed before what
it is behind. -/
structure IsHistory (walk : α → List α) : Prop where
  head : ∀ node, (walk node).head? = some node
  trans : ∀ {first next last}, next ∈ walk first → last ∈ walk next → last ∈ walk first
  ordered : ∀ node, (walk node).Pairwise fun first last => first ∉ walk last

namespace IsHistory

variable {walk : α → List α} (hwalk : IsHistory walk)

include hwalk

theorem exists_eq_cons (node : α) : ∃ rest, walk node = node :: rest := by
  cases hlist : walk node with
  | nil =>
      have := hwalk.head node
      rw [hlist] at this
      exact absurd this (by simp)
  | cons first rest =>
      have := hwalk.head node
      rw [hlist, List.head?_cons, Option.some_inj] at this
      exact ⟨rest, by rw [this]⟩

theorem mem_self (node : α) : node ∈ walk node := by
  obtain ⟨rest, hrest⟩ := hwalk.exists_eq_cons node
  rw [hrest]
  exact List.mem_cons_self

theorem antisymm {first last : α} (hlast : last ∈ walk first) (hfirst : first ∈ walk last) :
    first = last := by
  obtain ⟨rest, hrest⟩ := hwalk.exists_eq_cons first
  have hordered := hwalk.ordered first
  rw [hrest] at hlast hordered
  rcases List.mem_cons.mp hlast with rfl | hlast
  · rfl
  · exact absurd hfirst ((List.pairwise_cons.mp hordered).1 last hlast)

end IsHistory

variable [DecidableEq α]

/-- The first of a walk that another walk comes by too. -/
def firstShared (base latest : List α) : Option α := base.find? (· ∈ latest)

/-- What a walk comes by before the other one does. -/
def unshared (base latest : List α) : List α := base.takeWhile (· ∉ latest)

theorem isSome_firstShared_iff {base latest : List α} :
    (firstShared base latest).isSome ↔ ∃ node ∈ base, node ∈ latest := by
  simp [firstShared, List.find?_isSome]

namespace IsHistory

variable {walk : α → List α} (hwalk : IsHistory walk) {base latest : α}

include hwalk

/-- Nothing is behind exactly when the base belongs to the history of the latest. -/
theorem unshared_eq_nil_iff :
    unshared (walk base) (walk latest) = [] ↔ base ∈ walk latest := by
  obtain ⟨rest, hrest⟩ := hwalk.exists_eq_cons base
  rw [unshared, hrest, List.takeWhile_cons]
  by_cases hmem : base ∈ walk latest
  · simp [hmem]
  · simp [hmem]

/-- The walks meet at the latest exactly when it belongs to the history of the base. -/
theorem firstShared_eq_latest_iff :
    firstShared (walk base) (walk latest) = some latest ↔ latest ∈ walk base := by
  constructor
  · exact List.mem_of_find?_eq_some
  · intro hlatest
    have hsome : (firstShared (walk base) (walk latest)).isSome :=
      isSome_firstShared_iff.mpr ⟨latest, hlatest, hwalk.mem_self latest⟩
    obtain ⟨shared, hshared⟩ := Option.isSome_iff_exists.mp hsome
    rw [hshared, Option.some_inj]
    obtain ⟨hbehind, before, after, hsplit, hbefore⟩ := List.find?_eq_some_iff_append.mp hshared
    have hshared' : shared ∈ walk latest := by simpa using hbehind
    have hordered := hwalk.ordered base
    rw [hsplit] at hlatest hordered
    -- the walk of the base comes by the latest no sooner than by what the latest is ahead of
    rcases List.mem_append.mp hlatest with hmem | hmem
    · exact absurd (hwalk.mem_self latest) (by simpa using hbefore latest hmem)
    · rcases List.mem_cons.mp hmem with rfl | hmem
      · rfl
      · have := (List.pairwise_append.mp hordered).2.1
        exact absurd hshared' ((List.pairwise_cons.mp this).1 latest hmem)

/-- Nothing is ahead exactly when the walks meet at the latest. -/
theorem takeWhile_ne_eq_nil_iff {shared : α} :
    (walk latest).takeWhile (· ≠ shared) = [] ↔ shared = latest := by
  obtain ⟨rest, hrest⟩ := hwalk.exists_eq_cons latest
  rw [hrest, List.takeWhile_cons]
  by_cases heq : latest = shared
  · simp [heq]
  · simp [heq, Ne.symm heq]

end IsHistory

end Gnostr
