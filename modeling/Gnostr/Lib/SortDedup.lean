/-
Lists that are sorted and then freed of repetitions: what is in them, and that they are
determined by it.
-/
import Mathlib.Data.List.Destutter
import Mathlib.Data.List.Sort

namespace Gnostr

section Destutter

variable {α : Type*} [DecidableEq α]

theorem mem_destutter'_ne_iff {a b : α} {list : List α} :
    b ∈ list.destutter' (· ≠ ·) a ↔ b = a ∨ b ∈ list := by
  induction list generalizing a with
  | nil => rw [List.destutter'_nil, List.mem_singleton, or_iff_left List.not_mem_nil]
  | cons c list ih =>
      by_cases hne : a ≠ c
      · rw [List.destutter'_cons_pos list hne, List.mem_cons, ih, List.mem_cons]
      · obtain rfl := not_not.mp hne
        rw [List.destutter'_cons_neg list hne, ih, List.mem_cons, ← or_assoc, or_self]

/-- Repetitions are removed, and nothing else. -/
theorem mem_destutter_ne_iff {b : α} {list : List α} :
    b ∈ list.destutter (· ≠ ·) ↔ b ∈ list := by
  cases list with
  | nil => exact Iff.rfl
  | cons a list => rw [List.destutter_cons', mem_destutter'_ne_iff, List.mem_cons]

end Destutter

section SortDedup

variable {α : Type*} [LinearOrder α]

/-- `sort` and `dedup`. -/
def sortDedup (list : List α) : List α :=
  (list.mergeSort fun a b => decide (a ≤ b)).destutter (· ≠ ·)

@[simp] theorem mem_sortDedup {a : α} {list : List α} : a ∈ sortDedup list ↔ a ∈ list := by
  rw [sortDedup, mem_destutter_ne_iff, List.mem_mergeSort]

/-- Neighbours that are in order and different are in strict order. -/
theorem isChain_lt {list : List α} (hsorted : list.Pairwise (· ≤ ·))
    (hchain : list.IsChain (· ≠ ·)) : list.IsChain (· < ·) := by
  induction list with
  | nil => exact .nil
  | cons a list ih =>
      obtain ⟨hfirst, hsorted⟩ := List.pairwise_cons.mp hsorted
      cases list with
      | nil => exact .singleton a
      | cons b rest =>
          rw [List.isChain_cons_cons] at hchain ⊢
          have hle := hfirst b List.mem_cons_self
          exact ⟨lt_of_le_of_ne hle hchain.1, ih hsorted hchain.2⟩

/-- A list is sorted, and nothing is in it twice. -/
theorem pairwise_sortDedup (list : List α) : (sortDedup list).Pairwise (· < ·) := by
  have hsorted : (list.mergeSort fun a b => decide (a ≤ b)).Pairwise (· ≤ ·) :=
    List.pairwise_mergeSort' _ list
  have hsublist := List.destutter_sublist (· ≠ ·)
    (list.mergeSort fun a b => decide (a ≤ b))
  have hchain := List.isChain_destutter (· ≠ ·)
    (list.mergeSort fun a b => decide (a ≤ b))
  exact List.isChain_iff_pairwise.mp (isChain_lt (hsorted.sublist hsublist) hchain)

/-- Lists with the same elements are the same once they are sorted. -/
theorem sortDedup_congr {first second : List α} (hsame : ∀ a, a ∈ first ↔ a ∈ second) :
    sortDedup first = sortDedup second := by
  refine List.Pairwise.eq_of_mem_iff (pairwise_sortDedup first) (pairwise_sortDedup second)
    fun a => ?_
  rw [mem_sortDedup, mem_sortDedup, hsame]

@[simp] theorem sortDedup_eq_nil_iff {list : List α} : sortDedup list = [] ↔ list = [] := by
  simp only [List.eq_nil_iff_forall_not_mem, mem_sortDedup]

end SortDedup

end Gnostr
