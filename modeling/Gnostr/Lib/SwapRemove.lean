/-
Lists used as sets: a value is added behind the others unless it is there, and deleted by
moving the last one to the place of its first occurrence.
-/
import Mathlib.Data.List.Induction
import Mathlib.Data.List.Nodup
import Mathlib.Data.List.Perm.Basic

namespace Gnostr

variable {α : Type*}

/-- `swap_remove`. -/
def swapRemove (list : List α) (index : ℕ) : List α :=
  match list.getLast? with
  | some last => (list.set index last).dropLast
  | none => list

/-- Removing by swapping is removing, up to the order. -/
theorem swapRemove_perm {list : List α} {index : ℕ} (hindex : index < list.length) :
    (swapRemove list index).Perm (list.eraseIdx index) := by
  induction list using List.reverseRecOn with
  | nil => exact absurd hindex (Nat.not_lt_zero _)
  | append_singleton list last _ =>
      unfold swapRemove
      rw [List.getLast?_concat]
      dsimp only
      rw [List.length_append, List.length_singleton] at hindex
      rcases Nat.lt_or_eq_of_le (Nat.le_of_lt_succ hindex) with hlt | heq
      · rw [List.set_append_left _ _ hlt, List.dropLast_concat,
          List.eraseIdx_append_of_lt_length hlt]
        exact (List.set_perm_cons_eraseIdx hlt last).trans
          (List.perm_append_singleton last _).symm
      · rw [heq, List.set_append_right _ _ (Nat.le_refl _), Nat.sub_self,
          List.eraseIdx_append_of_length_le (Nat.le_refl _), Nat.sub_self]
        simp

variable [DecidableEq α]

/-- A value is pushed unless the list contains it. -/
def addUnique (value : α) (list : List α) : List α :=
  if value ∈ list then list else list ++ [value]

/-- The value is removed at its first position. -/
def deleteFirst (value : α) (list : List α) : List α :=
  match list.idxOf? value with
  | some index => swapRemove list index
  | none => list

/-- The value is gone and any other stands there as often as before. -/
structure Deletes (value : α) (before after : List α) : Prop where
  absent : value ∉ after
  others : ∀ other, other ≠ value → after.count other = before.count other

section

variable {value other : α} {list : List α}

theorem addUnique_of_mem (hmem : value ∈ list) : addUnique value list = list := if_pos hmem

theorem nodup_addUnique (hlist : list.Nodup) : (addUnique value list).Nodup := by
  unfold addUnique
  split_ifs with hmem
  · exact hlist
  · refine List.nodup_append.mpr ⟨hlist, List.nodup_singleton value, ?_⟩
    rintro a ha b hb rfl
    rw [List.mem_singleton.mp hb] at ha
    exact hmem ha

theorem deleteFirst_of_notMem (hmem : value ∉ list) : deleteFirst value list = list := by
  rw [deleteFirst, List.idxOf?_eq_none_iff.mpr hmem]

theorem cons_deleteFirst_perm (hmem : value ∈ list) :
    (value :: deleteFirst value list).Perm list := by
  obtain ⟨index, hindex⟩ := Option.isSome_iff_exists.mp (List.isSome_idxOf?.mpr hmem)
  obtain ⟨hlt, hvalue, -⟩ := List.idxOf?_eq_some_iff.mp hindex
  have hperm := List.getElem_cons_eraseIdx_perm hlt
  rw [hvalue] at hperm
  rw [deleteFirst, hindex]
  exact ((swapRemove_perm hlt).cons value).trans hperm

theorem count_deleteFirst_of_ne (hne : other ≠ value) :
    (deleteFirst value list).count other = list.count other := by
  by_cases hmem : value ∈ list
  · rw [← (cons_deleteFirst_perm hmem).count_eq other, List.count_cons_of_ne hne.symm]
  · rw [deleteFirst_of_notMem hmem]

theorem notMem_deleteFirst_iff :
    value ∉ deleteFirst value list ↔ list.count value ≤ 1 := by
  by_cases hmem : value ∈ list
  · rw [← (cons_deleteFirst_perm hmem).count_eq value, List.count_cons_self,
      ← List.count_eq_zero]
    omega
  · rw [deleteFirst_of_notMem hmem, List.count_eq_zero.mpr hmem]
    exact iff_of_true hmem (Nat.zero_le 1)

theorem nodup_deleteFirst (hlist : list.Nodup) : (deleteFirst value list).Nodup := by
  by_cases hmem : value ∈ list
  · exact (List.nodup_cons.mp ((cons_deleteFirst_perm hmem).nodup_iff.mpr hlist)).2
  · rwa [deleteFirst_of_notMem hmem]

/-- The value is deleted exactly when it does not stand there twice. -/
theorem deletes_deleteFirst_iff :
    Deletes value list (deleteFirst value list) ↔ list.count value ≤ 1 := by
  rw [← notMem_deleteFirst_iff]
  exact ⟨Deletes.absent, fun habsent => ⟨habsent, fun _ => count_deleteFirst_of_ne⟩⟩

theorem deletes_deleteFirst_of_nodup (hlist : list.Nodup) :
    Deletes value list (deleteFirst value list) :=
  deletes_deleteFirst_iff.mpr (List.nodup_iff_count_le_one.mp hlist value)

end

end Gnostr
