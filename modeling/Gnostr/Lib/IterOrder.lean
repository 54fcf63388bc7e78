/-
Iteration over a hash set or the keys of a hash map.  The order is left to the
implementation, so it is a parameter: any way to list each element of a finite
set exactly once.
-/
import Mathlib.Data.Finset.Dedup
import Mathlib.Data.Finset.Erase

namespace Gnostr

universe u

/-- An order of iteration over finite sets of `α`. -/
structure IterOrder (α : Type u) where
  list : Finset α → List α
  nodup_list : ∀ s, (list s).Nodup
  mem_list : ∀ s a, a ∈ list s ↔ a ∈ s

/-- Some order of iteration. -/
noncomputable def IterOrder.some (α : Type u) : IterOrder α where
  list := Finset.toList
  nodup_list := Finset.nodup_toList
  mem_list _ _ := Finset.mem_toList

/-- An order that visits one element first where it is there. -/
noncomputable def IterOrder.startingWith {α : Type u} [DecidableEq α] (a : α) :
    IterOrder α where
  list s := if a ∈ s then a :: (s.erase a).toList else s.toList
  nodup_list s := by
    split_ifs
    · refine List.nodup_cons.mpr ⟨?_, Finset.nodup_toList _⟩
      rw [Finset.mem_toList]
      exact Finset.notMem_erase a s
    · exact Finset.nodup_toList s
  mem_list s b := by
    split_ifs with ha
    · rw [List.mem_cons, Finset.mem_toList, Finset.mem_erase]
      constructor
      · rintro (rfl | ⟨-, hb⟩)
        · exact ha
        · exact hb
      · exact fun hb => or_iff_not_imp_left.mpr fun hne => ⟨hne, hb⟩
    · exact Finset.mem_toList

namespace IterOrder

/-- The element that is visited first is the one that is found. -/
theorem find?_list_startingWith {α : Type u} [DecidableEq α] {a : α}
    {s : Finset α} {p : α → Bool} (ha : a ∈ s) (hp : p a = true) :
    ((startingWith a).list s).find? p = Option.some a := by
  have hlist : (startingWith a).list s = a :: (s.erase a).toList := if_pos ha
  rw [hlist, List.find?_cons_of_pos hp]

variable {α : Type u} (order : IterOrder α) (s : Finset α) (p : α → Bool)

/-- A test of every element does not depend on the order. -/
theorem all_list_iff :
    (order.list s).all p = true ↔ ∀ a ∈ s, p a = true := by
  simp [order.mem_list]

theorem nodup_filter_list : ((order.list s).filter p).Nodup :=
  (order.nodup_list s).filter p

@[simp] theorem mem_filter_list (a : α) :
    a ∈ (order.list s).filter p ↔ a ∈ s ∧ p a = true := by
  rw [List.mem_filter, order.mem_list]

end IterOrder

end Gnostr
