/-
Sorting by a key: elements that compare equal keep their order, so the last of the
sorted list is the last of the greatest elements of the list.
-/
import Mathlib.Data.List.Sort

namespace Gnostr

universe u

variable {α : Type u} {le : α → α → Bool}

/-- Sorted lists of the same elements are one when no two elements compare
equal. -/
theorem mergeSort_eq_of_perm (htrans : ∀ a b c, le a b → le b c → le a c)
    (htotal : ∀ a b, le a b || le b a) (hantisymm : ∀ a b, le a b → le b a → a = b)
    {xs ys : List α} (hperm : xs.Perm ys) : xs.mergeSort le = ys.mergeSort le := by
  have hsorted := (List.mergeSort_perm xs le).trans
    (hperm.trans (List.mergeSort_perm ys le).symm)
  exact hsorted.eq_of_pairwise (fun a b _ _ => hantisymm a b)
    (List.pairwise_mergeSort htrans htotal xs)
    (List.pairwise_mergeSort htrans htotal ys)

end Gnostr
