/-
Order statistics of a finite list, and what they still say when a bounded
number of the entries is arbitrary.  Everything is pinned down by counting:
entry `k` of the sorted list lies below a threshold exactly when more than `k`
entries do.
-/
import Mathlib.Data.List.Sort
import Mathlib.Data.List.Perm.Basic

namespace Gnostr

universe u

variable {α : Type u} [LinearOrder α]

/-- Entry `k`, counted from zero, of the list in ascending order. -/
def orderStat (xs : List α) (k : ℕ) : Option α :=
  (xs.insertionSort (· ≤ ·))[k]?

theorem orderStat_eq_none_iff {xs : List α} {k : ℕ} :
    orderStat xs k = none ↔ xs.length ≤ k := by
  rw [orderStat, List.getElem?_eq_none_iff, List.length_insertionSort]

theorem exists_orderStat_eq_some (xs : List α) {k : ℕ} (hk : k < xs.length) :
    ∃ value, orderStat xs k = some value := by
  apply Option.ne_none_iff_exists'.mp
  rw [ne_eq, orderStat_eq_none_iff]
  exact Nat.not_le_of_lt hk

/-- Sorting forgets the order in which the entries were listed. -/
theorem insertionSort_eq_of_perm {xs ys : List α} (hperm : xs.Perm ys) :
    xs.insertionSort (· ≤ ·) = ys.insertionSort (· ≤ ·) := by
  apply List.Perm.eq_of_pairwise' (List.pairwise_insertionSort (· ≤ ·) xs)
    (List.pairwise_insertionSort (· ≤ ·) ys)
  exact ((List.perm_insertionSort (· ≤ ·) xs).trans hperm).trans
    (List.perm_insertionSort (· ≤ ·) ys).symm

/-- In a sorted list a downward closed property holds exactly on an initial
segment, whose length is the number of entries with the property. -/
theorem getElem?_iff_lt_countP_of_pairwise (p : α → Bool)
    (hdown : ∀ a b, a ≤ b → p b = true → p a = true)
    {xs : List α} (hsorted : xs.Pairwise (· ≤ ·)) {k : ℕ} {value : α}
    (hvalue : xs[k]? = some value) : p value = true ↔ k < xs.countP p := by
  induction xs generalizing k with
  | nil => simp at hvalue
  | cons head tail ih =>
      simp only [List.pairwise_cons] at hsorted
      obtain ⟨hhead, htail⟩ := hsorted
      by_cases hp : p head = true
      · rw [List.countP_cons_of_pos hp]
        cases k with
        | zero =>
            simp only [List.getElem?_cons_zero, Option.some.injEq] at hvalue
            subst hvalue
            simp [hp]
        | succ k =>
            simp only [List.getElem?_cons_succ] at hvalue
            rw [ih htail hvalue]
            omega
      · -- The head already lies above the threshold, so every entry does.
        have hnone : ∀ x ∈ head :: tail, ¬ p x = true := by
          intro x hx hpx
          simp only [List.mem_cons] at hx
          rcases hx with rfl | hx
          · exact hp hpx
          · exact hp (hdown head x (hhead x hx) hpx)
        rw [List.countP_eq_zero.mpr hnone]
        have hnot := hnone value (List.mem_of_getElem? hvalue)
        simp [hnot]

theorem orderStat_iff_lt_countP (p : α → Bool)
    (hdown : ∀ a b, a ≤ b → p b = true → p a = true)
    {xs : List α} {k : ℕ} {value : α} (hvalue : orderStat xs k = some value) :
    p value = true ↔ k < xs.countP p := by
  rw [← (List.perm_insertionSort (· ≤ ·) xs).countP_eq p]
  exact getElem?_iff_lt_countP_of_pairwise p hdown
    (List.pairwise_insertionSort (· ≤ ·) xs) hvalue

/-- Entry `k` from below is at most `t` exactly when more than `k` entries are. -/
theorem orderStat_le_iff {xs : List α} {k : ℕ} {value : α} (t : α)
    (hvalue : orderStat xs k = some value) :
    value ≤ t ↔ k < xs.countP (fun x => decide (x ≤ t)) := by
  have hiff := orderStat_iff_lt_countP (fun x => decide (x ≤ t))
    (fun a b hab hb => decide_eq_true (hab.trans (of_decide_eq_true hb))) hvalue
  simpa using hiff

/-- Entry `k` from above is at least `t` exactly when more than `k` entries are. -/
theorem le_orderStat_top_iff {xs : List α} {k : ℕ} {value : α} (t : α)
    (hk : k < xs.length)
    (hvalue : orderStat xs (xs.length - 1 - k) = some value) :
    t ≤ value ↔ k < xs.countP (fun x => decide (t ≤ x)) := by
  have hiff := orderStat_iff_lt_countP (fun x => decide (x < t))
    (fun a b hab hb => decide_eq_true (hab.trans_lt (of_decide_eq_true hb))) hvalue
  have hsplit := List.length_eq_countP_add_countP
    (fun x => decide (x < t)) (l := xs)
  have hcompl : xs.countP (fun x => decide ¬decide (x < t) = true) =
      xs.countP (fun x => decide (t ≤ x)) := by
    congr 1
    funext x
    simp
  simp only [decide_eq_true_eq] at hiff
  rw [← not_lt, hiff]
  omega

section Faults

variable {xs good bad : List α} {k : ℕ} {value : α}

omit [LinearOrder α] in
/-- Among more than `k` entries of a list with at most `k` bad ones, one is
good. -/
theorem exists_good_of_lt_countP (hsplit : xs.Perm (good ++ bad))
    (hbad : bad.length ≤ k) (p : α → Bool) (hcount : k < xs.countP p) :
    ∃ x ∈ good, p x = true := by
  rw [hsplit.countP_eq p, List.countP_append] at hcount
  have hle : bad.countP p ≤ bad.length := List.countP_le_length
  exact List.countP_pos_iff.mp (by omega)

/-- With at most `k` bad entries, entry `k` from below bounds some good entry
from above. -/
theorem exists_good_le_orderStat (hsplit : xs.Perm (good ++ bad))
    (hbad : bad.length ≤ k) (hvalue : orderStat xs k = some value) :
    ∃ x ∈ good, x ≤ value := by
  obtain ⟨x, hx, hle⟩ := exists_good_of_lt_countP hsplit hbad
    (fun x => decide (x ≤ value)) ((orderStat_le_iff value hvalue).mp le_rfl)
  exact ⟨x, hx, of_decide_eq_true hle⟩

/-- With at most `k` bad entries, entry `k` from above bounds some good entry
from below. -/
theorem exists_orderStat_top_le_good (hsplit : xs.Perm (good ++ bad))
    (hbad : bad.length ≤ k) (hk : k < xs.length)
    (hvalue : orderStat xs (xs.length - 1 - k) = some value) :
    ∃ x ∈ good, value ≤ x := by
  obtain ⟨x, hx, hle⟩ := exists_good_of_lt_countP hsplit hbad
    (fun x => decide (value ≤ x))
    ((le_orderStat_top_iff value hk hvalue).mp le_rfl)
  exact ⟨x, hx, of_decide_eq_true hle⟩

end Faults

end Gnostr
