/-
Combining two lists position by position, the shorter one padded.  With an
operation that cancels against itself, such as exclusive or, the combination
is a single-erasure code: each list is recovered from the other, and what the
combination cannot tell apart is exactly equality up to padding.
-/
import Mathlib.Data.List.GetD

namespace Gnostr

universe u

variable {α : Type u} (f : α → α → α) (z : α)

/-- Position `i` of the result is `f` of the two entries at `i`, where `z`
stands for an entry beyond the end. -/
def padZip (left right : List α) : List α :=
  (List.range (max left.length right.length)).map fun i =>
    f (left.getD i z) (right.getD i z)

@[simp] theorem length_padZip (left right : List α) :
    (padZip f z left right).length = max left.length right.length := by
  simp [padZip]

theorem getD_padZip (hpad : f z z = z) (left right : List α) (i : ℕ) :
    (padZip f z left right).getD i z = f (left.getD i z) (right.getD i z) := by
  by_cases hi : i < max left.length right.length
  · simp [padZip, List.getD_eq_getElem?_getD, hi]
  · have hle : max left.length right.length ≤ i := Nat.le_of_not_lt hi
    rw [List.getD_eq_default _ _ (by rw [length_padZip]; exact hle),
      List.getD_eq_default _ _ (Nat.le_trans (Nat.le_max_left _ _) hle),
      List.getD_eq_default _ _ (Nat.le_trans (Nat.le_max_right _ _) hle), hpad]

/-- Lists of equal length that agree at every padded position are equal. -/
theorem eq_of_getD_eq {xs ys : List α} (hlength : xs.length = ys.length)
    (hget : ∀ i, xs.getD i z = ys.getD i z) : xs = ys := by
  apply List.ext_getElem hlength
  intro i hx hy
  simpa [List.getD_eq_getElem?_getD, hx, hy] using hget i

/-- The two lists look alike next to a list of length `n`: they differ at most
in padding that the longer list hides. -/
def PadEq (n : ℕ) (xs ys : List α) : Prop :=
  max xs.length n = max ys.length n ∧ ∀ i, xs.getD i z = ys.getD i z

section Cancel

variable (hpad : f z z = z)

include hpad

theorem take_padZip_right (hcancel : ∀ a b, f b (f a b) = a)
    (left right : List α) :
    (padZip f z right (padZip f z left right)).take left.length = left := by
  apply List.ext_getElem
  · simp only [List.length_take, length_padZip]
    omega
  · intro i hi hleft
    have hget := getD_padZip f z hpad right (padZip f z left right) i
    rw [getD_padZip f z hpad left right, hcancel] at hget
    have houter : i < (padZip f z right (padZip f z left right)).length := by
      rw [List.length_take] at hi
      exact Nat.lt_of_lt_of_le hi (Nat.min_le_right _ _)
    rw [List.getD_eq_getElem _ _ houter,
      List.getD_eq_getElem _ _ hleft] at hget
    rw [List.getElem_take]
    exact hget

theorem take_padZip_left (hcancel : ∀ a b, f a (f a b) = b)
    (left right : List α) :
    (padZip f z left (padZip f z left right)).take right.length = right := by
  apply List.ext_getElem
  · simp only [List.length_take, length_padZip]
    omega
  · intro i hi hright
    have hget := getD_padZip f z hpad left (padZip f z left right) i
    rw [getD_padZip f z hpad left right, hcancel] at hget
    have houter : i < (padZip f z left (padZip f z left right)).length := by
      rw [List.length_take] at hi
      exact Nat.lt_of_lt_of_le hi (Nat.min_le_right _ _)
    rw [List.getD_eq_getElem _ _ houter,
      List.getD_eq_getElem _ _ hright] at hget
    rw [List.getElem_take]
    exact hget

/-- Replacing the left list goes unnoticed exactly when the replacement looks
like the original next to the right list. -/
theorem padZip_left_eq_iff (hcancel : ∀ a b, f b (f a b) = a)
    (xs ys right : List α) :
    padZip f z xs right = padZip f z ys right ↔ PadEq z right.length xs ys := by
  constructor
  · intro heq
    refine ⟨by simpa using congrArg List.length heq, ?_⟩
    intro i
    have hget := congrArg (fun zs => f (right.getD i z) (zs.getD i z)) heq
    simpa only [getD_padZip f z hpad, hcancel] using hget
  · rintro ⟨hlength, hget⟩
    apply eq_of_getD_eq z
    · simpa using hlength
    · intro i
      rw [getD_padZip f z hpad, getD_padZip f z hpad, hget]

theorem padZip_right_eq_iff (hcancel : ∀ a b, f a (f a b) = b)
    (left xs ys : List α) :
    padZip f z left xs = padZip f z left ys ↔ PadEq z left.length xs ys := by
  constructor
  · intro heq
    refine ⟨?_, ?_⟩
    · have hlength := congrArg List.length heq
      simp only [length_padZip] at hlength
      rw [Nat.max_comm xs.length, Nat.max_comm ys.length, hlength]
    · intro i
      have hget := congrArg (fun zs => f (left.getD i z) (zs.getD i z)) heq
      simpa only [getD_padZip f z hpad, hcancel] using hget
  · rintro ⟨hlength, hget⟩
    apply eq_of_getD_eq z
    · simp only [length_padZip]
      rw [Nat.max_comm left.length, Nat.max_comm left.length, hlength]
    · intro i
      rw [getD_padZip f z hpad, getD_padZip f z hpad, hget]

end Cancel

end Gnostr
