/-
Lists that occur in another one, one after the other and without overlapping.
-/
import Mathlib.Data.List.Infix

namespace Gnostr

universe u

variable {α : Type u}

/-- The parts occur in the whole, each behind the one before it. -/
def OccurInOrder : List (List α) → List α → Prop
  | [], _ => True
  | part :: parts, whole =>
      ∃ before after, whole = before ++ part ++ after ∧ OccurInOrder parts after

namespace OccurInOrder

/-- What is appended to the whole is no obstacle. -/
theorem append {parts : List (List α)} {whole : List α} (hparts : OccurInOrder parts whole)
    (more : List α) : OccurInOrder parts (whole ++ more) := by
  induction parts generalizing whole with
  | nil => exact trivial
  | cons part parts ih =>
      obtain ⟨before, after, hwhole, hrest⟩ := hparts
      exact ⟨before, after ++ more, by simp [hwhole], ih hrest⟩

/-- A part that is appended occurs behind the others. -/
theorem snoc {parts : List (List α)} {whole : List α} (hparts : OccurInOrder parts whole)
    (part : List α) : OccurInOrder (parts ++ [part]) (whole ++ part) := by
  induction parts generalizing whole with
  | nil => exact ⟨whole, [], by simp, trivial⟩
  | cons first parts ih =>
      obtain ⟨before, after, hwhole, hrest⟩ := hparts
      exact ⟨before, after ++ part, by simp [hwhole], ih hrest⟩

end OccurInOrder

end Gnostr
