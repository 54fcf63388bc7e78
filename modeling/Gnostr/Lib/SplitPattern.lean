/-
Splitting a list at the places where a pattern occurs, from left to right and
without overlap, as texts are split by a separator of several characters.
-/
import Mathlib.Data.List.Basic

namespace Gnostr

universe u

variable {α : Type u}

theorem intercalate_modifyHead_cons (separator : List α) (head : α)
    {parts : List (List α)} (hparts : parts ≠ []) :
    separator.intercalate (parts.modifyHead (head :: ·)) =
      head :: separator.intercalate parts := by
  cases parts with
  | nil => exact absurd rfl hparts
  | cons part parts =>
      cases parts with
      | nil => simp
      | cons next parts => simp [List.intercalate_cons_cons]

variable [DecidableEq α]

/-- The parts from here on, after the next `skip` elements, which belong to an
occurrence that has begun. -/
def splitPatternFrom (pattern : List α) : ℕ → List α → List (List α)
  | _, [] => [[]]
  | skip + 1, _ :: rest => splitPatternFrom pattern skip rest
  | 0, head :: rest =>
      if pattern <+: head :: rest then
        [] :: splitPatternFrom pattern (pattern.length - 1) rest
      else (splitPatternFrom pattern 0 rest).modifyHead (head :: ·)

def splitPattern (pattern list : List α) : List (List α) :=
  splitPatternFrom pattern 0 list

theorem splitPatternFrom_ne_nil (pattern : List α) (skip : ℕ) (list : List α) :
    splitPatternFrom pattern skip list ≠ [] := by
  induction list generalizing skip with
  | nil =>
      rw [splitPatternFrom]
      exact List.cons_ne_nil _ _
  | cons head rest ih =>
      cases skip with
      | succ skip => exact ih skip
      | zero =>
          rw [splitPatternFrom]
          split
          · exact List.cons_ne_nil _ _
          · exact List.modifyHead_eq_nil_iff.not.mpr (ih 0)

/-- The parts with the pattern between them are the list again. -/
theorem intercalate_splitPatternFrom {pattern : List α} (hpattern : pattern ≠ [])
    (skip : ℕ) (list : List α) :
    pattern.intercalate (splitPatternFrom pattern skip list) =
      list.drop skip := by
  induction list generalizing skip with
  | nil => simp [splitPatternFrom]
  | cons head rest ih =>
      cases skip with
      | succ skip => exact ih skip
      | zero =>
          rw [splitPatternFrom, List.drop_zero]
          split
          · rename_i hprefix
            obtain ⟨first, tail, rfl⟩ := List.exists_cons_of_ne_nil hpattern
            obtain ⟨after, hafter⟩ := hprefix
            rw [List.cons_append, List.cons.injEq] at hafter
            rw [List.intercalate_cons_of_ne_nil (splitPatternFrom_ne_nil _ _ _),
              ih, List.nil_append, ← hafter.1, ← hafter.2, List.length_cons,
              Nat.add_sub_cancel, List.drop_left]
            rfl
          · rw [intercalate_modifyHead_cons _ _ (splitPatternFrom_ne_nil _ _ _),
              ih, List.drop_zero]

theorem intercalate_splitPattern {pattern : List α} (hpattern : pattern ≠ [])
    (list : List α) :
    pattern.intercalate (splitPattern pattern list) = list :=
  intercalate_splitPatternFrom hpattern 0 list

/-- Elements with which no occurrence begins go to the first part. -/
theorem splitPattern_append {first : α} {tail before : List α}
    (hbefore : first ∉ before) (after : List α) :
    splitPattern (first :: tail) (before ++ after) =
      (splitPattern (first :: tail) after).modifyHead (before ++ ·) := by
  unfold splitPattern
  induction before with
  | nil =>
      rw [List.nil_append]
      cases splitPatternFrom (first :: tail) 0 after with
      | nil => rfl
      | cons part parts => rfl
  | cons head before ih =>
      rw [List.mem_cons, not_or] at hbefore
      have hprefix : ¬ first :: tail <+: head :: (before ++ after) := by
        rintro ⟨rest, hrest⟩
        exact hbefore.1 (List.cons.inj hrest).1
      rw [List.cons_append, splitPatternFrom, if_neg hprefix, ih hbefore.2,
        List.modifyHead_modifyHead]
      rfl

/-- One occurrence between two lists with which none begins. -/
theorem splitPattern_pattern {first : α} {tail before after : List α}
    (hbefore : first ∉ before) (hafter : first ∉ after) :
    splitPattern (first :: tail) (before ++ (first :: tail) ++ after) =
      [before, after] := by
  have hrest : splitPattern (first :: tail) after = [after] := by
    have happend : splitPattern (first :: tail) (after ++ []) = _ :=
      splitPattern_append hafter []
    rw [List.append_nil] at happend
    rw [happend]
    simp [splitPattern, splitPatternFrom]
  have hskip : ∀ (skipped rest : List α),
      splitPatternFrom (first :: tail) skipped.length (skipped ++ rest) =
        splitPattern (first :: tail) rest := by
    intro skipped rest
    induction skipped with
    | nil => rfl
    | cons head skipped ih => exact ih
  rw [List.append_assoc, splitPattern_append hbefore]
  have hoccurrence : splitPattern (first :: tail) (first :: tail ++ after) =
      [] :: [after] := by
    have hprefix : first :: tail <+: first :: (tail ++ after) :=
      List.prefix_append (first :: tail) after
    rw [splitPattern, List.cons_append, splitPatternFrom, if_pos hprefix,
      List.length_cons, Nat.add_sub_cancel, hskip, hrest]
  rw [hoccurrence, List.modifyHead_cons, List.append_nil]

/-- A list with one occurrence is made of the two parts around it. -/
theorem eq_append_of_splitPattern_eq {pattern list before after : List α}
    (hpattern : pattern ≠ [])
    (hsplit : splitPattern pattern list = [before, after]) :
    list = before ++ pattern ++ after := by
  rw [← intercalate_splitPattern hpattern list, hsplit,
    List.intercalate_cons_cons, List.intercalate_singleton]

end Gnostr
