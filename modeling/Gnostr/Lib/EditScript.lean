/-
Edit scripts between two lists of lines, cut into hunks with unchanged lines between
them.  Every line of a hunk carries its numbers on the two sides, and any choice of
numbered lines can be made on its own.
-/
import Mathlib.Data.List.Basic
import Mathlib.Algebra.Ring.Nat

namespace Gnostr

universe u

/-- A line of a hunk. -/
inductive Edit (α : Type u) where
  | keep (line : α)
  | add (line : α)
  | del (line : α)
deriving DecidableEq, Repr

/-- The number of a line on the old side and on the new one, from one on. -/
abbrev LineNumbers := Option ℕ × Option ℕ

variable {α : Type u}

namespace Edit

def line : Edit α → α
  | keep line => line
  | add line => line
  | del line => line

def old : Edit α → List α
  | keep line => [line]
  | add _ => []
  | del line => [line]

def new : Edit α → List α
  | keep line => [line]
  | add line => [line]
  | del _ => []

/-- What a line leaves when its change is made, or not. -/
def made (edit : Edit α) (chosen : Bool) : List α :=
  if chosen then edit.new else edit.old

@[simp] theorem made_true (edit : Edit α) : edit.made true = edit.new := rfl

@[simp] theorem made_false (edit : Edit α) : edit.made false = edit.old := rfl

def numbers (oldLine newLine : ℕ) : Edit α → LineNumbers
  | keep _ => (some oldLine, some newLine)
  | add _ => (none, some newLine)
  | del _ => (some oldLine, none)

theorem mem_made {edit : Edit α} {chosen : Bool} {a : α} (ha : a ∈ edit.made chosen) :
    a ∈ edit.old ∨ a ∈ edit.new := by
  cases chosen with
  | false => exact Or.inl ha
  | true => exact Or.inr ha

end Edit

/-- The lines of a hunk with their numbers. -/
def numbered : ℕ → ℕ → List (Edit α) → List (Edit α × LineNumbers)
  | _, _, [] => []
  | oldLine, newLine, edit :: rest =>
      (edit, edit.numbers oldLine newLine) ::
        numbered (oldLine + edit.old.length) (newLine + edit.new.length) rest

theorem map_fst_numbered (edits : List (Edit α)) (oldLine newLine : ℕ) :
    (numbered oldLine newLine edits).map Prod.fst = edits := by
  induction edits generalizing oldLine newLine with
  | nil => rfl
  | cons edit rest ih => simp [numbered, ih]

/-- The lines of a hunk with some of the changes made. -/
def makeEdits (chosen : LineNumbers → Bool) (edits : List (Edit α × LineNumbers)) : List α :=
  edits.flatMap fun edit => edit.1.made (chosen edit.2)

@[simp] theorem makeEdits_nil (chosen : LineNumbers → Bool) :
    makeEdits chosen ([] : List (Edit α × LineNumbers)) = [] := rfl

@[simp] theorem makeEdits_cons (chosen : LineNumbers → Bool) (edit : Edit α × LineNumbers)
    (rest : List (Edit α × LineNumbers)) :
    makeEdits chosen (edit :: rest) = edit.1.made (chosen edit.2) ++ makeEdits chosen rest :=
  rfl

/-- Lines that do not change and the hunk behind them. -/
structure EditHunk (α : Type u) where
  gap : List α
  edits : List (Edit α)
deriving DecidableEq, Repr

def EditHunk.old (hunk : EditHunk α) : List α := hunk.gap ++ hunk.edits.flatMap Edit.old

def EditHunk.new (hunk : EditHunk α) : List α := hunk.gap ++ hunk.edits.flatMap Edit.new

/-- The lines of the hunk, when so many lines are in front of it on the two sides. -/
def EditHunk.numbered (hunk : EditHunk α) (oldBefore newBefore : ℕ) :
    List (Edit α × LineNumbers) :=
  Gnostr.numbered (oldBefore + hunk.gap.length + 1) (newBefore + hunk.gap.length + 1)
    hunk.edits

def oldSide (hunks : List (EditHunk α)) : List α := hunks.flatMap EditHunk.old

def newSide (hunks : List (EditHunk α)) : List α := hunks.flatMap EditHunk.new

/-- The two sides meet in the middle: the chosen changes are made and no others. -/
def makeHunks (chosen : LineNumbers → Bool) : ℕ → ℕ → List (EditHunk α) → List α
  | _, _, [] => []
  | oldBefore, newBefore, hunk :: rest =>
      hunk.gap ++ makeEdits chosen (hunk.numbered oldBefore newBefore) ++
        makeHunks chosen (oldBefore + hunk.old.length) (newBefore + hunk.new.length) rest

/-- The lines of all hunks with their numbers. -/
def numberedHunks : ℕ → ℕ → List (EditHunk α) → List (Edit α × LineNumbers)
  | _, _, [] => []
  | oldBefore, newBefore, hunk :: rest =>
      hunk.numbered oldBefore newBefore ++
        numberedHunks (oldBefore + hunk.old.length) (newBefore + hunk.new.length) rest

@[simp] theorem oldSide_cons (hunk : EditHunk α) (hunks : List (EditHunk α)) :
    oldSide (hunk :: hunks) = hunk.gap ++ hunk.edits.flatMap Edit.old ++ oldSide hunks := rfl

@[simp] theorem newSide_cons (hunk : EditHunk α) (hunks : List (EditHunk α)) :
    newSide (hunk :: hunks) = hunk.gap ++ hunk.edits.flatMap Edit.new ++ newSide hunks := rfl

section Whole

variable {chosen : LineNumbers → Bool}

theorem makeEdits_congr {other : LineNumbers → Bool} {edits : List (Edit α × LineNumbers)}
    (hsame : ∀ edit ∈ edits, edit.1.made (chosen edit.2) = edit.1.made (other edit.2)) :
    makeEdits chosen edits = makeEdits other edits := by
  induction edits with
  | nil => rfl
  | cons edit rest ih =>
      simp only [List.forall_mem_cons] at hsame
      simp [hsame.1, ih hsame.2]

theorem makeHunks_congr {other : LineNumbers → Bool} {hunks : List (EditHunk α)}
    {oldBefore newBefore : ℕ}
    (hsame : ∀ edit ∈ numberedHunks oldBefore newBefore hunks,
      edit.1.made (chosen edit.2) = edit.1.made (other edit.2)) :
    makeHunks chosen oldBefore newBefore hunks =
      makeHunks other oldBefore newBefore hunks := by
  induction hunks generalizing oldBefore newBefore with
  | nil => rfl
  | cons hunk rest ih =>
      simp only [numberedHunks, List.forall_mem_append] at hsame
      simp [makeHunks, makeEdits_congr hsame.1, ih hsame.2]

theorem makeEdits_numbered_false (edits : List (Edit α)) (oldLine newLine : ℕ) :
    makeEdits (fun _ => false) (numbered oldLine newLine edits) = edits.flatMap Edit.old := by
  induction edits generalizing oldLine newLine with
  | nil => rfl
  | cons edit rest ih => simp [numbered, ih]

theorem makeEdits_numbered_true (edits : List (Edit α)) (oldLine newLine : ℕ) :
    makeEdits (fun _ => true) (numbered oldLine newLine edits) = edits.flatMap Edit.new := by
  induction edits generalizing oldLine newLine with
  | nil => rfl
  | cons edit rest ih => simp [numbered, ih]

/-- With no change made there is the old side. -/
theorem makeHunks_false (hunks : List (EditHunk α)) (oldBefore newBefore : ℕ) :
    makeHunks (fun _ => false) oldBefore newBefore hunks = oldSide hunks := by
  induction hunks generalizing oldBefore newBefore with
  | nil => rfl
  | cons hunk rest ih => simp [makeHunks, EditHunk.numbered, makeEdits_numbered_false, ih]

/-- With every change made there is the new side. -/
theorem makeHunks_true (hunks : List (EditHunk α)) (oldBefore newBefore : ℕ) :
    makeHunks (fun _ => true) oldBefore newBefore hunks = newSide hunks := by
  induction hunks generalizing oldBefore newBefore with
  | nil => rfl
  | cons hunk rest ih => simp [makeHunks, EditHunk.numbered, makeEdits_numbered_true, ih]

theorem mem_makeEdits {edits : List (Edit α)} {oldLine newLine : ℕ} {a : α}
    (ha : a ∈ makeEdits chosen (numbered oldLine newLine edits)) :
    a ∈ edits.flatMap Edit.old ∨ a ∈ edits.flatMap Edit.new := by
  induction edits generalizing oldLine newLine with
  | nil => exact absurd ha List.not_mem_nil
  | cons edit rest ih =>
      simp only [numbered, makeEdits_cons, List.mem_append] at ha
      simp only [List.flatMap_cons, List.mem_append]
      rcases ha with ha | ha
      · exact (Edit.mem_made ha).imp Or.inl Or.inl
      · exact (ih ha).imp Or.inr Or.inr

/-- No line is made up. -/
theorem mem_makeHunks {hunks : List (EditHunk α)} {oldBefore newBefore : ℕ} {a : α}
    (ha : a ∈ makeHunks chosen oldBefore newBefore hunks) :
    a ∈ oldSide hunks ∨ a ∈ newSide hunks := by
  induction hunks generalizing oldBefore newBefore with
  | nil => exact absurd ha List.not_mem_nil
  | cons hunk rest ih =>
      simp only [makeHunks, List.mem_append] at ha
      simp only [oldSide_cons, newSide_cons, List.mem_append]
      rcases ha with (ha | ha) | ha
      · exact Or.inl (Or.inl (Or.inl ha))
      · exact (mem_makeEdits ha).imp (fun h => Or.inl (Or.inr h)) fun h => Or.inl (Or.inr h)
      · exact (ih ha).imp Or.inr Or.inr

end Whole

end Gnostr
