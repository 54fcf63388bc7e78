/-
Runs of a labelled step relation, and the induction principle they are proved by: an
invariant of the labels so far and the state they lead to.
-/
import Mathlib.Data.List.Induction

namespace Gnostr

universe u v

variable {σ : Type u} {ι : Type v} {step : σ → ι → σ → Prop} {start : σ}

/-- The states that steps with the given labels lead to. -/
inductive Steps (step : σ → ι → σ → Prop) (start : σ) : List ι → σ → Prop
  | nil : Steps step start [] start
  | snoc {labels : List ι} {label : ι} {s t : σ} :
      Steps step start labels s → step s label t → Steps step start (labels ++ [label]) t

namespace Steps

/-- An invariant that every step keeps holds at the end of a run. -/
theorem invariant {P : List ι → σ → Prop} {labels : List ι} {final : σ}
    (hrun : Steps step start labels final) (hstart : P [] start)
    (hstep : ∀ labels label s t, P labels s → step s label t →
      P (labels ++ [label]) t) : P labels final := by
  induction hrun with
  | nil => exact hstart
  | snoc _ hlast ih => exact hstep _ _ _ _ ih hlast

theorem nil_iff {final : σ} : Steps step start [] final ↔ final = start := by
  constructor
  · intro hrun
    generalize hlabels : ([] : List ι) = labels at hrun
    cases hrun with
    | nil => rfl
    | snoc _ _ =>
        cases List.append_ne_nil_of_right_ne_nil _ (List.cons_ne_nil _ _) hlabels.symm
  · rintro rfl
    exact nil

/-- A run ends with its last step. -/
theorem snoc_iff {labels : List ι} {label : ι} {final : σ} :
    Steps step start (labels ++ [label]) final ↔
      ∃ s, Steps step start labels s ∧ step s label final := by
  constructor
  · intro hrun
    generalize hall : labels ++ [label] = all at hrun
    cases hrun with
    | nil => cases List.append_ne_nil_of_right_ne_nil _ (List.cons_ne_nil _ _) hall
    | snoc hrest hlast =>
        obtain ⟨rfl, hlabel⟩ := List.append_inj' hall rfl
        cases hlabel
        exact ⟨_, hrest, hlast⟩
  · rintro ⟨s, hrest, hlast⟩
    exact snoc hrest hlast

/-- A run can be cut anywhere. -/
theorem append_iff {first last : List ι} {final : σ} :
    Steps step start (first ++ last) final ↔
      ∃ middle, Steps step start first middle ∧ Steps step middle last final := by
  induction last using List.reverseRecOn generalizing final with
  | nil =>
      rw [List.append_nil]
      constructor
      · intro hrun
        exact ⟨final, hrun, nil⟩
      · rintro ⟨middle, hrun, hnil⟩
        rwa [nil_iff.mp hnil]
  | append_singleton last label ih =>
      rw [← List.append_assoc, snoc_iff]
      constructor
      · rintro ⟨s, hrun, hstep⟩
        obtain ⟨middle, hfirst, hlast⟩ := ih.mp hrun
        exact ⟨middle, hfirst, snoc hlast hstep⟩
      · rintro ⟨middle, hfirst, hrun⟩
        obtain ⟨s, hlast, hstep⟩ := snoc_iff.mp hrun
        exact ⟨s, ih.mpr ⟨middle, hfirst, hlast⟩, hstep⟩

theorem singleton_iff {label : ι} {final : σ} :
    Steps step start [label] final ↔ step start label final := by
  constructor
  · intro hrun
    have hsnoc : Steps step start ([] ++ [label]) final := hrun
    obtain ⟨s, hnil, hstep⟩ := snoc_iff.mp hsnoc
    rwa [nil_iff.mp hnil] at hstep
  · intro hstep
    exact Steps.snoc Steps.nil hstep

/-- A run begins with its first step. -/
theorem cons_iff {label : ι} {labels : List ι} {final : σ} :
    Steps step start (label :: labels) final ↔
      ∃ s, step start label s ∧ Steps step s labels final := by
  rw [← List.singleton_append, append_iff]
  simp only [singleton_iff]

end Steps

end Gnostr
