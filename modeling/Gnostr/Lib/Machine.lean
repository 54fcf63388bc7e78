/-
Deterministic machines that emit outputs, their runs over a list of inputs,
and the induction principles runs are proved by: an invariant, a quantity that
never decreases, a watermark that every output passes, and a condition on the steps
that decides whether all states of a run are good.
-/
import Mathlib.Order.Basic
import Mathlib.Algebra.BigOperators.Group.List.Basic
import Mathlib.Algebra.Ring.Nat

namespace Gnostr

universe u v w

/-- One input takes a state to its successor and emits a list of outputs. -/
structure Machine (σ : Type u) (ι : Type v) (ω : Type w) where
  step : σ → ι → σ × List ω

namespace Machine

variable {σ : Type u} {ι : Type v} {ω : Type w} (M : Machine σ ι ω)

def next (state : σ) (input : ι) : σ :=
  (M.step state input).1

def emit (state : σ) (input : ι) : List ω :=
  (M.step state input).2

/-- The state after a list of inputs. -/
def run : σ → List ι → σ
  | state, [] => state
  | state, input :: inputs => run (M.next state input) inputs

/-- The outputs of a run, in the order they were emitted. -/
def trace : σ → List ι → List ω
  | _, [] => []
  | state, input :: inputs =>
      M.emit state input ++ trace (M.next state input) inputs

@[simp] theorem run_nil (state : σ) : M.run state [] = state := rfl

@[simp] theorem run_cons (state : σ) (input : ι) (inputs : List ι) :
    M.run state (input :: inputs) = M.run (M.next state input) inputs := rfl

@[simp] theorem trace_nil (state : σ) : M.trace state [] = [] := rfl

@[simp] theorem trace_cons (state : σ) (input : ι) (inputs : List ι) :
    M.trace state (input :: inputs) =
      M.emit state input ++ M.trace (M.next state input) inputs := rfl

theorem run_append (state : σ) (first last : List ι) :
    M.run state (first ++ last) = M.run (M.run state first) last := by
  induction first generalizing state with
  | nil => rfl
  | cons input first ih => exact ih (M.next state input)

/-- An invariant kept by every input of the run holds at its end. -/
theorem run_preserves (Inv : σ → Prop) {inputs : List ι}
    (hstep : ∀ state, ∀ input ∈ inputs, Inv state → Inv (M.next state input))
    {state : σ} (hstate : Inv state) : Inv (M.run state inputs) := by
  induction inputs generalizing state with
  | nil => exact hstate
  | cons input inputs ih =>
      apply ih
      · intro other later hlater
        exact hstep other later (List.mem_cons_of_mem input hlater)
      · exact hstep state input List.mem_cons_self hstate

/-- What every step guarantees of its outputs from the invariant, within the
budget it ends with, holds of all outputs of a run. -/
theorem forall_trace_of_budget (Inv : ℕ → σ → Prop) (Good : ℕ → ω → Prop)
    (cost : ι → ℕ)
    (hstep : ∀ budget state input,
      Inv budget state → Inv (budget + cost input) (M.next state input))
    (hemit : ∀ budget state input, Inv budget state →
      ∀ out ∈ M.emit state input, Good (budget + cost input) out)
    (hmono : ∀ budget more out, budget ≤ more → Good budget out → Good more out)
    {budget : ℕ} {state : σ} (hstate : Inv budget state) (inputs : List ι) :
    ∀ out ∈ M.trace state inputs, Good (budget + (inputs.map cost).sum) out := by
  induction inputs generalizing budget state with
  | nil => simp
  | cons input inputs ih =>
      intro out hout
      have hsum : budget + ((input :: inputs).map cost).sum =
          budget + cost input + (inputs.map cost).sum := by
        rw [List.map_cons, List.sum_cons, Nat.add_assoc]
      rw [hsum]
      rcases List.mem_append.mp hout with hnow | hlater
      · exact hmono _ _ out (Nat.le_add_right _ _)
          (hemit budget state input hstate out hnow)
      · exact ih (hstep budget state input hstate) out hlater

/-- What every step guarantees of its outputs from an invariant holds of all outputs
of a run. -/
theorem forall_trace (Inv : σ → Prop) (Good : ω → Prop)
    (hstep : ∀ state input, Inv state → Inv (M.next state input))
    (hemit : ∀ state input, Inv state → ∀ out ∈ M.emit state input, Good out)
    {state : σ} (hstate : Inv state) (inputs : List ι) :
    ∀ out ∈ M.trace state inputs, Good out :=
  @forall_trace_of_budget _ _ _ M (fun _ => Inv) (fun _ => Good) (fun _ => 0)
    (fun _ => hstep) (fun _ => hemit) (fun _ _ _ _ hgood => hgood) 0 state hstate inputs

section Throughout

/-- Every state of a run, from its first to its last, is good. -/
def Throughout (Good : σ → Prop) (state : σ) (inputs : List ι) : Prop :=
  ∀ first last, inputs = first ++ last → Good (M.run state first)

/-- Every step of a run meets a condition on the state it starts from. -/
def EachStep (Meets : σ → ι → Prop) (state : σ) (inputs : List ι) : Prop :=
  ∀ first input last, inputs = first ++ input :: last → Meets (M.run state first) input

variable {M}

theorem throughout_nil_iff {Good : σ → Prop} {state : σ} :
    M.Throughout Good state [] ↔ Good state := by
  constructor
  · intro hall
    exact hall [] [] rfl
  · intro hgood first last hsplit
    obtain ⟨rfl, -⟩ := List.append_eq_nil_iff.mp hsplit.symm
    exact hgood

theorem throughout_cons_iff {Good : σ → Prop} {state : σ} {input : ι} {inputs : List ι} :
    M.Throughout Good state (input :: inputs) ↔
      Good state ∧ M.Throughout Good (M.next state input) inputs := by
  constructor
  · intro hall
    refine ⟨hall [] (input :: inputs) rfl, fun first last hsplit => ?_⟩
    exact hall (input :: first) last (congrArg (List.cons input) hsplit)
  · rintro ⟨hgood, hlater⟩ first last hsplit
    cases first with
    | nil => exact hgood
    | cons head first =>
        obtain ⟨rfl, hrest⟩ := List.cons_eq_cons.mp hsplit
        exact hlater first last hrest

theorem eachStep_nil {Meets : σ → ι → Prop} {state : σ} : M.EachStep Meets state [] := by
  intro first input last hsplit
  exact absurd hsplit.symm (List.append_ne_nil_of_right_ne_nil first (List.cons_ne_nil _ _))

theorem eachStep_cons_iff {Meets : σ → ι → Prop} {state : σ} {input : ι}
    {inputs : List ι} :
    M.EachStep Meets state (input :: inputs) ↔
      Meets state input ∧ M.EachStep Meets (M.next state input) inputs := by
  constructor
  · intro hall
    refine ⟨hall [] input inputs rfl, fun first later last hsplit => ?_⟩
    exact hall (input :: first) later last (congrArg (List.cons input) hsplit)
  · rintro ⟨hnow, hlater⟩ first later last hsplit
    cases first with
    | nil =>
        obtain ⟨rfl, -⟩ := List.cons_eq_cons.mp hsplit
        exact hnow
    | cons head first =>
        obtain ⟨rfl, hrest⟩ := List.cons_eq_cons.mp hsplit
        exact hlater first later last hrest

theorem EachStep.of_append {Meets : σ → ι → Prop} {state : σ} {first last : List ι}
    (hall : M.EachStep Meets state (first ++ last)) : M.EachStep Meets state first := by
  rintro before input after rfl
  apply hall before input (after ++ last)
  rw [List.append_assoc, List.cons_append]

/-- An invariant kept by the steps that meet a condition holds at the end of a run of
such steps. -/
theorem run_of_eachStep {Inv : σ → Prop} {Meets : σ → ι → Prop}
    (hkeep : ∀ state input, Inv state → Meets state input → Inv (M.next state input))
    {state : σ} (hstate : Inv state) {inputs : List ι}
    (hsteps : M.EachStep Meets state inputs) : Inv (M.run state inputs) := by
  induction inputs generalizing state with
  | nil => exact hstate
  | cons input inputs ih =>
      obtain ⟨hmeets, hlater⟩ := eachStep_cons_iff.mp hsteps
      exact ih (hkeep state input hstate hmeets) hlater

/-- A state that no step leads out of is avoided exactly by the runs whose steps all avoid
what leads into it. -/
theorem not_run_iff_eachStep {Inv Bad : σ → Prop} {Fails : σ → ι → Prop}
    (hkeep : ∀ state input, Inv state → Inv (M.next state input))
    (hstep : ∀ state input, Inv state →
      (Bad (M.next state input) ↔ Bad state ∨ Fails state input))
    {state : σ} (hstate : Inv state) (inputs : List ι) :
    ¬ Bad (M.run state inputs) ↔
      ¬ Bad state ∧ M.EachStep (fun state input => ¬ Fails state input) state inputs := by
  induction inputs generalizing state with
  | nil => simp [eachStep_nil]
  | cons input inputs ih =>
      rw [run_cons, ih (hkeep state input hstate), hstep state input hstate, not_or,
        eachStep_cons_iff, and_assoc]

/-- The outputs of a run are good exactly when each step emits good ones. -/
theorem forall_trace_iff_eachStep {Good : ω → Prop} {state : σ} {inputs : List ι} :
    (∀ out ∈ M.trace state inputs, Good out) ↔
      M.EachStep (fun state input => ∀ out ∈ M.emit state input, Good out) state inputs := by
  induction inputs generalizing state with
  | nil => simp [eachStep_nil]
  | cons input inputs ih =>
      rw [eachStep_cons_iff, ← ih]
      simp [or_imp, forall_and]

/-- Conditions that agree under an invariant agree over the steps of a run. -/
theorem eachStep_congr {Inv : σ → Prop} {Meets Meets' : σ → ι → Prop}
    (hkeep : ∀ state input, Inv state → Inv (M.next state input))
    (hmeets : ∀ state input, Inv state → (Meets state input ↔ Meets' state input))
    {state : σ} (hstate : Inv state) (inputs : List ι) :
    M.EachStep Meets state inputs ↔ M.EachStep Meets' state inputs := by
  induction inputs generalizing state with
  | nil => exact iff_of_true eachStep_nil eachStep_nil
  | cons input inputs ih =>
      rw [eachStep_cons_iff, eachStep_cons_iff, hmeets state input hstate,
        ih (hkeep state input hstate)]

/-- When the legal steps that meet a condition keep an invariant of good states, and any
other legal step leads to a state that is not good, the states of a legal run are all good
exactly when its steps all meet the condition. -/
theorem throughout_iff_eachStep_of_legal {Inv Good : σ → Prop} {Legal Meets : σ → ι → Prop}
    (hgood : ∀ state, Inv state → Good state)
    (hkeep : ∀ state input, Inv state → Legal state input → Meets state input →
      Inv (M.next state input))
    (hbreak : ∀ state input, Inv state → Legal state input → ¬ Meets state input →
      ¬ Good (M.next state input))
    {state : σ} (hstate : Inv state) {inputs : List ι}
    (hlegal : M.EachStep Legal state inputs) :
    M.Throughout Good state inputs ↔ M.EachStep Meets state inputs := by
  induction inputs generalizing state with
  | nil => exact iff_of_true (throughout_nil_iff.mpr (hgood state hstate)) eachStep_nil
  | cons input inputs ih =>
      obtain ⟨hnow, hlegal⟩ := eachStep_cons_iff.mp hlegal
      rw [throughout_cons_iff, eachStep_cons_iff]
      by_cases hmeets : Meets state input
      · have hlater := ih (hkeep state input hstate hnow hmeets) hlegal
        rw [hlater]
        exact and_congr_left' (iff_of_true (hgood state hstate) hmeets)
      · refine iff_of_false ?_ fun hall => hmeets hall.1
        rintro ⟨-, hlater⟩
        exact hbreak state input hstate hnow hmeets (hlater [] inputs rfl)

/-- The same where every step is legal. -/
theorem throughout_iff_eachStep {Inv Good : σ → Prop} {Meets : σ → ι → Prop}
    (hgood : ∀ state, Inv state → Good state)
    (hkeep : ∀ state input, Inv state → Meets state input → Inv (M.next state input))
    (hbreak : ∀ state input, Inv state → ¬ Meets state input →
      ¬ Good (M.next state input))
    {state : σ} (hstate : Inv state) (inputs : List ι) :
    M.Throughout Good state inputs ↔ M.EachStep Meets state inputs :=
  @throughout_iff_eachStep_of_legal _ _ _ M Inv Good (fun _ _ => True) Meets hgood
    (fun state input hinv _ => hkeep state input hinv)
    (fun state input hinv _ => hbreak state input hinv) state hstate inputs
    fun _ _ _ _ => trivial

end Throughout

end Machine

end Gnostr
