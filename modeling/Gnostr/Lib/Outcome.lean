/-
Results of code that can fail in two ways: by returning an error, or by
panicking at an index, a slice, a subtraction or an unwrap.
-/
import Mathlib.Data.List.Forall2

namespace Gnostr

universe u v w

/-- A call returns a value or an error, or it does not return. -/
inductive Outcome (ε : Type u) (α : Type v) where
  | ok (value : α)
  | err (error : ε)
  | panic
deriving Repr, DecidableEq

namespace Outcome

variable {ε : Type u} {α β : Type v}

protected def bind : Outcome ε α → (α → Outcome ε β) → Outcome ε β
  | ok value, next => next value
  | err error, _ => err error
  | panic, _ => panic

instance : Monad (Outcome ε) where
  pure := ok
  bind := Outcome.bind

@[simp] theorem pure_eq (value : α) : (pure value : Outcome ε α) = ok value :=
  rfl

@[simp] theorem ok_bind (value : α) (next : α → Outcome ε β) :
    (ok value >>= next) = next value := rfl

@[simp] theorem err_bind (error : ε) (next : α → Outcome ε β) :
    ((err error : Outcome ε α) >>= next) = err error := rfl

@[simp] theorem panic_bind (next : α → Outcome ε β) :
    ((panic : Outcome ε α) >>= next) = panic := rfl

instance : LawfulMonad (Outcome ε) :=
  LawfulMonad.mk' _
    (by intro _ x; cases x <;> rfl)
    (by intros; rfl)
    (by intro _ _ _ x _ _; cases x <;> rfl)

theorem bind_eq_ok_iff {x : Outcome ε α} {next : α → Outcome ε β} {value : β} :
    (x >>= next) = ok value ↔ ∃ first, x = ok first ∧ next first = ok value := by
  cases x with
  | ok first => simp
  | err error => simp
  | panic => simp

/-- The call comes back, with a value or with an error. -/
def Returns (x : Outcome ε α) : Prop := x ≠ panic

@[simp] theorem returns_ok (value : α) : (ok value : Outcome ε α).Returns :=
  nofun

@[simp] theorem returns_err (error : ε) : (err error : Outcome ε α).Returns :=
  nofun

@[simp] theorem not_returns_panic : ¬ (panic : Outcome ε α).Returns :=
  fun hreturns => hreturns rfl

theorem returns_bind_iff {x : Outcome ε α} {next : α → Outcome ε β} :
    (x >>= next).Returns ↔
      x.Returns ∧ ∀ first, x = ok first → (next first).Returns := by
  cases x with
  | ok first => simp
  | err error => simp
  | panic => simp

theorem returns_bind_pure_iff {x : Outcome ε α} {f : α → β} :
    (x >>= fun value => pure (f value)).Returns ↔ x.Returns := by
  rw [returns_bind_iff]
  exact and_iff_left fun value _ => returns_ok (f value)

@[simp] theorem map_ok (f : α → β) (value : α) :
    f <$> (ok value : Outcome ε α) = ok (f value) := rfl

theorem map_eq_ok_iff {f : α → β} {x : Outcome ε α} {value : β} :
    f <$> x = ok value ↔ ∃ first, x = ok first ∧ f first = value := by
  rw [← bind_pure_comp, bind_eq_ok_iff]
  simp

@[simp] theorem returns_map_iff {f : α → β} {x : Outcome ε α} :
    (f <$> x).Returns ↔ x.Returns := by
  cases x with
  | ok value => exact iff_of_true (returns_ok _) (returns_ok _)
  | err error => exact iff_of_true (returns_err _) (returns_err _)
  | panic => exact iff_of_false not_returns_panic not_returns_panic

/-- Pass an error on as another one. -/
def mapErr {δ : Type w} (f : ε → δ) : Outcome ε α → Outcome δ α
  | ok value => ok value
  | err error => err (f error)
  | panic => panic

@[simp] theorem mapErr_ok {δ : Type w} (f : ε → δ) (value : α) :
    (ok value).mapErr f = ok value := rfl

@[simp] theorem mapErr_err {δ : Type w} (f : ε → δ) (error : ε) :
    (err error : Outcome ε α).mapErr f = err (f error) := rfl

@[simp] theorem returns_mapErr_iff {δ : Type w} {f : ε → δ} {x : Outcome ε α} :
    (x.mapErr f).Returns ↔ x.Returns := by
  cases x with
  | ok value => exact iff_of_true (returns_ok _) (returns_ok _)
  | err error => exact iff_of_true (returns_err _) (returns_err _)
  | panic => exact iff_of_false not_returns_panic not_returns_panic

/-- `ok_or`: a missing value is an error. -/
def okOr (error : ε) : Option α → Outcome ε α
  | some value => ok value
  | none => err error

@[simp] theorem okOr_some (error : ε) (value : α) :
    okOr error (some value) = ok value := rfl

@[simp] theorem okOr_none (error : ε) :
    okOr error (none : Option α) = err error := rfl

@[simp] theorem returns_okOr (error : ε) (x : Option α) :
    (okOr error x).Returns := by
  cases x with
  | none => exact returns_err error
  | some value => exact returns_ok value

theorem okOr_eq_ok_iff {error : ε} {x : Option α} {value : α} :
    okOr error x = ok value ↔ x = some value := by
  cases x with
  | none => simp
  | some other => simp

/-- `ok`: the value of a call that gave one. -/
def toOption : Outcome ε α → Option α
  | ok value => some value
  | err _ => none
  | panic => none

@[simp] theorem toOption_ok (value : α) :
    (ok value : Outcome ε α).toOption = some value := rfl

@[simp] theorem toOption_err (error : ε) :
    (err error : Outcome ε α).toOption = none := rfl

theorem toOption_eq_some_iff {x : Outcome ε α} {value : α} :
    x.toOption = some value ↔ x = ok value := by
  cases x with
  | ok other => simp
  | err error => simp
  | panic => exact iff_of_false nofun nofun

/-- `unwrap`: a missing value is a panic. -/
def unwrap : Option α → Outcome ε α
  | some value => ok value
  | none => panic

@[simp] theorem unwrap_some (value : α) :
    (unwrap (some value) : Outcome ε α) = ok value := rfl

@[simp] theorem unwrap_none : (unwrap none : Outcome ε α) = panic := rfl

theorem returns_unwrap_iff {value : Option α} :
    (unwrap value : Outcome ε α).Returns ↔ value.isSome = true := by
  cases value <;> simp

/-- `a - b` on unsigned integers.  An optimized build wraps around instead;
the code here only ever uses the difference as a bound that keeps the next
index in range, so it then panics at that index. -/
def checkedSub (a b : ℕ) : Outcome ε ℕ :=
  if b ≤ a then ok (a - b) else panic

theorem checkedSub_of_le {a b : ℕ} (hle : b ≤ a) :
    (checkedSub a b : Outcome ε ℕ) = ok (a - b) := if_pos hle

theorem checkedSub_of_lt {a b : ℕ} (hlt : a < b) :
    (checkedSub a b : Outcome ε ℕ) = panic := if_neg (Nat.not_le.mpr hlt)

/-- `xs[i]`. -/
def index (xs : List α) (i : ℕ) : Outcome ε α := unwrap xs[i]?

theorem index_of_lt {xs : List α} {i : ℕ} (hlt : i < xs.length) :
    (index xs i : Outcome ε α) = ok xs[i] := by
  rw [index, List.getElem?_eq_getElem hlt, unwrap_some]

theorem index_of_le {xs : List α} {i : ℕ} (hle : xs.length ≤ i) :
    (index xs i : Outcome ε α) = panic := by
  rw [index, List.getElem?_eq_none hle, unwrap_none]

theorem index_eq_ok_iff {xs : List α} {i : ℕ} {value : α} :
    (index xs i : Outcome ε α) = ok value ↔ xs[i]? = some value := by
  rw [index]
  cases xs[i]? with
  | none => simp
  | some other => simp

theorem returns_index_iff {xs : List α} {i : ℕ} :
    (index xs i : Outcome ε α).Returns ↔ i < xs.length := by
  by_cases hlt : i < xs.length
  · rw [index_of_lt hlt]
    exact iff_of_true (returns_ok _) hlt
  · rw [index_of_le (Nat.not_lt.mp hlt)]
    exact iff_of_false not_returns_panic hlt

/-- `xs[start..stop]`. -/
def slice (xs : List α) (start stop : ℕ) : Outcome ε (List α) :=
  if start ≤ stop ∧ stop ≤ xs.length then ok ((xs.take stop).drop start)
  else panic

theorem slice_of_le {xs : List α} {start stop : ℕ} (hstart : start ≤ stop)
    (hstop : stop ≤ xs.length) :
    (slice xs start stop : Outcome ε (List α)) =
      ok ((xs.take stop).drop start) := if_pos ⟨hstart, hstop⟩

theorem slice_of_start_lt {xs : List α} {start stop : ℕ} (hlt : stop < start) :
    (slice xs start stop : Outcome ε (List α)) = panic :=
  if_neg fun hle => Nat.not_le.mpr hlt hle.1

theorem returns_slice_iff {xs : List α} {start stop : ℕ} :
    (slice xs start stop : Outcome ε (List α)).Returns ↔
      start ≤ stop ∧ stop ≤ xs.length := by
  unfold slice
  split_ifs with hbounds
  · exact iff_of_true (returns_ok _) hbounds
  · exact iff_of_false not_returns_panic hbounds

/-- The part of a list between two others is cut out exactly. -/
theorem slice_append (before middle after : List α) :
    (slice (before ++ middle ++ after) before.length
      (before.length + middle.length) : Outcome ε (List α)) = ok middle := by
  rw [slice_of_le (Nat.le_add_right _ _) (by simp), ← List.length_append,
    List.take_left, List.drop_left]

/-- A list is mapped when every element is. -/
theorem mapM_eq_ok_iff {f : α → Outcome ε β} {xs : List α} {ys : List β} :
    xs.mapM f = ok ys ↔ List.Forall₂ (fun x y => f x = ok y) xs ys := by
  induction xs generalizing ys with
  | nil =>
      rw [List.mapM_nil, pure_eq, ok.injEq, List.forall₂_nil_left_iff]
      exact eq_comm
  | cons x xs ih =>
      rw [List.mapM_cons, bind_eq_ok_iff, List.forall₂_cons_left_iff]
      constructor
      · rintro ⟨y, hy, hrest⟩
        obtain ⟨rest, hxs, hys⟩ := bind_eq_ok_iff.mp hrest
        rw [pure_eq, ok.injEq] at hys
        exact ⟨y, rest, hy, ih.mp hxs, hys.symm⟩
      · rintro ⟨y, rest, hy, hxs, rfl⟩
        refine ⟨y, hy, ?_⟩
        rw [ih.mpr hxs]
        rfl

theorem exists_mapM_eq_ok_iff {f : α → Outcome ε β} {xs : List α} :
    (∃ ys, xs.mapM f = ok ys) ↔ ∀ x ∈ xs, ∃ y, f x = ok y := by
  induction xs with
  | nil => simp
  | cons x xs ih =>
      rw [List.forall_mem_cons, ← ih]
      simp only [mapM_eq_ok_iff, List.forall₂_cons_left_iff]
      constructor
      · rintro ⟨ys, y, rest, hy, hrest, _⟩
        exact ⟨⟨y, hy⟩, rest, hrest⟩
      · rintro ⟨⟨y, hy⟩, rest, hrest⟩
        exact ⟨y :: rest, y, rest, hy, hrest, rfl⟩

end Outcome

end Gnostr
