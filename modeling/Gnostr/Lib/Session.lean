/-
Calls against a state outside the program: a server, a file system.  The state
stays as the call left it, also when the call fails or panics half-way.
-/
import Gnostr.Lib.Outcome

namespace Gnostr

universe u

/-- A call that reads and changes a state. -/
def Session (σ ε : Type u) (α : Type u) : Type u :=
  σ → Outcome ε α × σ

namespace Session

variable {σ τ ε α β : Type u}

protected def bind (x : Session σ ε α) (next : α → Session σ ε β) : Session σ ε β :=
  fun s =>
    match x s with
    | (.ok value, t) => next value t
    | (.err error, t) => (.err error, t)
    | (.panic, t) => (.panic, t)

instance : Monad (Session σ ε) where
  pure value := fun s => (.ok value, s)
  bind := Session.bind

/-- A step that neither reads nor changes the state. -/
def lift (x : Outcome ε α) : Session σ ε α :=
  fun s => (x, s)

/-- The call fails. -/
def fail (error : ε) : Session σ ε α := lift (.err error)

/-- A request to the outside; without an answer the call fails. -/
def request (error : ε) (ask : σ → Option α × σ) : Session σ ε α :=
  fun s => (Outcome.okOr error (ask s).1, (ask s).2)

/-- The call's own failure becomes a value. -/
def attempt {δ : Type u} (x : Session σ δ α) : Session σ ε (Except δ α) :=
  fun s =>
    match x s with
    | (.ok value, t) => (.ok (.ok value), t)
    | (.err error, t) => (.ok (.error error), t)
    | (.panic, t) => (.panic, t)

/-- A call against the first of two states. -/
def onFst (x : Session σ ε α) : Session (σ × τ) ε α :=
  fun s => ((x s.1).1, ((x s.1).2, s.2))

section Run

@[simp] theorem pure_apply (value : α) (s : σ) :
    (pure value : Session σ ε α) s = (.ok value, s) := rfl

@[simp] theorem lift_apply (x : Outcome ε α) (s : σ) :
    (lift x : Session σ ε α) s = (x, s) := rfl

theorem bind_of_ok {x : Session σ ε α} {next : α → Session σ ε β} {value : α}
    {s t : σ} (hx : x s = (.ok value, t)) : (x >>= next) s = next value t := by
  show Session.bind x next s = next value t
  rw [Session.bind, hx]

theorem bind_of_err {x : Session σ ε α} {next : α → Session σ ε β} {error : ε}
    {s t : σ} (hx : x s = (.err error, t)) : (x >>= next) s = (.err error, t) := by
  show Session.bind x next s = (.err error, t)
  rw [Session.bind, hx]

theorem bind_of_panic {x : Session σ ε α} {next : α → Session σ ε β} {s t : σ}
    (hx : x s = (.panic, t)) : (x >>= next) s = (.panic, t) := by
  show Session.bind x next s = (.panic, t)
  rw [Session.bind, hx]

@[simp] theorem lift_ok_bind (value : α) (next : α → Session σ ε β) (s : σ) :
    (lift (.ok value) >>= next) s = next value s := rfl

@[simp] theorem lift_err_bind (error : ε) (next : α → Session σ ε β) (s : σ) :
    ((lift (.err error) : Session σ ε α) >>= next) s = (.err error, s) := rfl

protected theorem bind_assoc {γ : Type u} (x : Session σ ε α)
    (next : α → Session σ ε β) (last : β → Session σ ε γ) :
    x >>= next >>= last = x >>= fun value => next value >>= last := by
  funext s
  rcases hx : x s with ⟨value | error | _, t⟩
  · have hfirst : (x >>= next) s = next value t := bind_of_ok hx
    rw [bind_of_ok hx]
    show Session.bind (x >>= next) last s = Session.bind (next value) last t
    rw [Session.bind, hfirst]
    rfl
  · rw [bind_of_err hx, bind_of_err (bind_of_err hx)]
  · rw [bind_of_panic hx, bind_of_panic (bind_of_panic hx)]

/-- A sequence of calls succeeds when its parts do. -/
theorem bind_eq_ok_iff {x : Session σ ε α} {next : α → Session σ ε β} {value : β}
    {s t : σ} :
    (x >>= next) s = (.ok value, t) ↔
      ∃ first middle, x s = (.ok first, middle) ∧
        next first middle = (.ok value, t) := by
  rcases hx : x s with ⟨first | error | _, middle⟩
  · rw [bind_of_ok hx]
    simp
  · rw [bind_of_err hx]
    simp
  · rw [bind_of_panic hx]
    simp

/-- A sequence of calls fails when its first part does, or the others do after it. -/
theorem bind_eq_err_iff {x : Session σ ε α} {next : α → Session σ ε β} {error : ε}
    {s t : σ} :
    (x >>= next) s = (.err error, t) ↔
      x s = (.err error, t) ∨ ∃ first middle, x s = (.ok first, middle) ∧
        next first middle = (.err error, t) := by
  rcases hx : x s with ⟨first | other | _, middle⟩
  · rw [bind_of_ok hx]
    simp
  · rw [bind_of_err hx]
    simp
  · rw [bind_of_panic hx]
    simp

/-- The state a sequence leaves is the one its last part leaves, or the one its
first part leaves when that does not succeed. -/
theorem bind_snd (x : Session σ ε α) (next : α → Session σ ε β) (s : σ) :
    ((x >>= next) s).2 = (x s).2 ∨
      ∃ first middle, x s = (.ok first, middle) ∧
        ((x >>= next) s).2 = (next first middle).2 := by
  rcases hx : x s with ⟨first | error | _, middle⟩
  · exact Or.inr ⟨first, middle, rfl, by rw [bind_of_ok hx]⟩
  · exact Or.inl (by rw [bind_of_err hx])
  · exact Or.inl (by rw [bind_of_panic hx])

theorem lift_eq_ok_iff {x : Outcome ε α} {value : α} {s t : σ} :
    lift x s = (.ok value, t) ↔ x = .ok value ∧ s = t := by
  rw [lift_apply, Prod.mk.injEq]

theorem request_eq_ok_iff {error : ε} {ask : σ → Option α × σ} {value : α}
    {s t : σ} :
    request error ask s = (.ok value, t) ↔ ask s = (some value, t) := by
  rcases hask : ask s with ⟨answer, after⟩
  cases answer <;> simp [request, hask]

theorem request_of_none {error : ε} {ask : σ → Option α × σ} {s t : σ}
    (hask : ask s = (none, t)) : request error ask s = (.err error, t) := by
  rw [request, hask, Outcome.okOr_none]

theorem attempt_of_ok {δ : Type u} {x : Session σ δ α} {value : α} {s t : σ}
    (hx : x s = (.ok value, t)) :
    (attempt x : Session σ ε (Except δ α)) s = (.ok (.ok value), t) := by
  rw [attempt, hx]

theorem attempt_of_err {δ : Type u} {x : Session σ δ α} {error : δ} {s t : σ}
    (hx : x s = (.err error, t)) :
    (attempt x : Session σ ε (Except δ α)) s = (.ok (.error error), t) := by
  rw [attempt, hx]

theorem attempt_of_panic {δ : Type u} {x : Session σ δ α} {s t : σ}
    (hx : x s = (.panic, t)) :
    (attempt x : Session σ ε (Except δ α)) s = (.panic, t) := by
  rw [attempt, hx]

theorem onFst_of_eq {x : Session σ ε α} {result : Outcome ε α} {s t : σ}
    (hx : x s = (result, t)) (other : τ) :
    (onFst x : Session (σ × τ) ε α) (s, other) = (result, t, other) := by
  rw [onFst, hx]

@[simp] theorem onFst_apply (x : Session σ ε α) (s : σ) (t : τ) :
    (onFst x : Session (σ × τ) ε α) (s, t) = ((x s).1, ((x s).2, t)) := rfl

end Run

section Keeps

variable {P : σ → Prop}

/-- The call keeps an invariant of the state, whatever it returns. -/
def Keeps (P : σ → Prop) (x : Session σ ε α) : Prop := ∀ s, P s → P (x s).2

theorem keeps_lift (x : Outcome ε α) : Keeps P (lift x) := fun _ hs => hs

theorem keeps_request {error : ε} {ask : σ → Option α × σ}
    (hask : ∀ s, P s → P (ask s).2) : Keeps P (request error ask) := hask

theorem Keeps.bind {x : Session σ ε α} {next : α → Session σ ε β} (hx : Keeps P x)
    (hnext : ∀ value, Keeps P (next value)) : Keeps P (x >>= next) := by
  intro s hs
  rcases bind_snd x next s with hfirst | ⟨first, middle, hfirst, hlast⟩
  · rw [hfirst]
    exact hx s hs
  · rw [hlast]
    have hmiddle := hx s hs
    rw [hfirst] at hmiddle
    exact hnext first middle hmiddle

end Keeps

end Session

end Gnostr
