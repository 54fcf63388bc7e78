/-
The retry strategies of `utils/retry.rs`: how often an operation is called and how long
the pauses between two calls are.
-/
import Gnostr.Lib.Outcome
import Mathlib.Algebra.Ring.Nat
import Mathlib.Data.List.Chain

namespace Gnostr

namespace Cli

inductive GnostrRetry
  | linear (delay retries : UInt64)
  | exponential (delay retries : UInt64)
  | linearAsync (delay retries : UInt64)
  | exponentialAsync (delay retries : UInt64)
deriving Repr, DecidableEq

/-- What a retried operation shows to the outside. -/
inductive RetryEvent
  | call
  | threadSleep (seconds : UInt64)
  | tokioSleep (seconds : UInt64)
deriving Repr, DecidableEq

universe u v

variable {ε : Type u} {α : Type v}

namespace GnostrRetry

def getRetries : GnostrRetry → UInt64
  | linear _ retries => retries
  | exponential _ retries => retries
  | linearAsync _ retries => retries
  | exponentialAsync _ retries => retries

def getDelay : GnostrRetry → UInt64
  | linear delay _ => delay
  | exponential delay _ => delay
  | linearAsync delay _ => delay
  | exponentialAsync delay _ => delay

def linearFn (x : UInt64) : Option UInt64 := some x

/-- `2u64.pow`, of zero where the exponent does not fit in 32 bits; there is no result when
it panics. -/
def exponentialFn (overflowChecks : Bool) (x : UInt64) : Option UInt64 :=
  let exponent := if x.toNat < 2 ^ 32 then x.toNat else 0
  if overflowChecks = true ∧ 2 ^ 64 ≤ 2 ^ exponent then none
  else some (UInt64.ofNat (2 ^ exponent))

def retryFn (overflowChecks : Bool) : GnostrRetry → UInt64 → Option UInt64
  | linear _ _ => linearFn
  | exponential _ _ => exponentialFn overflowChecks
  | linearAsync _ _ => linearFn
  | exponentialAsync _ _ => exponentialFn overflowChecks

theorem toNat_succ_of_not_le {retries bound : UInt64} (hle : ¬ bound ≤ retries) :
    (retries + 1).toNat = retries.toNat + 1 := by
  have hlt : retries.toNat < bound.toNat :=
    Nat.not_le.mp fun hle' => hle (UInt64.le_iff_toNat_le.mpr hle')
  have hbound := bound.toNat_lt
  rw [UInt64.toNat_add, UInt64.toNat_one, Nat.mod_eq_of_lt (by omega)]

/-- The loop of the calls, of which this is the one after so many; `sleep` is how it
pauses. -/
def retryLoop (overflowChecks : Bool) (sleep : UInt64 → RetryEvent)
    (outcomes : ℕ → Except ε α) (t : GnostrRetry) (retries : UInt64) :
    List RetryEvent × Outcome ε α :=
  match outcomes retries.toNat with
  | .ok value => ([.call], .ok value)
  | .error error =>
      if t.getRetries ≤ retries then ([.call], .err error)
      else
        match t.retryFn overflowChecks t.getDelay with
        | some seconds =>
            let rest := retryLoop overflowChecks sleep outcomes t (retries + 1)
            (.call :: sleep seconds :: rest.1, rest.2)
        | none => ([.call], .panic)
termination_by t.getRetries.toNat - retries.toNat
decreasing_by
  rename_i hle
  rw [toNat_succ_of_not_le hle]
  have hlt : retries.toNat < t.getRetries.toNat :=
    Nat.not_le.mp fun hle' => hle (UInt64.le_iff_toNat_le.mpr hle')
  omega

def doRetry (overflowChecks : Bool) (outcomes : ℕ → Except ε α) (t : GnostrRetry) :
    List RetryEvent × Outcome ε α :=
  retryLoop overflowChecks .threadSleep outcomes t 0

def doRetryAsync (overflowChecks : Bool) (outcomes : ℕ → Except ε α) (t : GnostrRetry) :
    List RetryEvent × Outcome ε α :=
  retryLoop overflowChecks .tokioSleep outcomes t 0

/-- Runs the operation with a retry strategy. -/
def run (t : GnostrRetry) (overflowChecks : Bool) (outcomes : ℕ → Except ε α) :
    List RetryEvent × Outcome ε α :=
  doRetry overflowChecks outcomes t

def runAsync (t : GnostrRetry) (overflowChecks : Bool) (outcomes : ℕ → Except ε α) :
    List RetryEvent × Outcome ε α :=
  doRetryAsync overflowChecks outcomes t

/-- The result of the call whose outcome is returned. -/
def resultOf : Except ε α → Outcome ε α
  | .ok value => .ok value
  | .error error => .err error

/-- The delays grow as the strategy has it. -/
def DelaysGrow (t : GnostrRetry) (delays : List UInt64) : Prop :=
  match t with
  | linear delay _ => ∀ seconds ∈ delays, seconds = delay
  | linearAsync delay _ => ∀ seconds ∈ delays, seconds = delay
  | exponential delay _ => (∀ seconds ∈ delays.head?, seconds = delay) ∧
      delays.IsChain fun seconds next => next.toNat = 2 * seconds.toNat
  | exponentialAsync delay _ => (∀ seconds ∈ delays.head?, seconds = delay) ∧
      delays.IsChain fun seconds next => next.toNat = 2 * seconds.toNat

/-- The calls with a pause between any two of them. -/
def pausedCalls (sleep : UInt64 → RetryEvent) (delays : List UInt64) : List RetryEvent :=
  .call :: delays.flatMap fun seconds => [sleep seconds, .call]

/-- What is promised of a strategy: no more retries than it has, only failed calls before
the last one, the outcome of that one returned, an error only without a retry left, and the
delays between the calls. -/
structure AsPromised (t : GnostrRetry) (sleep : UInt64 → RetryEvent)
    (outcomes : ℕ → Except ε α) (delays : List UInt64)
    (result : List RetryEvent × Outcome ε α) : Prop where
  events : result.1 = pausedCalls sleep delays
  retries : delays.length ≤ t.getRetries.toNat
  failed : ∀ i < delays.length, ∃ error, outcomes i = .error error
  returned : result.2 = resultOf (outcomes delays.length)
  exhausted : ∀ error, outcomes delays.length = .error error →
    delays.length = t.getRetries.toNat
  grow : t.DelaysGrow delays

/-- No delay is computed, or it is the one that is constant. -/
def DelaysRight (t : GnostrRetry) (outcomes : ℕ → Except ε α) : Prop :=
  (∃ delay retries, t = linear delay retries ∨ t = linearAsync delay retries) ∨
    t.getRetries = 0 ∨ ∃ value, outcomes 0 = .ok value

section Loop

variable {overflowChecks : Bool} {sleep : UInt64 → RetryEvent} {outcomes : ℕ → Except ε α}
  {t : GnostrRetry}

/-- The call after which the loop does not go on. -/
theorem retryLoop_of_stop {retries : UInt64}
    (hstop : t.getRetries ≤ retries ∨ ∃ value, outcomes retries.toNat = .ok value) :
    retryLoop overflowChecks sleep outcomes t retries =
      ([.call], resultOf (outcomes retries.toNat)) := by
  rw [retryLoop]
  rcases houtcome : outcomes retries.toNat with error | value
  · have hle := hstop.resolve_right (by simp [houtcome])
    simp [hle, resultOf]
  · rfl

/-- A failed call with a retry left is followed by a pause and the rest of the loop. -/
theorem retryLoop_of_error {retries seconds : UInt64} {error : ε}
    (hfn : t.retryFn overflowChecks t.getDelay = some seconds)
    (hle : ¬ t.getRetries ≤ retries) (herror : outcomes retries.toNat = .error error) :
    retryLoop overflowChecks sleep outcomes t retries =
      (.call :: sleep seconds ::
          (retryLoop overflowChecks sleep outcomes t (retries + 1)).1,
        (retryLoop overflowChecks sleep outcomes t (retries + 1)).2) := by
  rw [retryLoop]
  simp only [herror, if_neg hle, hfn]

theorem retryLoop_of_panic {retries : UInt64} {error : ε}
    (hfn : t.retryFn overflowChecks t.getDelay = none)
    (hle : ¬ t.getRetries ≤ retries) (herror : outcomes retries.toNat = .error error) :
    retryLoop overflowChecks sleep outcomes t retries = ([.call], .panic) := by
  rw [retryLoop]
  simp only [herror, if_neg hle, hfn]

theorem pausedCalls_cons (seconds : UInt64) (delays : List UInt64) :
    pausedCalls sleep (seconds :: delays) =
      .call :: sleep seconds :: pausedCalls sleep delays := rfl

/-- What the loop does when the delay can be computed: as many failed calls as there are
pauses, all alike, and one more. -/
theorem exists_retryLoop_eq {seconds : UInt64}
    (hfn : t.retryFn overflowChecks t.getDelay = some seconds) {retries : UInt64}
    (hle : retries ≤ t.getRetries) :
    ∃ count, retries.toNat + count ≤ t.getRetries.toNat ∧
      retryLoop overflowChecks sleep outcomes t retries =
        (pausedCalls sleep (List.replicate count seconds),
          resultOf (outcomes (retries.toNat + count))) ∧
      (∀ i < count, ∃ error, outcomes (retries.toNat + i) = .error error) ∧
      ∀ error, outcomes (retries.toNat + count) = .error error →
        retries.toNat + count = t.getRetries.toNat := by
  induction hleft : t.getRetries.toNat - retries.toNat generalizing retries with
  | zero =>
      have hlast : t.getRetries.toNat ≤ retries.toNat := by omega
      have hsame : retries.toNat = t.getRetries.toNat :=
        Nat.le_antisymm (UInt64.le_iff_toNat_le.mp hle) hlast
      exact ⟨0, by omega, retryLoop_of_stop (.inl (UInt64.le_iff_toNat_le.mpr hlast)),
        fun i hi => absurd hi (Nat.not_lt_zero i), fun _ _ => hsame⟩
  | succ left ih =>
      have hmore : ¬ t.getRetries ≤ retries := by
        rw [UInt64.le_iff_toNat_le]
        omega
      have hsucc := toNat_succ_of_not_le hmore
      rcases houtcome : outcomes retries.toNat with error | value
      · obtain ⟨count, hcount, hloop, hfailed, hexhausted⟩ :=
          @ih (retries + 1) (by rw [UInt64.le_iff_toNat_le]; omega) (by omega)
        rw [hsucc] at hcount hloop hfailed hexhausted
        have hshift : ∀ i, retries.toNat + (i + 1) = retries.toNat + 1 + i :=
          fun i => by omega
        refine ⟨count + 1, by omega, ?_, ?_, ?_⟩
        · rw [retryLoop_of_error hfn hmore houtcome, hloop, List.replicate_succ,
            pausedCalls_cons, hshift count]
        · intro i hi
          cases i with
          | zero => exact ⟨error, houtcome⟩
          | succ i =>
              rw [hshift]
              exact hfailed i (Nat.lt_of_succ_lt_succ hi)
        · rw [hshift]
          exact hexhausted
      · refine ⟨0, by omega, retryLoop_of_stop (.inr ⟨value, houtcome⟩),
          fun i hi => absurd hi (Nat.not_lt_zero i), fun error herror => ?_⟩
        cases houtcome.symm.trans herror

end Loop

section Main

/-- The power of two that the exponential delay is, is never the delay itself. -/
theorem exponentialFn_ne (overflowChecks : Bool) (x : UInt64) :
    exponentialFn overflowChecks x ≠ some x := by
  intro hsame
  rw [exponentialFn] at hsame
  by_cases hpanic : overflowChecks = true ∧
      2 ^ 64 ≤ 2 ^ (if x.toNat < 2 ^ 32 then x.toNat else 0)
  · rw [if_pos hpanic] at hsame
    cases hsame
  · rw [if_neg hpanic] at hsame
    have hvalue := congrArg UInt64.toNat (Option.some.inj hsame)
    rw [UInt64.toNat_ofNat'] at hvalue
    by_cases hlarge : x.toNat < 2 ^ 32
    · rw [if_pos hlarge] at hvalue
      have hpower := @Nat.lt_two_pow_self x.toNat
      by_cases hsmall : x.toNat < 64
      · have hfits : 2 ^ x.toNat < 2 ^ 64 :=
          Nat.pow_lt_pow_right (a := 2) (by decide) hsmall
        rw [Nat.mod_eq_of_lt hfits] at hvalue
        omega
      · have hdvd : 2 ^ 64 ∣ 2 ^ x.toNat := Nat.pow_dvd_pow 2 (Nat.not_lt.mp hsmall)
        rw [Nat.mod_eq_zero_of_dvd hdvd] at hvalue
        omega
    · rw [if_neg hlarge] at hvalue
      omega

theorem asPromised_of_stop (overflowChecks : Bool) (sleep : UInt64 → RetryEvent)
    {outcomes : ℕ → Except ε α} {t : GnostrRetry}
    (hstop : t.getRetries = 0 ∨ ∃ value, outcomes 0 = .ok value) :
    t.AsPromised sleep outcomes [] (retryLoop overflowChecks sleep outcomes t 0) := by
  have hlast : t.getRetries ≤ 0 ∨ ∃ value, outcomes 0 = .ok value :=
    hstop.imp_left fun hzero => UInt64.le_zero_iff.mpr hzero
  rw [retryLoop_of_stop hlast]
  refine ⟨rfl, Nat.zero_le _, fun i hi => absurd hi (Nat.not_lt_zero i), rfl, ?_, ?_⟩
  · intro error herror
    rcases hstop with hzero | ⟨value, hvalue⟩
    · rw [hzero]
      rfl
    · cases hvalue.symm.trans herror
  · cases t <;> simp [DelaysGrow]

theorem exists_asPromised_of_constant {overflowChecks : Bool} (sleep : UInt64 → RetryEvent)
    (outcomes : ℕ → Except ε α) {t : GnostrRetry} {delay : UInt64}
    (hfn : t.retryFn overflowChecks t.getDelay = some delay)
    (hgrow : ∀ count, t.DelaysGrow (List.replicate count delay)) :
    ∃ delays, t.AsPromised sleep outcomes delays
      (retryLoop overflowChecks sleep outcomes t 0) := by
  obtain ⟨count, hcount, hloop, hfailed, hexhausted⟩ :=
    @exists_retryLoop_eq _ _ overflowChecks sleep outcomes t delay hfn 0
      (UInt64.le_iff_toNat_le.mpr (Nat.zero_le _))
  simp only [UInt64.toNat_zero, Nat.zero_add] at hcount hloop hfailed hexhausted
  refine ⟨List.replicate count delay, ?_⟩
  rw [hloop]
  constructor
  · rfl
  · rwa [List.length_replicate]
  · rwa [List.length_replicate]
  · rw [List.length_replicate]
  · rwa [List.length_replicate]
  · exact hgrow count

/-- The first pause of an exponential strategy is not its delay. -/
theorem not_asPromised_of_exponential {overflowChecks : Bool} {sleep : UInt64 → RetryEvent}
    (hsleep : Function.Injective sleep) {outcomes : ℕ → Except ε α} (t : GnostrRetry)
    (hfn : t.retryFn overflowChecks t.getDelay ≠ some t.getDelay)
    (hgrow : ∀ seconds delays, t.DelaysGrow (seconds :: delays) → seconds = t.getDelay)
    (hretries : t.getRetries ≠ 0) {error : ε} (herror : outcomes 0 = .error error)
    (delays : List UInt64) :
    ¬ t.AsPromised sleep outcomes delays (retryLoop overflowChecks sleep outcomes t 0) := by
  have hmore : ¬ t.getRetries ≤ 0 := fun hle => hretries (UInt64.le_zero_iff.mp hle)
  intro hpromised
  cases hseconds : t.retryFn overflowChecks t.getDelay with
  | none =>
      have hreturned := hpromised.returned
      rw [retryLoop_of_panic hseconds hmore herror] at hreturned
      rcases hlast : outcomes delays.length with other | value
      · rw [hlast] at hreturned
        cases hreturned
      · rw [hlast] at hreturned
        cases hreturned
  | some seconds =>
      have hevents := hpromised.events
      rw [retryLoop_of_error hseconds hmore herror] at hevents
      cases delays with
      | nil => cases hevents
      | cons first delays =>
          rw [pausedCalls_cons] at hevents
          have hsame : sleep seconds = sleep first := by
            injection hevents with _ hrest
            injection hrest
          have hdelay : seconds = t.getDelay :=
            (hsleep hsame).trans (hgrow first delays hpromised.grow)
          exact hfn (hseconds.trans (congrArg some hdelay))

/-- What is promised of the strategies holds of both loops exactly when the delay is
constant or none is computed. -/
theorem asPromised_iff_delaysRight (overflowChecks : Bool) (outcomes : ℕ → Except ε α)
    (t : GnostrRetry) :
    ((∃ delays, t.AsPromised .threadSleep outcomes delays (t.run overflowChecks outcomes)) ∧
      ∃ delays, t.AsPromised .tokioSleep outcomes delays
        (t.runAsync overflowChecks outcomes)) ↔
      t.DelaysRight outcomes := by
  have hthread : Function.Injective RetryEvent.threadSleep := fun _ _ hsame =>
    RetryEvent.threadSleep.inj hsame
  constructor
  · rintro ⟨⟨delays, hpromised⟩, -⟩
    by_contra hwrong
    rw [DelaysRight, not_or, not_or, not_exists] at hwrong
    obtain ⟨hnotLinear, hretries, hnotOk⟩ := hwrong
    obtain ⟨error, herror⟩ : ∃ error, outcomes 0 = .error error := by
      rcases houtcome : outcomes 0 with error | value
      · exact ⟨error, rfl⟩
      · exact absurd ⟨value, houtcome⟩ hnotOk
    cases t with
    | linear delay retries => exact hnotLinear delay ⟨retries, .inl rfl⟩
    | linearAsync delay retries => exact hnotLinear delay ⟨retries, .inr rfl⟩
    | exponential delay retries =>
        exact not_asPromised_of_exponential hthread (exponential delay retries)
          (exponentialFn_ne overflowChecks delay)
          (fun seconds delays hgrow => hgrow.1 seconds rfl) hretries herror delays hpromised
    | exponentialAsync delay retries =>
        exact not_asPromised_of_exponential hthread (exponentialAsync delay retries)
          (exponentialFn_ne overflowChecks delay)
          (fun seconds delays hgrow => hgrow.1 seconds rfl) hretries herror delays hpromised
  · rintro (⟨delay, retries, rfl | rfl⟩ | hstop)
    · have hgrow : ∀ count,
          (linear delay retries).DelaysGrow (List.replicate count delay) :=
        fun count seconds hseconds => List.eq_of_mem_replicate hseconds
      exact ⟨exists_asPromised_of_constant .threadSleep outcomes rfl hgrow,
        exists_asPromised_of_constant .tokioSleep outcomes rfl hgrow⟩
    · have hgrow : ∀ count,
          (linearAsync delay retries).DelaysGrow (List.replicate count delay) :=
        fun count seconds hseconds => List.eq_of_mem_replicate hseconds
      exact ⟨exists_asPromised_of_constant .threadSleep outcomes rfl hgrow,
        exists_asPromised_of_constant .tokioSleep outcomes rfl hgrow⟩
    · exact ⟨⟨[], asPromised_of_stop overflowChecks .threadSleep hstop⟩,
        ⟨[], asPromised_of_stop overflowChecks .tokioSleep hstop⟩⟩

/-- With a delay of three seconds and one retry, a failing operation is called again after
eight. -/
theorem not_asPromised_exponential_three :
    (exponential 3 1).run true (fun _ => (.error "refused" : Except String Unit)) =
        ([.call, .threadSleep 8, .call], .err "refused") ∧
      ∀ delays, ¬ (exponential 3 1).AsPromised .threadSleep
        (fun _ => (.error "refused" : Except String Unit)) delays
        ((exponential 3 1).run true fun _ => .error "refused") := by
  constructor
  · have hlast : retryLoop true .threadSleep
        (fun _ => (.error "refused" : Except String Unit)) (exponential 3 1) 1 =
          ([.call], .err "refused") :=
      retryLoop_of_stop (.inl (UInt64.le_refl 1))
    have hseconds : (exponential 3 1).retryFn true 3 = some 8 := by decide
    have hmore : ¬ (exponential 3 1).getRetries ≤ 0 := by decide
    have hfirst := @retryLoop_of_error String Unit true .threadSleep
      (fun _ => .error "refused") (exponential 3 1) 0 8 "refused" hseconds hmore rfl
    rw [UInt64.zero_add, hlast] at hfirst
    exact hfirst
  · exact not_asPromised_of_exponential (fun _ _ hsame => RetryEvent.threadSleep.inj hsame)
      (exponential 3 1) (exponentialFn_ne true 3)
      (fun seconds delays hgrow => hgrow.1 seconds rfl) (by decide) rfl

end Main

end GnostrRetry

end Cli

end Gnostr
