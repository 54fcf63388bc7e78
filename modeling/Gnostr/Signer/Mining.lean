/-
The mining threads of `sign_event_with_pow` in `types/src/nostr/signer.rs`: what one
atomic step of a worker does, every interleaving of such steps, and what the main
thread signs when all workers have ended.
-/
import Gnostr.Lib.Machine
import Gnostr.Signer.Signer
import Gnostr.Signer.Work
import Mathlib.Logic.Function.Basic

namespace Gnostr

namespace Types

/-- Where a worker is in its loop, with the leading zero bits that it has counted.
`left` is behind the loop; the others at the end are the panics: after the nonce was
stored, and before. -/
inductive WorkerPc where
  | loadQuitting
  | hash
  | storeNonce (leading : UInt8)
  | storeQuitting (leading : UInt8)
  | sendFound (leading : UInt8)
  | loadBest (leading : UInt8)
  | storeBest (leading : UInt8)
  | sendBest (leading : UInt8)
  | nextAttempt
  | left
  | panickedFound
  | panicked
deriving Repr, DecidableEq

namespace WorkerPc

/-- The thread can be joined. -/
def ended : WorkerPc → Bool
  | .left | .panickedFound | .panicked => true
  | _ => false

/-- Some worker, if not this one, has stored a nonce. -/
def found : WorkerPc → Bool
  | .storeQuitting _ | .sendFound _ | .left | .panickedFound => true
  | _ => false

theorem found_of_ended {pc : WorkerPc} (hended : pc.ended = true)
    (hne : pc ≠ .panicked) : pc.found = true := by
  cases pc with
  | left => rfl
  | panickedFound => rfl
  | panicked => exact absurd rfl hne
  | _ => exact absurd hended Bool.false_ne_true

end WorkerPc

/-- A worker with its own copy of the input. -/
structure Worker where
  input : PreEventV3
  attempt : UInt64
  pc : WorkerPc
deriving Repr, DecidableEq

/-- What the threads share: the stores to the three atomic cells, the last one
first, and whether the receiver is still there. -/
structure Shared where
  nonce : List UInt64
  quitting : List Bool
  bestWork : List UInt8
  receiver : Bool
deriving Repr, DecidableEq

/-- What the closures capture, and whether the build checks for overflow. -/
structure MiningConfig where
  input : PreEventV3
  index : ℕ
  zeroBits : UInt8
  workSender : Bool
  overflowChecks : Bool
deriving Repr, DecidableEq

/-- The workers and what they share. -/
structure Mining (cores : ℕ) where
  workers : Fin cores → Worker
  shared : Shared

/-- A step of a worker, in which a relaxed load sees a store of some age, or the
end of the receiver. -/
inductive MiningEvent (cores : ℕ) where
  | worker (core : Fin cores) (age : ℕ)
  | dropReceiver
deriving Repr, DecidableEq

section Steps

variable (prims : Primitives) (hex : Hex) (config : MiningConfig)

/-- `send` with `unwrap`, where there is a sender. -/
def sendWork (shared : Shared) (worker : Worker) (leading : UInt8)
    (sent failed : WorkerPc) : Worker × Shared × List UInt8 :=
  if !config.workSender then ({ worker with pc := sent }, shared, [])
  else if shared.receiver then ({ worker with pc := sent }, shared, [leading])
  else ({ worker with pc := failed }, shared, [])

/-- One step of the loop, with what it sends. -/
def Worker.step (shared : Shared) (worker : Worker) (age : ℕ) :
    Worker × Shared × List UInt8 :=
  match worker.pc with
  | .loadQuitting =>
      let pc := if shared.quitting.getD age false then .left else .hash
      ({ worker with pc := pc }, shared, [])
  | .hash =>
      let input := worker.input.setNonce config.index worker.attempt
      let id := input.hash hex prims
      let pc : WorkerPc :=
        match getLeadingZeroBits config.overflowChecks id.bytes.toList with
        | .ok leading =>
            if leading ≥ config.zeroBits then .storeNonce leading
            else .loadBest leading
        | _ => .panicked
      (⟨input, worker.attempt, pc⟩, shared, [])
  | .storeNonce leading =>
      ({ worker with pc := .storeQuitting leading },
        { shared with nonce := worker.attempt :: shared.nonce }, [])
  | .storeQuitting leading =>
      ({ worker with pc := .sendFound leading },
        { shared with quitting := true :: shared.quitting }, [])
  | .sendFound leading => sendWork config shared worker leading .left .panickedFound
  | .loadBest leading =>
      let pc := if leading > shared.bestWork.getD age 0 then .storeBest leading
        else .nextAttempt
      ({ worker with pc := pc }, shared, [])
  | .storeBest leading =>
      ({ worker with pc := .sendBest leading },
        { shared with bestWork := leading :: shared.bestWork }, [])
  | .sendBest leading => sendWork config shared worker leading .nextAttempt .panicked
  | .nextAttempt =>
      if config.overflowChecks = true ∧ worker.attempt.toNat = 2 ^ 64 - 1 then
        ({ worker with pc := .panicked }, shared, [])
      else (⟨worker.input, worker.attempt + 1, .loadQuitting⟩, shared, [])
  | .left | .panickedFound | .panicked => (worker, shared, [])

/-- The threads as a machine that emits what arrives at the receiver. -/
def miningMachine (cores : ℕ) :
    Machine (Mining cores) (MiningEvent cores) UInt8 where
  step mining event :=
    match event with
    | .worker core age =>
        let (worker, shared, sent) :=
          (mining.workers core).step prims hex config mining.shared age
        (⟨Function.update mining.workers core worker, shared⟩, sent)
    | .dropReceiver =>
        (⟨mining.workers, { mining.shared with receiver := false }⟩, [])

/-- The attempts of the workers begin at equal distances. -/
def MiningConfig.start (cores : ℕ) : Mining cores where
  workers core :=
    ⟨config.input, UInt64.ofNat (core * ((2 ^ 64 - 1) / cores)), .loadQuitting⟩
  shared := ⟨[], [], [], true⟩

/-- The next step is the panic of a worker that has not found a nonce: a report of
progress that nobody receives, an attempt after the last number, or an id of zero
bits only. -/
def Worker.failing (shared : Shared) (worker : Worker) : Bool :=
  match worker.pc with
  | .hash =>
      let id := (worker.input.setNonce config.index worker.attempt).hash hex prims
      match getLeadingZeroBits config.overflowChecks id.bytes.toList with
      | .ok _ => false
      | _ => true
  | .sendBest _ => config.workSender && !shared.receiver
  | .nextAttempt =>
      config.overflowChecks && decide (worker.attempt.toNat = 2 ^ 64 - 1)
  | _ => false

/-- In a run, a worker panics before it has found a nonce. -/
def FailsIn {cores : ℕ} (events : List (MiningEvent cores)) (core : Fin cores) :
    Prop :=
  ∃ before age after, events = before ++ .worker core age :: after ∧
    let mining := (miningMachine prims hex config cores).run (config.start cores)
      before
    (mining.workers core).failing prims hex config mining.shared = true

end Steps

/-- What a load of the nonce may see after the joins: the last store to the cell,
which may be that of any worker since nothing orders their stores. -/
def Shared.mayLoad (shared : Shared) (nonce : UInt64) : Prop :=
  nonce ∈ shared.nonce ∨ shared.nonce = [] ∧ nonce = 0

instance (shared : Shared) (nonce : UInt64) : Decidable (shared.mayLoad nonce) :=
  inferInstanceAs (Decidable (_ ∨ _))

/-- All threads can be joined. -/
def Mining.joined {cores : ℕ} (mining : Mining cores) : Prop :=
  ∀ core, (mining.workers core).pc.ended = true

instance {cores : ℕ} (mining : Mining cores) : Decidable mining.joined :=
  inferInstanceAs (Decidable (∀ _, _))

section Invariant

variable {prims : Primitives} {hex : Hex} {config : MiningConfig}

/-- The id for a nonce has the leading zero bits. -/
def MiningConfig.Works (prims : Primitives) (hex : Hex) (config : MiningConfig)
    (nonce : UInt64) : Prop :=
  config.zeroBits.toNat ≤ leadingZeroBits
    ((config.input.setNonce config.index nonce).hash hex prims).bytes.toList

/-- What is stored is a nonce that works, and it is stored before the others are
told to quit. -/
structure Shared.Inv (prims : Primitives) (hex : Hex) (config : MiningConfig)
    (shared : Shared) : Prop where
  nonce_works : ∀ nonce ∈ shared.nonce, config.Works prims hex nonce
  quitting_stored : true ∈ shared.quitting → shared.nonce ≠ []

/-- A worker stores an attempt that works, and it leaves the loop only when a nonce
is stored.  Its copy of the input differs in the nonce only. -/
structure Worker.Inv (prims : Primitives) (hex : Hex) (config : MiningConfig)
    (shared : Shared) (worker : Worker) : Prop where
  input_eq : ∀ nonce, worker.input.setNonce config.index nonce =
    config.input.setNonce config.index nonce
  attempt_works : ∀ leading, worker.pc = .storeNonce leading →
    config.Works prims hex worker.attempt
  found_stored : worker.pc.found = true → shared.nonce ≠ []

/-- What one step does to the cells and to its worker. -/
structure Worker.Advances (prims : Primitives) (hex : Hex) (config : MiningConfig)
    (shared : Shared) (worker : Worker) (shared' : Shared) (worker' : Worker) :
    Prop where
  inv : worker'.Inv prims hex config shared'
  shared_inv : shared'.Inv prims hex config
  stored : shared.nonce ≠ [] → shared'.nonce ≠ []
  found : worker.pc.found = true → worker'.pc.found = true
  stored_found : shared'.nonce ≠ [] →
    shared.nonce ≠ [] ∨ worker'.pc.found = true

theorem mem_of_getD_eq_true {stores : List Bool} {age : ℕ}
    (hload : stores.getD age false = true) : true ∈ stores := by
  rw [List.getD_eq_getElem?_getD] at hload
  cases hstore : stores[age]? with
  | none =>
      rw [hstore] at hload
      cases hload
  | some value =>
      rw [hstore, Option.getD_some] at hload
      exact List.mem_of_getElem? (hload ▸ hstore)

/-- A step that stores neither a nonce nor the quitting flag. -/
theorem Worker.Inv.advances {shared shared' : Shared} {worker worker' : Worker}
    (hworker : worker.Inv prims hex config shared)
    (hshared : shared.Inv prims hex config)
    (hnonce : shared'.nonce = shared.nonce)
    (hquitting : shared'.quitting = shared.quitting)
    (hinput : ∀ nonce, worker'.input.setNonce config.index nonce =
      worker.input.setNonce config.index nonce)
    (hworks : ∀ leading, worker'.pc = .storeNonce leading →
      config.Works prims hex worker'.attempt)
    (hfound : worker.pc.found = true → worker'.pc.found = true)
    (hstored : worker'.pc.found = true → shared.nonce ≠ []) :
    worker.Advances prims hex config shared shared' worker' where
  inv := {
    input_eq := fun nonce => (hinput nonce).trans (hworker.input_eq nonce)
    attempt_works := hworks
    found_stored := fun hpc => hnonce ▸ hstored hpc }
  shared_inv := {
    nonce_works := hnonce ▸ hshared.nonce_works
    quitting_stored := fun htrue => hnonce ▸
      hshared.quitting_stored (hquitting ▸ htrue) }
  stored := fun hne => hnonce ▸ hne
  found := hfound
  stored_found := fun hne => .inl (hnonce ▸ hne)

/-- A step of a worker that has not found a nonce. -/
theorem Worker.Inv.advances_searching {shared shared' : Shared}
    {worker worker' : Worker} (hworker : worker.Inv prims hex config shared)
    (hshared : shared.Inv prims hex config) (hpc : worker.pc.found = false)
    (hnonce : shared'.nonce = shared.nonce)
    (hquitting : shared'.quitting = shared.quitting)
    (hinput : ∀ nonce, worker'.input.setNonce config.index nonce =
      worker.input.setNonce config.index nonce)
    (hworks : ∀ leading, worker'.pc = .storeNonce leading →
      config.Works prims hex worker'.attempt)
    (hstored : worker'.pc.found = true → shared.nonce ≠ []) :
    worker.Advances prims hex config shared shared' worker' :=
  hworker.advances hshared hnonce hquitting hinput hworks
    (fun hfound => absurd (hpc.symm.trans hfound) Bool.false_ne_true) hstored

/-- Whether or not a report arrives, the worker is where it reports to. -/
theorem Worker.Inv.advances_sendWork {shared : Shared} {worker : Worker}
    (hworker : worker.Inv prims hex config shared)
    (hshared : shared.Inv prims hex config) (leading : UInt8)
    {sent failed : WorkerPc} (hsent : sent.found = worker.pc.found)
    (hfailed : failed.found = worker.pc.found)
    (hnotSent : ∀ leading, sent ≠ .storeNonce leading)
    (hnotFailed : ∀ leading, failed ≠ .storeNonce leading) :
    let next := sendWork config shared worker leading sent failed
    worker.Advances prims hex config shared next.2.1 next.1 := by
  have hgoto : ∀ pc : WorkerPc, pc.found = worker.pc.found →
      (∀ leading, pc ≠ .storeNonce leading) →
        worker.Advances prims hex config shared shared { worker with pc := pc } :=
    fun pc hpc hnot => hworker.advances hshared rfl rfl (fun _ => rfl)
      (fun leading hbad => absurd hbad (hnot leading)) (fun hfound => hpc.trans hfound)
      (fun hfound => hworker.found_stored (hpc.symm.trans hfound))
  unfold sendWork
  split
  · exact hgoto sent hsent hnotSent
  split
  · exact hgoto sent hsent hnotSent
  · exact hgoto failed hfailed hnotFailed

/-- A count that is enough is one of an attempt that works. -/
theorem Worker.Inv.works_of_count {shared : Shared} {worker : Worker}
    (hworker : worker.Inv prims hex config shared) {leading : UInt8}
    (hcount : getLeadingZeroBits config.overflowChecks ((worker.input.setNonce
      config.index worker.attempt).hash hex prims).bytes.toList = .ok leading)
    (hle : config.zeroBits ≤ leading) :
    config.Works prims hex worker.attempt := by
  have hbits := le_leadingZeroBits hcount
  rw [hworker.input_eq] at hbits
  exact (UInt8.le_iff_toNat_le.mp hle).trans hbits

/-- The store of a nonce that works. -/
theorem Worker.Inv.advances_storeNonce {shared : Shared} {worker : Worker}
    (hworker : worker.Inv prims hex config shared)
    (hshared : shared.Inv prims hex config) {leading : UInt8}
    (hpc : worker.pc = .storeNonce leading) :
    worker.Advances prims hex config shared
      { shared with nonce := worker.attempt :: shared.nonce }
      { worker with pc := .storeQuitting leading } where
  inv := {
    input_eq := hworker.input_eq
    attempt_works := nofun
    found_stored := fun _ => List.cons_ne_nil _ _ }
  shared_inv := {
    nonce_works := List.forall_mem_cons.mpr
      ⟨hworker.attempt_works leading hpc, hshared.nonce_works⟩
    quitting_stored := fun _ => List.cons_ne_nil _ _ }
  stored := fun _ => List.cons_ne_nil _ _
  found := fun _ => rfl
  stored_found := fun _ => .inr rfl

/-- The others are told to quit when the nonce is stored. -/
theorem Worker.Inv.advances_storeQuitting {shared : Shared} {worker : Worker}
    (hworker : worker.Inv prims hex config shared)
    (hshared : shared.Inv prims hex config) {leading : UInt8}
    (hpc : worker.pc = .storeQuitting leading) :
    worker.Advances prims hex config shared
      { shared with quitting := true :: shared.quitting }
      { worker with pc := .sendFound leading } :=
  have hstored : shared.nonce ≠ [] := hworker.found_stored (by rw [hpc]; rfl)
  { inv := {
      input_eq := hworker.input_eq
      attempt_works := nofun
      found_stored := fun _ => hstored }
    shared_inv := {
      nonce_works := hshared.nonce_works
      quitting_stored := fun _ => hstored }
    stored := fun _ => hstored
    found := fun _ => rfl
    stored_found := fun _ => .inr rfl }

/-- One step of a worker, for each place that it can be at. -/
theorem Worker.Inv.advances_step {shared : Shared} {worker : Worker}
    (hworker : worker.Inv prims hex config shared)
    (hshared : shared.Inv prims hex config) (age : ℕ) :
    let next := worker.step prims hex config shared age
    worker.Advances prims hex config shared next.2.1 next.1 := by
  have hsame : ∀ nonce, worker.input.setNonce config.index nonce =
      worker.input.setNonce config.index nonce := fun _ => rfl
  unfold Worker.step
  split
  case h_1 hpc =>
    refine hworker.advances_searching hshared (by rw [hpc]; rfl) rfl rfl hsame ?_ ?_
    · intro leading hbad
      dsimp only at hbad
      split at hbad <;> cases hbad
    · intro hfound
      dsimp only at hfound
      split at hfound
      · rename_i hload
        exact hshared.quitting_stored (mem_of_getD_eq_true hload)
      · cases hfound
  case h_2 hpc =>
    refine hworker.advances_searching hshared (by rw [hpc]; rfl) rfl rfl
      (fun nonce => worker.input.setNonce_setNonce _ _ _) ?_ ?_
    · intro leading hstore
      dsimp only at hstore
      split at hstore
      · rename_i count hcount
        split at hstore
        · rename_i hle
          exact hworker.works_of_count hcount hle
        · cases hstore
      · cases hstore
    · intro hfound
      dsimp only at hfound
      split at hfound
      · split at hfound <;> cases hfound
      · cases hfound
  case h_3 leading hpc =>
    exact hworker.advances_storeNonce hshared hpc
  case h_4 leading hpc =>
    exact hworker.advances_storeQuitting hshared hpc
  case h_5 leading hpc =>
    exact hworker.advances_sendWork hshared leading (by rw [hpc]; rfl)
      (by rw [hpc]; rfl) nofun nofun
  case h_6 leading hpc =>
    refine hworker.advances_searching hshared (by rw [hpc]; rfl) rfl rfl hsame ?_ ?_
    · intro leading hbad
      dsimp only at hbad
      split at hbad <;> cases hbad
    · intro hfound
      dsimp only at hfound
      split at hfound <;> cases hfound
  case h_7 leading hpc =>
    exact hworker.advances_searching hshared (by rw [hpc]; rfl) rfl rfl hsame nofun
      nofun
  case h_8 leading hpc =>
    exact hworker.advances_sendWork hshared leading (by rw [hpc]; rfl)
      (by rw [hpc]; rfl) nofun nofun
  case h_9 hpc =>
    have hsearching : worker.pc.found = false := by
      rw [hpc]
      rfl
    split
    · exact hworker.advances_searching hshared hsearching rfl rfl hsame nofun nofun
    · exact hworker.advances_searching hshared hsearching rfl rfl hsame nofun nofun
  all_goals
    exact hworker.advances hshared rfl rfl hsame hworker.attempt_works id
      hworker.found_stored

/-- The invariant of the threads: a nonce is stored exactly if some worker has gone
on from there. -/
structure Mining.Inv (prims : Primitives) (hex : Hex) (config : MiningConfig)
    {cores : ℕ} (mining : Mining cores) : Prop where
  workers_inv : ∀ core,
    (mining.workers core).Inv prims hex config mining.shared
  shared_inv : mining.shared.Inv prims hex config
  stored_found : mining.shared.nonce ≠ [] →
    ∃ core, (mining.workers core).pc.found = true

theorem inv_start (prims : Primitives) (hex : Hex) (config : MiningConfig)
    (cores : ℕ) : (config.start cores).Inv prims hex config where
  workers_inv _ := ⟨fun _ => rfl, nofun, nofun⟩
  shared_inv := ⟨fun _ hbad => absurd hbad List.not_mem_nil,
    fun hbad => absurd hbad List.not_mem_nil⟩
  stored_found hbad := absurd rfl hbad

/-- The step of a worker leaves the other workers as they are. -/
theorem Mining.Inv.next_worker {cores : ℕ} {mining : Mining cores}
    (hinv : mining.Inv prims hex config) (core : Fin cores) (age : ℕ) :
    ((miningMachine prims hex config cores).next mining (.worker core age)).Inv
      prims hex config := by
  have hstep := (hinv.workers_inv core).advances_step hinv.shared_inv age
  change Mining.Inv prims hex config ⟨Function.update mining.workers core
    ((mining.workers core).step prims hex config mining.shared age).1,
    ((mining.workers core).step prims hex config mining.shared age).2.1⟩
  generalize (mining.workers core).step prims hex config mining.shared age = next
    at hstep
  have hother : ∀ other, other ≠ core →
      Function.update mining.workers core next.1 other = mining.workers other :=
    fun other hne => Function.update_of_ne hne _ _
  have hcore : Function.update mining.workers core next.1 core = next.1 :=
    Function.update_self _ _ _
  refine ⟨fun other => ?_, hstep.shared_inv, fun hstored => ?_⟩
  · dsimp only
    by_cases hother' : other = core
    · rw [hother', hcore]
      exact hstep.inv
    · rw [hother other hother']
      have hworker := hinv.workers_inv other
      exact ⟨hworker.input_eq, hworker.attempt_works,
        fun hfound => hstep.stored (hworker.found_stored hfound)⟩
  · dsimp only
    rcases hstep.stored_found hstored with hbefore | hnow
    · obtain ⟨finder, hfinder⟩ := hinv.stored_found hbefore
      refine ⟨finder, ?_⟩
      by_cases hsame : finder = core
      · rw [hsame, hcore]
        exact hstep.found (hsame ▸ hfinder)
      · rw [hother finder hsame]
        exact hfinder
    · exact ⟨core, hcore.symm ▸ hnow⟩

theorem Mining.Inv.next {cores : ℕ} {mining : Mining cores}
    (hinv : mining.Inv prims hex config) (event : MiningEvent cores) :
    ((miningMachine prims hex config cores).next mining event).Inv prims hex
      config := by
  cases event with
  | worker core age => exact hinv.next_worker core age
  | dropReceiver =>
      exact {
        workers_inv := fun core => ⟨(hinv.workers_inv core).input_eq,
          (hinv.workers_inv core).attempt_works,
          (hinv.workers_inv core).found_stored⟩
        shared_inv :=
          ⟨hinv.shared_inv.nonce_works, hinv.shared_inv.quitting_stored⟩
        stored_found := hinv.stored_found }

/-- The invariant holds after every interleaving. -/
theorem inv_run (prims : Primitives) (hex : Hex) (config : MiningConfig)
    {cores : ℕ} (events : List (MiningEvent cores)) :
    ((miningMachine prims hex config cores).run (config.start cores) events).Inv
      prims hex config :=
  (miningMachine prims hex config cores).run_preserves
    (Mining.Inv prims hex config) (fun _ event _ hinv => hinv.next event)
    (inv_start prims hex config cores)

/-- A worker panics without a nonce in a step that fails, and stays there. -/
theorem Worker.step_pc_eq_panicked_iff (shared : Shared) (worker : Worker)
    (age : ℕ) :
    (worker.step prims hex config shared age).1.pc = .panicked ↔
      worker.pc = .panicked ∨ worker.failing prims hex config shared = true := by
  unfold Worker.step Worker.failing sendWork
  cases hpc : worker.pc with
  | loadQuitting => cases shared.quitting.getD age false <;> simp
  | hash =>
      dsimp only
      cases getLeadingZeroBits config.overflowChecks ((worker.input.setNonce
          config.index worker.attempt).hash hex prims).bytes.toList with
      | ok leading => by_cases hle : leading ≥ config.zeroBits <;> simp [hle]
      | err error => simp
      | panic => simp
  | loadBest leading =>
      generalize shared.bestWork.getD age 0 = best
      by_cases hmore : best < leading <;> simp [hmore]
  | sendBest leading =>
      cases config.workSender <;> cases shared.receiver <;> simp
  | sendFound leading =>
      cases config.workSender <;> cases shared.receiver <;> simp
  | nextAttempt =>
      by_cases hover : config.overflowChecks = true ∧
          worker.attempt.toNat = 2 ^ 64 - 1
      · simp [hover]
      · rw [if_neg hover]
        simp only [reduceCtorEq, false_or, false_iff]
        rw [Bool.and_eq_true, decide_eq_true_iff]
        exact hover
  | storeNonce leading => simp
  | storeQuitting leading => simp
  | storeBest leading => simp
  | left => simp [hpc]
  | panickedFound => simp [hpc]
  | panicked => simp [hpc]

theorem failsIn_append_singleton_iff {cores : ℕ}
    {events : List (MiningEvent cores)} {event : MiningEvent cores}
    {core : Fin cores} :
    FailsIn prims hex config (events ++ [event]) core ↔
      FailsIn prims hex config events core ∨ ∃ age, event = .worker core age ∧
        let mining := (miningMachine prims hex config cores).run
          (config.start cores) events
        (mining.workers core).failing prims hex config mining.shared = true := by
  constructor
  · rintro ⟨before, age, after, hevents, hfailing⟩
    rcases List.eq_nil_or_concat after with rfl | ⟨rest, last, rfl⟩
    · obtain ⟨hbefore, hlast⟩ := List.append_inj' hevents rfl
      rw [hbefore]
      exact .inr ⟨age, List.singleton_inj.mp hlast, hfailing⟩
    · rw [List.concat_eq_append, ← List.cons_append, ← List.append_assoc] at hevents
      exact .inl ⟨before, age, rest, (List.append_inj' hevents rfl).1, hfailing⟩
  · rintro (⟨before, age, after, hevents, hfailing⟩ | ⟨age, hevent, hfailing⟩)
    · refine ⟨before, age, after ++ [event], ?_, hfailing⟩
      rw [hevents, List.append_assoc, List.cons_append]
    · exact ⟨events, age, [], by rw [hevent], hfailing⟩

/-- The workers that panicked without a nonce are those that fail in the run. -/
theorem pc_run_eq_panicked_iff {cores : ℕ} (events : List (MiningEvent cores))
    (core : Fin cores) :
    (((miningMachine prims hex config cores).run (config.start cores)
        events).workers core).pc = .panicked ↔
      FailsIn prims hex config events core := by
  induction events using List.reverseRecOn with
  | nil =>
      refine iff_of_false nofun ?_
      rintro ⟨before, age, after, hevents, _⟩
      exact List.append_ne_nil_of_right_ne_nil _ (List.cons_ne_nil _ _)
        hevents.symm
  | append_singleton events event ih =>
      rw [failsIn_append_singleton_iff, ← ih, Machine.run_append]
      generalize (miningMachine prims hex config cores).run (config.start cores)
        events = mining
      rw [Machine.run_cons, Machine.run_nil]
      cases event with
      | dropReceiver => exact (or_iff_left nofun).symm
      | worker stepping age =>
          change (Function.update mining.workers stepping ((mining.workers
            stepping).step prims hex config mining.shared age).1 core).pc =
              .panicked ↔ _
          by_cases hsame : core = stepping
          · subst hsame
            rw [Function.update_self, Worker.step_pc_eq_panicked_iff]
            exact or_congr_right ⟨fun hfailing => ⟨age, rfl, hfailing⟩,
              fun ⟨_, _, hfailing⟩ => hfailing⟩
          · rw [Function.update_of_ne hsame]
            refine (or_iff_left ?_).symm
            rintro ⟨_, hevent, _⟩
            cases hevent
            exact hsame rfl

/-- At the end of a run, the nonce that is loaded works if and only if some worker
got through, or else the first nonce works. -/
theorem works_of_mayLoad_iff {cores : ℕ} {events : List (MiningEvent cores)}
    (hjoined : ((miningMachine prims hex config cores).run (config.start cores)
      events).joined) {nonce : UInt64}
    (hload : ((miningMachine prims hex config cores).run (config.start cores)
      events).shared.mayLoad nonce) :
    config.Works prims hex nonce ↔
      (∃ core, ¬ FailsIn prims hex config events core) ∨
        config.Works prims hex 0 := by
  have hinv := inv_run prims hex config events
  simp only [← pc_run_eq_panicked_iff]
  generalize (miningMachine prims hex config cores).run (config.start cores) events =
    mining at hinv hjoined hload
  rcases hload with hstored | ⟨hnone, rfl⟩
  · obtain ⟨core, hcore⟩ := hinv.stored_found (List.ne_nil_of_mem hstored)
    refine iff_of_true (hinv.shared_inv.nonce_works nonce hstored) (.inl ⟨core, ?_⟩)
    intro hpanicked
    rw [hpanicked] at hcore
    cases hcore
  · refine (or_iff_right ?_).symm
    rintro ⟨core, hcore⟩
    have hfound := WorkerPc.found_of_ended (hjoined core) hcore
    exact (hinv.workers_inv core).found_stored hfound hnone

end Invariant

namespace Signer

variable (prims : Primitives) (hex : Hex) {curve : Secp256k1}
  (schnorr : Schnorr curve)

/-- The settings of the threads for an input. -/
def miningConfig (input : PreEventV3) (zeroBits : UInt8)
    (workSender overflowChecks : Bool) : MiningConfig where
  input := powInput input zeroBits
  index := (powInput input zeroBits).tags.length - 1
  zeroBits := zeroBits
  workSender := workSender
  overflowChecks := overflowChecks

/-- Sign an event with proof of work, where the threads take the steps of a run at
whose end the main thread loads the nonce.  There is no result unless all threads
have ended and the load may see that nonce. -/
def signEventWithPow (signer : Signer curve) (input : PreEventV3)
    (zeroBits : UInt8) (workSender overflowChecks : Bool) {cores : ℕ}
    (events : List (MiningEvent cores)) (nonce : UInt64)
    (random : Vector UInt8 32) : Option (Outcome Error EventV3) :=
  if input.pubkey ≠ signer.publicKey then some (.err .invalidPrivateKey)
  else
    let config := miningConfig input zeroBits workSender overflowChecks
    let mining := (miningMachine prims hex config cores).run (config.start cores)
      events
    if mining.joined ∧ mining.shared.mayLoad nonce then
      some do
        let input := config.input.setNonce config.index nonce
        let id := input.hash hex prims
        let signature ← signer.signId schnorr id random
        return {
          id := id
          pubkey := input.pubkey
          createdAt := input.createdAt
          kind := input.kind
          sig := signature
          content := input.content
          tags := input.tags
        }
    else none

/-- A mined event carries its work exactly if not every worker panicked before it
had found a nonce, or the nonce 0, which nobody stored, happens to work. -/
theorem signEventWithPow_carriesWork_iff {signer : Signer curve}
    {input : PreEventV3} {zeroBits : UInt8} {workSender overflowChecks : Bool}
    {cores : ℕ} {events : List (MiningEvent cores)} {nonce : UInt64}
    {random : Vector UInt8 32} {event : EventV3}
    (hsign : signer.signEventWithPow prims hex schnorr input zeroBits workSender
      overflowChecks events nonce random = some (.ok event)) :
    let config := miningConfig input zeroBits workSender overflowChecks
    CarriesWork input zeroBits event ↔
      (∃ core, ¬ FailsIn prims hex config events core) ∨
        config.Works prims hex 0 := by
  intro config
  unfold signEventWithPow at hsign
  split at hsign
  · cases hsign
  dsimp only at hsign
  split at hsign
  · rename_i hrun
    obtain ⟨hjoined, hload⟩ := hrun
    rw [Option.some.injEq, Outcome.bind_eq_ok_iff] at hsign
    obtain ⟨signature, _, hevent⟩ := hsign
    cases hevent
    rw [← works_of_mayLoad_iff hjoined hload]
    exact carriesWork_iff (setNonce_powInput input zeroBits nonce)
  · cases hsign

section OneWorker

/-- A hash function on the one message that a run hashes. -/
def hashingTo (digest : Vector UInt8 32) : Primitives :=
  { Primitives.transparent with sha256 := fun _ => digest }

/-- A note of the owner of the key 1. -/
def minedNote : PreEventV3 where
  pubkey := PrivateKey.secretOne.publicKey
  createdAt := 1700000000
  kind := .wellKnown .textNote
  tags := []
  content := "hi"

/-- The id of the note with the nonce 0 and a target of 20 bits: it begins with two
zero bits. -/
def digestOfTarget20 : Vector UInt8 32 :=
  #v[0x3a, 0x8a, 0x39, 0x00, 0x77, 0xb8, 0x99, 0xfe, 0xa0, 0x7a, 0x3a, 0xe8, 0xac,
    0x90, 0x2e, 0x94, 0x99, 0xab, 0xba, 0xc6, 0x28, 0x5e, 0xf2, 0x6c, 0x81, 0x15,
    0x98, 0x94, 0x88, 0xfb, 0x39, 0xf6]

/-- The id of the note with the nonce 0 and a target of one bit: it has that. -/
def digestOfTarget1 : Vector UInt8 32 :=
  #v[0x74, 0x99, 0xb5, 0x8f, 0xe3, 0x01, 0x58, 0xe8, 0xcf, 0x78, 0xf1, 0x94, 0x08,
    0x6a, 0x7a, 0xe3, 0x28, 0x11, 0x13, 0xd7, 0x94, 0x5b, 0x2e, 0x88, 0x39, 0x81,
    0x76, 0x9f, 0x63, 0xec, 0x91, 0x3e]

/-- The only worker hashes the nonce 0, finds it the best so far, and panics when it
reports that to a receiver that is gone. -/
def abandonedRun : List (MiningEvent 1) :=
  [.dropReceiver, .worker 0 0, .worker 0 0, .worker 0 0, .worker 0 0, .worker 0 0]

/-- The worker hashes the nonce 0, stores it, and leaves the loop. -/
def quickRun : List (MiningEvent 1) :=
  [.worker 0 0, .worker 0 0, .worker 0 0, .worker 0 0, .worker 0 0]

/-- An event with the nonce that nobody found. -/
theorem abandonedRun_without_work : ∃ event,
    PrivateKey.secretOne.toSigner.signEventWithPow (hashingTo digestOfTarget20)
        Hex.reference (Schnorr.permissive Secp256k1.permissive) minedNote 20 true
        false abandonedRun 0 (Vector.replicate 32 0) = some (.ok event) ∧
      ¬ CarriesWork minedNote 20 event := by
  refine ⟨_, rfl, fun hcarries => ?_⟩
  exact absurd hcarries.work (by decide)

theorem exists_signEventWithPow_quickRun : ∃ event,
    PrivateKey.secretOne.toSigner.signEventWithPow (hashingTo digestOfTarget1)
      Hex.reference (Schnorr.permissive Secp256k1.permissive) minedNote 1 false
      false quickRun 0 (Vector.replicate 32 0) = some (.ok event) :=
  ⟨_, rfl⟩

/-- The event of the other run carries its work. -/
theorem signEventWithPow_carriesWork_quickRun : ∃ event,
    PrivateKey.secretOne.toSigner.signEventWithPow (hashingTo digestOfTarget1)
        Hex.reference (Schnorr.permissive Secp256k1.permissive) minedNote 1 false
        false quickRun 0 (Vector.replicate 32 0) = some (.ok event) ∧
      CarriesWork minedNote 1 event := by
  obtain ⟨event, hsign⟩ := exists_signEventWithPow_quickRun
  have hfinished : ∃ core, ¬ FailsIn (hashingTo digestOfTarget1) Hex.reference
      (miningConfig minedNote 1 false false) quickRun core := by
    refine ⟨0, ?_⟩
    rw [← pc_run_eq_panicked_iff]
    decide
  exact ⟨event, hsign,
    (signEventWithPow_carriesWork_iff _ _ _ hsign).mpr (.inl hfinished)⟩

end OneWorker

end Signer

end Types

end Gnostr
