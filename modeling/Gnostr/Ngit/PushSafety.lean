/-
Runs of pushes by any number of clients, among direct changes of the git servers: a commit
on a branch of a git server that the announced states never had stays on that branch.
-/
import Gnostr.Lib.Machine
import Gnostr.Ngit.PushRun

namespace Gnostr

namespace Ngit

section Servers

/-- What a source is pushed as. -/
def pushedObject (repo : Repo) (src : String) : Option Oid :=
  match (repo.findReference src).bind Reference.tag with
  | some tag => some tag
  | none => repo.getCommitOrTipOfReference src

/-- A refspec at a git server, which takes what is no fast forward only with force. -/
def takeSpec (walk : Oid → List Oid) (repo : Repo) (refs : Refs) (spec : String) :
    Option Refs :=
  match refspecToFromTo spec with
  | .error _ => none
  | .ok (src, dst) =>
      if src = "" then some (refs.erase dst)
      else
        match pushedObject repo src with
        | none => none
        | some oid =>
            let fastForward := (refs.lookup dst).all fun old =>
              (Oid.fromStr old).any (· ∈ walk oid)
            if startsWith spec '+' || fastForward then some (refs.insert dst oid.toString)
            else none

/-- One call of `push_to_remote`: all is sent or nothing, and the server may turn down some
of it. -/
def takeCall (walk : Oid → List Oid) (repo : Repo) (accepts : String → Bool) (refs : Refs)
    (specs : List String) : Refs :=
  ((specs.filter accepts).foldlM (takeSpec walk repo) refs).getD refs

/-- The git servers, and the state that is announced. -/
structure World where
  servers : String → Refs
  nostr : Option Refs

/-- A client pushes; a state is announced; somebody changes a git server without nostr. -/
inductive WorldEvent where
  | push (env : PushEnv) (refspecs : List String) (accepts : String → String → Bool)
      (seen : Bool)
  | announce (state : Refs)
  | direct (url : String) (refs : Refs)

namespace World

/-- The client with what it reads of the servers and of nostr right before the push. -/
def reads (world : World) (env : PushEnv) : PushEnv :=
  { env with
    listOutputs := env.listOutputs.map fun server =>
      { server with remoteState := world.servers server.url }
    cachedState := world.nostr }

/-- A push, whose announced state the others see or do not. -/
def push (walk : Oid → List Oid) (world : World) (env : PushEnv) (refspecs : List String)
    (accepts : String → String → Bool) (seen : Bool) : World :=
  match runPush (world.reads env) refspecs with
  | .error _ => world
  | .ok result =>
      { servers := fun url => (result.pushes.filter fun call => call.1 = url).foldl
          (fun refs call => takeCall walk env.repo (accepts url) refs call.2)
          (world.servers url)
        nostr := if seen then result.published <|> world.nostr else world.nostr }

end World

def worldMachine (walk : Oid → List Oid) : Machine World WorldEvent Unit where
  step world event :=
    match event with
    | .push env refspecs accepts seen => (world.push walk env refspecs accepts seen, [])
    | .announce state => ({ world with nostr := some state }, [])
    | .direct url refs => ({ world with servers := Function.update world.servers url refs }, [])

end Servers

section Safety

variable {walk : Oid → List Oid} {commit : Oid} {url dst : String}

/-- The commit is in the history of what a ref points at. -/
def Holds (walk : Oid → List Oid) (commit : Oid) (value : Option String) : Prop :=
  ∃ oid, value = some oid.toString ∧ commit ∈ walk oid

/-- A state is announced, and the branch is not there or has a history without the commit. -/
def Unknown (walk : Oid → List Oid) (commit : Oid) (dst : String) (world : World) : Prop :=
  ∃ state, world.nostr = some state ∧ ∀ value, state.lookup dst = some value →
    ∃ oid, value = oid.toString ∧ commit ∉ walk oid

/-- What nobody does to the branch of the server: delete it, push an annotated tag to it, or
take the commit off it behind the back of nostr. -/
def Respects (walk : Oid → List Oid) (commit : Oid) (url dst : String) : WorldEvent → Prop
  | .push env refspecs _ _ => env.repo.revwalk = walk ∧
      (∀ server ∈ env.listOutputs, server.url = url → server.isGraspServer = false) ∧
      ∀ refspec ∈ refspecs, ∀ src, refspecToFromTo refspec = .ok (src, dst) →
        src ≠ "" ∧ (env.repo.findReference src).bind Reference.tag = none
  | .announce _ => True
  | .direct url' refs => url' = url → Holds walk commit (refs.lookup dst)

theorem getCommitOrTipOfReference_eq {repo : Repo} {oid tip : Oid}
    (htip : repo.getCommitOrTipOfReference oid.toString = some tip) : oid = tip := by
  rw [Repo.getCommitOrTipOfReference_toString] at htip
  split_ifs at htip
  exact Option.some_inj.mp htip

/-- What is sent to a server for a branch whose history nostr does not know is ahead of it. -/
theorem branchFate_safe {repo : Repo} (hwalk : IsHistory repo.revwalk) {refspec : String}
    {fromTip : Oid} {nostrValue remoteValue : Option String}
    (hremote : Holds repo.revwalk commit remoteValue)
    (hunknown : ∀ value, nostrValue = some value →
      ∃ oid, value = oid.toString ∧ commit ∉ repo.revwalk oid) {spec : String}
    (hfate : branchFate repo false refspec fromTip nostrValue remoteValue = .ok (.push spec)) :
    commit ∈ repo.revwalk fromTip := by
  obtain ⟨remoteTip, rfl, hcommit⟩ := hremote
  -- the comparison that lets a refspec pass says that the commit is in the other history
  have hpass : ∀ {base : Oid} {lists : List Oid × List Oid},
      repo.getCommitsAheadBehind base remoteTip = .ok lists → lists.1.isEmpty = true →
        commit ∈ repo.revwalk base := by
    intro base lists hlists hempty
    have hspec := (Repo.getCommitsAheadBehind_spec hwalk hlists).2
    exact hwalk.trans (hspec.mp (List.isEmpty_iff.mp hempty)) hcommit
  cases nostrValue with
  | none =>
      simp only [branchFate] at hfate
      cases hremoteTip : repo.getCommitOrTipOfReference remoteTip.toString with
      | none =>
          rw [hremoteTip] at hfate
          cases hfate
      | some tip =>
          obtain rfl := getCommitOrTipOfReference_eq hremoteTip
          rw [hremoteTip] at hfate
          obtain ⟨lists, hlists, hfate⟩ := bind_eq_ok_iff.mp hfate
          split_ifs at hfate with hempty
          · exact hpass hlists hempty
          · cases hfate
  | some nostrValue =>
      obtain ⟨nostrTip, rfl, hmissing⟩ := hunknown nostrValue rfl
      have hne : nostrTip ≠ remoteTip := by
        rintro rfl
        exact hmissing hcommit
      simp only [branchFate] at hfate
      rw [if_neg (Oid.toString_injective.ne hne)] at hfate
      cases hremoteTip : repo.getCommitOrTipOfReference remoteTip.toString with
      | none =>
          rw [hremoteTip] at hfate
          cases hfate
      | some tip =>
          obtain rfl := getCommitOrTipOfReference_eq hremoteTip
          rw [hremoteTip] at hfate
          obtain ⟨lists, hlists, hfate⟩ := bind_eq_ok_iff.mp hfate
          split_ifs at hfate with hempty
          · exact hpass hlists hempty
          · cases hnostrTip : repo.getCommitOrTipOfReference nostrTip.toString with
            | none =>
                rw [hnostrTip] at hfate
                cases hfate
            | some base =>
                obtain rfl := getCommitOrTipOfReference_eq hnostrTip
                rw [hnostrTip] at hfate
                obtain ⟨lists, hlists, hfate⟩ := bind_eq_ok_iff.mp hfate
                split_ifs at hfate with hempty
                · exact absurd (hpass hlists hempty) hmissing
                · cases hfate

/-- What a server is sent for the branch has the commit in its history. -/
theorem fate_safe {repo : Repo} (hwalk : IsHistory repo.revwalk) {nostrState remoteState : Refs}
    (hremote : Holds repo.revwalk commit (remoteState.lookup dst))
    (hunknown : ∀ value, nostrState.lookup dst = some value →
      ∃ oid, value = oid.toString ∧ commit ∉ repo.revwalk oid)
    {refspec src spec : String} (hparse : refspecToFromTo refspec = .ok (src, dst))
    (hsrc : src ≠ "") (htag : (repo.findReference src).bind Reference.tag = none)
    (hfate : fate repo nostrState remoteState false refspec = .ok (.push spec)) :
    ∃ oid, pushedObject repo src = some oid ∧ commit ∈ repo.revwalk oid := by
  rw [fate, hparse] at hfate
  have hfate : fateFromTo repo nostrState remoteState false refspec src dst =
    .ok (.push spec) := hfate
  simp only [fateFromTo, if_neg hsrc] at hfate
  cases hreference : repo.findReference src with
  | none =>
      rw [hreference] at hfate
      cases hfate
  | some reference =>
      obtain ⟨peeled, tag⟩ := reference
      rw [hreference, Option.bind_some] at htag
      obtain rfl : tag = none := htag
      simp only [hreference, fromStr_eq_none (colon_mem hparse) rfl, Option.any_none,
        Bool.and_false, Bool.false_eq_true, if_false] at hfate
      rw [pushedObject, hreference, Option.bind_some]
      cases htip : repo.getCommitOrTipOfReference src with
      | none =>
          rw [htip] at hfate
          cases hfate
      | some fromTip =>
          rw [htip] at hfate
          exact ⟨fromTip, rfl, branchFate_safe hwalk hremote hunknown hfate⟩

/-- A server that is sent such refspecs only keeps the commit. -/
theorem holds_takeSpec {repo : Repo} {refs refs' : Refs} {spec : String}
    (hholds : Holds walk commit (refs.lookup dst))
    (hspec : ∀ src, refspecToFromTo spec = .ok (src, dst) →
      src ≠ "" ∧ ∃ oid, pushedObject repo src = some oid ∧ commit ∈ walk oid)
    (htake : takeSpec walk repo refs spec = some refs') :
    Holds walk commit (refs'.lookup dst) := by
  rw [takeSpec] at htake
  split at htake
  · cases htake
  · rename_i src dst' hparse
    by_cases hdst : dst' = dst
    · subst hdst
      obtain ⟨hsrc, oid, hobject, hcommit⟩ := hspec src hparse
      rw [if_neg hsrc, hobject] at htake
      simp only [] at htake
      split_ifs at htake
      cases htake
      exact ⟨oid, Finmap.lookup_insert _, hcommit⟩
    · have hother : ∀ value, (refs.insert dst' value).lookup dst = refs.lookup dst := fun value =>
        Finmap.lookup_insert_of_ne _ (Ne.symm hdst)
      split_ifs at htake
      · cases htake
        rwa [Finmap.lookup_erase_ne (Ne.symm hdst)]
      · split at htake
        · cases htake
        · simp only [] at htake
          split_ifs at htake
          cases htake
          rwa [hother]

theorem holds_takeCall {repo : Repo} {accepts : String → Bool} {specs : List String}
    {refs : Refs} (hholds : Holds walk commit (refs.lookup dst))
    (hspecs : ∀ spec ∈ specs, ∀ src, refspecToFromTo spec = .ok (src, dst) →
      src ≠ "" ∧ ∃ oid, pushedObject repo src = some oid ∧ commit ∈ walk oid) :
    Holds walk commit ((takeCall walk repo accepts refs specs).lookup dst) := by
  have hfold : ∀ {list : List String} {refs refs' : Refs}, (∀ spec ∈ list, spec ∈ specs) →
      Holds walk commit (refs.lookup dst) →
      list.foldlM (takeSpec walk repo) refs = some refs' →
      Holds walk commit (refs'.lookup dst) := by
    intro list
    induction list with
    | nil =>
        intro refs refs' _ hholds hrun
        cases hrun
        exact hholds
    | cons spec list ih =>
        intro refs refs' hlist hholds hrun
        obtain ⟨hspec, hlist⟩ := List.forall_mem_cons.mp hlist
        rw [List.foldlM_cons] at hrun
        obtain ⟨next, hnext, hrest⟩ := Option.bind_eq_some_iff.mp hrun
        exact ih hlist (holds_takeSpec hholds (hspecs spec hspec) hnext) hrest
  rw [takeCall]
  cases hrun : (specs.filter accepts).foldlM (takeSpec walk repo) refs with
  | none => exact hholds
  | some refs' => exact hfold (fun spec hspec => (List.mem_filter.mp hspec).1) hholds hrun

/-- A push keeps the commit. -/
theorem holds_push (hwalk : IsHistory walk) {world : World}
    (hholds : Holds walk commit ((world.servers url).lookup dst))
    (hunknown : Unknown walk commit dst world) {env : PushEnv} {refspecs : List String}
    {accepts : String → String → Bool} {seen : Bool}
    (hrespects : Respects walk commit url dst (.push env refspecs accepts seen)) :
    Holds walk commit
      (((world.push walk env refspecs accepts seen).servers url).lookup dst) := by
  obtain ⟨rfl, hplain, hsources⟩ := hrespects
  obtain ⟨state, hstate, hmissing⟩ := hunknown
  rw [World.push]
  cases hrun : runPush (world.reads env) refspecs with
  | error failure => exact hholds
  | ok result =>
      have hexisting : (world.reads env).existingState = .ok state := by
        simp only [PushEnv.existingState, World.reads, hstate]
      have hcarried := carried_of_runPush hexisting hrun
      have hcalls : ∀ call ∈ result.pushes, call.1 = url → ∀ spec ∈ call.2, ∀ src,
          refspecToFromTo spec = .ok (src, dst) → src ≠ "" ∧
            ∃ oid, pushedObject env.repo src = some oid ∧ commit ∈ env.repo.revwalk oid := by
        intro call hcall hurl spec hspec src hparse
        obtain ⟨hgoes, -, hsent⟩ :=
          (hcarried.sent url spec).mp ⟨call.2, by rw [← hurl]; exact hcall, hspec⟩
        obtain ⟨server, hserver, hserverUrl, hfate⟩ := hsent
        obtain ⟨listed, hlisted, rfl⟩ := List.mem_map.mp hserver
        obtain ⟨hsrc, htag⟩ := hsources spec hgoes.1 src hparse
        refine ⟨hsrc, ?_⟩
        have hurl : listed.url = url := hserverUrl
        simp only [hurl, hplain listed hlisted hurl] at hfate
        exact @fate_safe commit dst env.repo hwalk state (world.servers url) hholds hmissing
          spec src spec hparse hsrc htag hfate
      simp only []
      have hfold : ∀ {calls : List (String × List String)} {refs : Refs},
          (∀ call ∈ calls, call ∈ result.pushes ∧ call.1 = url) →
          Holds env.repo.revwalk commit (refs.lookup dst) →
          Holds env.repo.revwalk commit ((calls.foldl (fun refs call =>
            takeCall env.repo.revwalk env.repo (accepts url) refs call.2) refs).lookup dst) := by
        intro calls
        induction calls with
        | nil => exact fun _ hholds => hholds
        | cons call calls ih =>
            intro refs hall hholds
            obtain ⟨⟨hcall, hurl⟩, hall⟩ := List.forall_mem_cons.mp hall
            exact ih hall (holds_takeCall hholds (hcalls call hcall hurl))
      refine hfold (fun call hcall => ?_) hholds
      obtain ⟨hcall, hurl⟩ := List.mem_filter.mp hcall
      exact ⟨hcall, of_decide_eq_true hurl⟩

/-- Over any run, a commit that a branch of a git server has stays in its history for as
long as no announced state has it there, with force or without. -/
theorem commit_kept (hwalk : IsHistory walk) {world : World} {events : List WorldEvent}
    (hholds : Holds walk commit ((world.servers url).lookup dst))
    (hevents : (worldMachine walk).EachStep (fun world event =>
      Unknown walk commit dst world ∧ Respects walk commit url dst event) world events) :
    Holds walk commit ((((worldMachine walk).run world events).servers url).lookup dst) := by
  refine @Machine.run_of_eachStep _ _ _ (worldMachine walk)
    (fun world => Holds walk commit ((world.servers url).lookup dst)) _ ?_ _ hholds _ hevents
  rintro world (⟨env, refspecs, accepts, seen⟩ | state | ⟨url', refs⟩) hholds
    ⟨hunknown, hrespects⟩
  · exact holds_push hwalk hholds hunknown hrespects
  · exact hholds
  · change Holds walk commit ((Function.update world.servers url' refs url).lookup dst)
    by_cases hurl : url' = url
    · rw [hurl, Function.update_self]
      exact hrespects hurl
    · rwa [Function.update_of_ne (Ne.symm hurl)]

theorem mem_forkWalk_iff {first last : Oid} :
    last ∈ forkWalk first ↔ last = first ∨ last = baseCommit := by
  rw [forkWalk]
  split_ifs with hbase
  · simp [hbase]
  · simp

theorem isHistory_forkWalk : IsHistory forkWalk where
  head node := by
    rw [forkWalk]
    split <;> rfl
  trans {first next last} hnext hlast := by
    rw [mem_forkWalk_iff] at *
    rcases hlast with rfl | rfl
    · exact hnext
    · exact Or.inr rfl
  ordered node := by
    rw [forkWalk]
    split_ifs with hbase
    · exact List.pairwise_singleton _ _
    · simp [mem_forkWalk_iff, hbase]

/-- The server that has the other commit. -/
def forkWorld : World := ⟨fun _ => mainAt theirCommit, some (mainAt baseCommit)⟩

/-- The client knows the plain server only. -/
def plainEnv : PushEnv :=
  { forkEnv with listOutputs := [⟨"https://one.example/repo.git", ∅, false⟩] }

theorem commit_kept_fork :
    Holds forkWalk theirCommit ((((worldMachine forkWalk).run forkWorld
      [.push plainEnv ["+" ++ mainRefspec] (fun _ _ => true) true]).servers
        "https://one.example/repo.git").lookup "refs/heads/main") := by
  refine commit_kept isHistory_forkWalk ⟨theirCommit, Finmap.lookup_singleton_eq, ?_⟩ ?_
  · exact mem_forkWalk_iff.mpr (Or.inl rfl)
  refine Machine.eachStep_cons_iff.mpr ⟨⟨⟨mainAt baseCommit, rfl, ?_⟩, rfl, ?_, ?_⟩,
    Machine.eachStep_nil⟩
  · intro value hvalue
    rw [mainAt, Finmap.lookup_singleton_eq] at hvalue
    exact ⟨baseCommit, (Option.some_inj.mp hvalue).symm, by decide +kernel⟩
  · intro server hserver _
    rw [List.mem_singleton.mp hserver]
  · intro refspec hrefspec src hparse
    have hends : refspecToFromTo ("+" ++ mainRefspec) =
        .ok ("refs/heads/main", "refs/heads/main") := by decide +kernel
    rw [List.mem_singleton.mp hrefspec, hends] at hparse
    cases hparse
    exact ⟨by decide, rfl⟩

end Safety

end Ngit

end Gnostr
