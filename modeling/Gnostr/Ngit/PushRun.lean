/-
A push through the remote helper: what git is answered, what each git server is sent, and
which state of the repository is announced and kept.
-/
import Gnostr.Ngit.PushPlan
import Mathlib.Data.Finset.Sort
import Mathlib.Data.String.Basic

namespace Gnostr

namespace Ngit

def peeledRef (ref : String) : String := ref ++ "^\x7b\x7d"

def contains (text part : String) : Bool := decide (part.toList <:+: text.toList)

/-- The loop that adds what annotated tags of the state are peeled to. -/
def backfillPeeled (repo : Repo) : List (String × String) → Refs → Refs
  | [], state => state
  | (refName, tagOid) :: rest, state =>
      if peeledRef refName ∈ state then backfillPeeled repo rest state
      else if (Oid.fromStr tagOid).any repo.isTag then
        match repo.getCommitOrTipOfReference refName with
        | some commit =>
            backfillPeeled repo rest (state.insert (peeledRef refName) commit.toString)
        | none => backfillPeeled repo rest state
      else backfillPeeled repo rest state

/-- The turn of a refspec in `generate_updated_state`. -/
def updateState (repo : Repo) (state : Refs) (refspec : String) : Except Failure Refs := do
  let (src, dst) ← refspecToFromTo refspec
  if src = "" then
    if contains dst "refs/tags" then return (state.erase dst).erase (peeledRef dst)
    else return state.erase dst
  else if contains dst "refs/tags" then
    match repo.findReference src with
    | none => .error (.bail s!"cannot find ref {src} to push to {dst}")
    | some reference =>
        match repo.getCommitOrTipOfReference src, reference.tag with
        | none, _ =>
            .error (.bail s!"cannot find commit from annotated tag ref {src} to push to {dst}")
        | some commit, some annotatedTag =>
            return (state.insert dst annotatedTag.toString).insert (peeledRef dst)
              commit.toString
        | some commit, none => return state.insert dst commit.toString
  else
    match repo.getCommitOrTipOfReference src with
    | none => .error (.bail s!"cannot find commit from ref {src} to push to {dst}")
    | some commit => return state.insert dst commit.toString

/-- `generate_updated_state`. -/
def generateUpdatedState (repo : Repo) (order : IterOrder String) (existingState : Refs)
    (refspecs : List String) : Except Failure Refs :=
  let tagRefs := (iterEntries order existingState).filter fun (ref, _) =>
    "refs/tags/".toList.isPrefixOf ref.toList &&
      !"^\x7b\x7d".toList.isSuffixOf ref.toList
  refspecs.foldlM (updateState repo) (backfillPeeled repo tagRefs existingState)

/-- A line that git reads. -/
inductive Line where
  | ok (dst : String)
  | error (text : String)
  | blank
deriving DecidableEq, Repr

def Line.text : Line → String
  | ok dst => "ok " ++ dst
  | error text => "error " ++ text
  | blank => ""

/-- What a push finds: the repository, the state event that is cached, the answers of
the git servers and relays and of the parts of the helper around it.  A proposal is sent,
or turned down with a text. -/
structure PushEnv where
  repo : Repo
  order : IterOrder String
  gitServers : List String
  listOutputs : List Listed
  cachedState : Option Refs
  login : Except Failure Unit
  isMaintainer : Bool
  storeState : Bool
  otherEvents : Bool
  proposal : String → Except Failure (Option String)
  publish : Except Failure Unit
  relayResults : List (String × Bool)
  updateRemoteRefsPushed : String → Except Failure Unit
  isGraspServerCloneUrl : String → Bool
  relayUrl : String → Option String
  pushToRemote : String → List String → Bool

namespace PushEnv

variable (env : PushEnv)

/-- The state that is cached, or that of the first git server that answered. -/
def existingState : Except Failure Refs :=
  match env.cachedState with
  | some state => .ok state
  | none =>
      match env.gitServers.findSome? fun url => env.listOutputs.find? (·.url = url) with
      | some server => .ok server.remoteState
      | none => .error (.bail ("failed to connect to git servers: " ++
          " ".intercalate env.gitServers))

/-- The relay of a grasp server did not take the events. -/
def relayFailed (relayResults : List (String × Bool)) (url : String) : Bool :=
  env.isGraspServerCloneUrl url &&
    (env.relayUrl url).any fun relay => relayResults.contains (relay, false)

end PushEnv

/-- What `create_and_publish_events_and_proposals` returns. -/
structure Published where
  rejectedProposals : List String
  errors : List String
  rejected : Bool
  relayResults : List (String × Bool)
  newState : Option Refs

/-- `process_proposal_refspecs`, without the events. -/
def processProposalRefspecs (env : PushEnv) (proposalRefspecs : List String) :
    Except Failure (List String × List String) := do
  let answers ← proposalRefspecs.mapM fun refspec => do return (refspec, ← env.proposal refspec)
  let turnedDown := answers.filter fun (_, answer) => answer.isSome
  return (turnedDown.map Prod.fst, turnedDown.filterMap Prod.snd)

/-- The state that is announced when refspecs of the state are pushed. -/
def announcedState (env : PushEnv) (existingState : Refs) (gitServerRefspecs : List String) :
    Except Failure (Option Refs) := do
  if gitServerRefspecs.isEmpty then return none
  let newState ← generateUpdatedState env.repo env.order existingState gitServerRefspecs
  return if env.storeState then some newState else none

/-- `create_and_publish_events_and_proposals`.  Who is no maintainer is stopped only when
there are no proposals. -/
def createAndPublishEventsAndProposals (env : PushEnv) (existingState : Refs)
    (gitServerRefspecs proposalRefspecs : List String) : Except Failure Published := do
  env.login
  if !env.isMaintainer && proposalRefspecs.isEmpty then return ⟨[], [], true, [], none⟩
  let newState ← announcedState env existingState gitServerRefspecs
  let (rejectedProposals, errors) ← processProposalRefspecs env proposalRefspecs
  env.publish
  return ⟨rejectedProposals, errors, false,
    if newState.isNone && !env.otherEvents then [] else env.relayResults, newState⟩

/-- What a push came to: the lines for git, the calls of `push_to_remote`, the state that
was announced, and whether it was taken out of the cache again. -/
structure PushResult where
  lines : List Line
  pushes : List (String × List String)
  published : Option Refs
  rolledBack : Bool

def destination (refspec : String) : Except Failure String :=
  (refspecToFromTo refspec).map Prod.snd

/-- The answer for a refspec that the push goes on with. -/
def acceptRefspec (env : PushEnv) (refspec : String) : Except Failure Line := do
  let dst ← destination refspec
  env.updateRemoteRefsPushed refspec
  return .ok dst

def rejectRefspec (rejected : Rejected) (refspec : String) : Except Failure Line := do
  let dst ← destination refspec
  let urls := " ".intercalate ((rejected.lookup refspec).getD [])
  return .error s!"{dst} {urls} out of sync with nostr"

def unreachedRefspec (refspec : String) : Except Failure Line := do
  let dst ← destination refspec
  return .error s!"{dst} state event failed to reach any git server relay"

/-- The end of a push: the git servers are sent what the push goes on with, and the state
leaves the cache again when none takes anything. -/
def pushToServers (env : PushEnv) (published : Published) (gitStateRefspecs : List String)
    (remoteRefspecs : List (String × List String)) (lines : List Line) :
    Except Failure PushResult := do
  let serversToPush := (remoteRefspecs.filter fun (url, _) =>
    !env.relayFailed published.relayResults url).map fun (url, specs) =>
      (url, specs.filter (· ∈ gitStateRefspecs))
  if serversToPush.isEmpty && !gitStateRefspecs.isEmpty then
    let errorLines ← gitStateRefspecs.mapM unreachedRefspec
    return ⟨lines ++ errorLines ++ [.blank], [], published.newState, published.newState.isSome⟩
  let pushes := serversToPush.filter fun (_, specs) => !specs.isEmpty
  let anyPushSucceeded := pushes.any fun (url, specs) => env.pushToRemote url specs
  return ⟨lines ++ [.blank], pushes, published.newState,
    !anyPushSucceeded && !gitStateRefspecs.isEmpty && published.newState.isSome⟩

def isProposal (refspec : String) : Bool := contains refspec "refs/heads/pr/"

/-- `run_push`, from the refspecs of the batch. -/
def runPush (env : PushEnv) (refspecs : List String) : Except Failure PushResult := do
  let proposalRefspecs := refspecs.filter isProposal
  let stateRefspecs := refspecs.filter fun refspec => !isProposal refspec
  let existingState ← env.existingState
  let (rejected, remoteRefspecs) ← createRejectedRefspecsAndRemotesRefspecs env.repo
    stateRefspecs existingState env.listOutputs
  let rejectedLines ← (stateRefspecs.filter (· ∈ rejected)).mapM (rejectRefspec rejected)
  let gitStateRefspecs := stateRefspecs.filter (· ∉ rejected)
  if gitStateRefspecs.isEmpty && proposalRefspecs.isEmpty then
    return ⟨rejectedLines ++ [.blank], [], none, false⟩
  let published ← createAndPublishEventsAndProposals env existingState gitStateRefspecs
    proposalRefspecs
  let lines := rejectedLines ++ published.errors.map Line.error
  if published.rejected then return ⟨lines ++ [.blank], [], none, false⟩
  let okLines ← ((gitStateRefspecs ++ proposalRefspecs).filter
    (· ∉ published.rejectedProposals)).mapM (acceptRefspec env)
  pushToServers env published gitStateRefspecs remoteRefspecs (lines ++ okLines)

section Answers

variable {env : PushEnv} {refspecs : List String} {existing : Refs}

/-- What the relays answered, if anything was sent to them. -/
def PushEnv.sentResults (env : PushEnv) : List (String × Bool) :=
  if env.storeState || env.otherEvents then env.relayResults else []

theorem acceptRefspec_eq_ok {refspec : String} {line : Line}
    (hrun : acceptRefspec env refspec = .ok line) :
    ∃ dst, line = .ok dst ∧ destination refspec = .ok dst := by
  obtain ⟨dst, hdst, hrun⟩ := bind_eq_ok_iff.mp hrun
  obtain ⟨_, -, hrun⟩ := bind_eq_ok_iff.mp hrun
  cases hrun
  exact ⟨dst, rfl, hdst⟩

theorem told_iff {list : List String} {lines : List Line}
    (hrun : list.mapM (acceptRefspec env) = .ok lines) {dst : String} :
    Line.ok dst ∈ lines ↔ ∃ refspec, refspec ∈ list ∧ destination refspec = .ok dst := by
  rw [mem_of_mapM_eq_ok hrun]
  constructor
  · rintro ⟨refspec, hmem, hline⟩
    obtain ⟨dst', hline, hdst⟩ := acceptRefspec_eq_ok hline
    cases hline
    exact ⟨refspec, hmem, hdst⟩
  · rintro ⟨refspec, hmem, hdst⟩
    obtain ⟨line, hline⟩ := exists_of_mapM_eq_ok hrun hmem
    obtain ⟨dst', rfl, hdst'⟩ := acceptRefspec_eq_ok hline
    cases hdst.symm.trans hdst'
    exact ⟨refspec, hmem, hline⟩

theorem ok_notMem_rejected {rejected : Rejected} {list : List String} {lines : List Line}
    (hrun : list.mapM (rejectRefspec rejected) = .ok lines) (dst : String) :
    Line.ok dst ∉ lines := by
  rw [mem_of_mapM_eq_ok hrun]
  rintro ⟨refspec, -, hline⟩
  obtain ⟨_, -, hline⟩ := bind_eq_ok_iff.mp hline
  exact absurd hline nofun

theorem ok_notMem_unreached {list : List String} {lines : List Line}
    (hrun : list.mapM unreachedRefspec = .ok lines) (dst : String) : Line.ok dst ∉ lines := by
  rw [mem_of_mapM_eq_ok hrun]
  rintro ⟨refspec, -, hline⟩
  obtain ⟨_, -, hline⟩ := bind_eq_ok_iff.mp hline
  exact absurd hline nofun

/-- The end of a push: who is sent what, and when the state leaves the cache. -/
theorem pushToServers_eq_ok {published : Published} {gitStateRefspecs : List String}
    {remoteRefspecs : List (String × List String)} {lines : List Line} {result : PushResult}
    (hrun : pushToServers env published gitStateRefspecs remoteRefspecs lines = .ok result)
    (hstate : published.newState.isSome = true → gitStateRefspecs ≠ []) :
    (∀ url spec, (∃ specs, (url, specs) ∈ result.pushes ∧ spec ∈ specs) ↔
      spec ∈ gitStateRefspecs ∧ env.relayFailed published.relayResults url = false ∧
        ∃ specs, (url, specs) ∈ remoteRefspecs ∧ spec ∈ specs) ∧
      (∀ dst, Line.ok dst ∈ result.lines ↔ Line.ok dst ∈ lines) ∧
      result.published = published.newState ∧
      (result.rolledBack = true ↔ result.published.isSome = true ∧
        ∀ call ∈ result.pushes, env.pushToRemote call.1 call.2 = false) := by
  rw [pushToServers] at hrun
  have hservers : ∀ url spec, (∃ specs, (url, specs) ∈ (remoteRefspecs.filter fun call =>
      !env.relayFailed published.relayResults call.1).map (fun call =>
        (call.1, call.2.filter (· ∈ gitStateRefspecs))) ∧ spec ∈ specs) ↔
      spec ∈ gitStateRefspecs ∧ env.relayFailed published.relayResults url = false ∧
        ∃ specs, (url, specs) ∈ remoteRefspecs ∧ spec ∈ specs := by
    intro url spec
    constructor
    · rintro ⟨specs, hcall, hspec⟩
      obtain ⟨⟨url', specs'⟩, hin, heq⟩ := List.mem_map.mp hcall
      cases heq
      obtain ⟨hin, hrelay⟩ := List.mem_filter.mp hin
      obtain ⟨hspec, hstate⟩ := List.mem_filter.mp hspec
      exact ⟨of_decide_eq_true hstate, by simpa using hrelay, specs', hin, hspec⟩
    · rintro ⟨hspec, hrelay, specs, hin, hmem⟩
      refine ⟨_, List.mem_map.mpr ⟨(url, specs), List.mem_filter.mpr ⟨hin, ?_⟩, rfl⟩, ?_⟩
      · simp [hrelay]
      · exact List.mem_filter.mpr ⟨hmem, decide_eq_true hspec⟩
  split_ifs at hrun with hnone
  · obtain ⟨errorLines, herrors, hrun⟩ := bind_eq_ok_iff.mp hrun
    cases hrun
    rw [Bool.and_eq_true, List.isEmpty_iff] at hnone
    refine ⟨fun url spec => ?_, fun dst => ?_, rfl, by simp⟩
    · rw [← hservers, hnone.1]
    · simp [ok_notMem_unreached herrors dst]
  · cases hrun
    refine ⟨fun url spec => ?_, fun dst => by simp, rfl, ?_⟩
    · rw [← hservers]
      constructor
      · rintro ⟨specs, hcall, hspec⟩
        exact ⟨specs, (List.mem_filter.mp hcall).1, hspec⟩
      · rintro ⟨specs, hcall, hspec⟩
        refine ⟨specs, List.mem_filter.mpr ⟨hcall, ?_⟩, hspec⟩
        cases specs with
        | nil => exact absurd hspec List.not_mem_nil
        | cons first rest => rfl
    · rw [Bool.and_eq_true, Bool.and_eq_true, Bool.not_eq_true', List.any_eq_false]
      constructor
      · rintro ⟨⟨hnot, -⟩, hsome⟩
        exact ⟨hsome, fun call hcall => by simpa using hnot call hcall⟩
      · rintro ⟨hsome, hnot⟩
        refine ⟨⟨fun call hcall => by simpa using hnot call hcall, ?_⟩, hsome⟩
        simpa using hstate hsome

theorem announcedState_eq_ok {gitServerRefspecs : List String} {newState : Option Refs}
    (hrun : announcedState env existing gitServerRefspecs = .ok newState) :
    newState.isSome = true ↔ env.storeState = true ∧ gitServerRefspecs ≠ [] := by
  rw [announcedState] at hrun
  cases gitServerRefspecs with
  | nil =>
      cases hrun
      simp
  | cons first rest =>
      obtain ⟨state, -, hrun⟩ := bind_eq_ok_iff.mp hrun
      cases hrun
      cases env.storeState <;> simp

theorem processProposalRefspecs_eq_ok {proposals rejected errors : List String}
    (hrun : processProposalRefspecs env proposals = .ok (rejected, errors)) {refspec : String} :
    refspec ∈ rejected ↔ refspec ∈ proposals ∧ env.proposal refspec ≠ .ok none := by
  obtain ⟨answers, hanswers, hrun⟩ := bind_eq_ok_iff.mp hrun
  cases hrun
  have hmem : ∀ answer, (refspec, answer) ∈ answers ↔
      refspec ∈ proposals ∧ env.proposal refspec = .ok answer := by
    intro answer
    rw [mem_of_mapM_eq_ok hanswers]
    constructor
    · rintro ⟨item, hitem, hline⟩
      obtain ⟨value, hvalue, hline⟩ := bind_eq_ok_iff.mp hline
      cases hline
      exact ⟨hitem, hvalue⟩
    · exact fun ⟨hitem, hvalue⟩ => ⟨refspec, hitem, bind_eq_ok_iff.mpr ⟨answer, hvalue, rfl⟩⟩
  constructor
  · intro hrejected
    obtain ⟨⟨_, answer⟩, hanswer, rfl⟩ := List.mem_map.mp hrejected
    obtain ⟨hanswer, hsome⟩ := List.mem_filter.mp hanswer
    obtain ⟨hitem, hvalue⟩ := (hmem answer).mp hanswer
    refine ⟨hitem, fun hnone => ?_⟩
    rw [hvalue] at hnone
    cases hnone
    exact absurd hsome nofun
  · rintro ⟨hitem, hne⟩
    obtain ⟨⟨item, answer⟩, hline⟩ := exists_of_mapM_eq_ok hanswers hitem
    obtain ⟨value, hvalue, hline⟩ := bind_eq_ok_iff.mp hline
    cases hline
    refine List.mem_map.mpr ⟨(refspec, answer), ?_, rfl⟩
    refine List.mem_filter.mpr ⟨(hmem answer).mpr ⟨hitem, hvalue⟩, ?_⟩
    cases answer with
    | none => exact absurd hvalue hne
    | some text => rfl

/-- Who is no maintainer and has no proposal is stopped; else the relays are sent what there
is to send. -/
theorem createAndPublishEventsAndProposals_eq_ok {gitServerRefspecs proposals : List String}
    {published : Published}
    (hrun : createAndPublishEventsAndProposals env existing gitServerRefspecs proposals =
      .ok published) :
    (published.rejected = true ∧ env.isMaintainer = false ∧ proposals = []) ∨
      (published.rejected = false ∧ (env.isMaintainer = true ∨ proposals ≠ []) ∧
        announcedState env existing gitServerRefspecs = .ok published.newState ∧
        (gitServerRefspecs ≠ [] → published.relayResults = env.sentResults) ∧
        ∀ refspec, refspec ∈ published.rejectedProposals ↔
          refspec ∈ proposals ∧ env.proposal refspec ≠ .ok none) := by
  obtain ⟨_, -, hrun⟩ := bind_eq_ok_iff.mp hrun
  split_ifs at hrun with hstop
  · cases hrun
    rw [Bool.and_eq_true, Bool.not_eq_true', List.isEmpty_iff] at hstop
    exact Or.inl ⟨rfl, hstop⟩
  · obtain ⟨newState, hnew, hrun⟩ := bind_eq_ok_iff.mp hrun
    obtain ⟨⟨rejectedProposals, errors⟩, hproposals, hrun⟩ := bind_eq_ok_iff.mp hrun
    obtain ⟨_, -, hrun⟩ := bind_eq_ok_iff.mp hrun
    cases hrun
    refine Or.inr ⟨rfl, ?_, hnew, fun hne => ?_, fun refspec =>
      processProposalRefspecs_eq_ok hproposals⟩
    · by_cases hmaintainer : env.isMaintainer = true
      · exact Or.inl hmaintainer
      · exact Or.inr fun hnil => hstop (by simp [hmaintainer, hnil])
    · have hsome := announcedState_eq_ok hnew
      rw [PushEnv.sentResults]
      cases hstore : env.storeState with
      | true =>
          obtain ⟨state, rfl⟩ := Option.isSome_iff_exists.mp (hsome.mpr ⟨hstore, hne⟩)
          simp
      | false =>
          have hnone : newState = none := by
            cases newState with
            | none => rfl
            | some state => exact absurd (hsome.mp rfl).1 (by simp [hstore])
          cases hother : env.otherEvents <;> simp [hnone]

/-- The push goes on with a refspec of the state: no git server rejects it, and it is a
maintainer who pushes, or someone who pushes a proposal as well. -/
def GoesOn (env : PushEnv) (existing : Refs) (refspecs : List String) (refspec : String) :
    Prop :=
  refspec ∈ refspecs ∧ isProposal refspec = false ∧
    (∀ server ∈ env.listOutputs, ¬ Rejects env.repo existing server refspec) ∧
    (env.isMaintainer = true ∨ ∃ proposal ∈ refspecs, isProposal proposal = true)

/-- The push goes on with a proposal. -/
def Proposes (env : PushEnv) (refspecs : List String) (refspec : String) : Prop :=
  refspec ∈ refspecs ∧ isProposal refspec = true ∧ env.proposal refspec = .ok none

/-- A server gets a refspec as it is. -/
def SentAsGiven (env : PushEnv) (existing : Refs) (url refspec : String) : Prop :=
  ∃ server ∈ env.listOutputs, server.url = url ∧
    fate env.repo existing server.remoteState server.isGraspServer refspec = .ok (.push refspec)

theorem mem_sentTo_iff {repo : Repo} {server : Listed} {spec : String} (hspec : spec ∈ refspecs) :
    spec ∈ sentTo repo existing refspecs server ↔
      fate repo existing server.remoteState server.isGraspServer spec = .ok (.push spec) := by
  rw [sentTo, List.mem_filterMap]
  constructor
  · rintro ⟨refspec, -, hsent⟩
    split at hsent
    · rename_i sent hfate
      cases hsent
      exact (fate_push_cases hfate).2
    · cases hsent
  · exact fun hfate => ⟨spec, hspec, by rw [hfate]⟩

/-- What is left of the refspecs of the state when the rejected ones are taken out. -/
theorem mem_gitState_iff {rejected : Rejected}
    (hrejected : ∀ refspec, refspec ∈ rejected ↔
      refspec ∈ refspecs.filter (fun refspec => !isProposal refspec) ∧
        ∃ server ∈ env.listOutputs, Rejects env.repo existing server refspec) (spec : String) :
    spec ∈ (refspecs.filter fun refspec => !isProposal refspec).filter (· ∉ rejected) ↔
      spec ∈ refspecs ∧ isProposal spec = false ∧
        ∀ server ∈ env.listOutputs, ¬ Rejects env.repo existing server spec := by
  rw [List.mem_filter, decide_eq_true_iff, hrejected]
  simp only [List.mem_filter, Bool.not_eq_true']
  constructor
  · rintro ⟨hmem, hnot⟩
    exact ⟨hmem.1, hmem.2, fun server hserver hrejects => hnot ⟨hmem, server, hserver, hrejects⟩⟩
  · rintro ⟨hin, hproposal, hnone⟩
    exact ⟨⟨hin, hproposal⟩, fun ⟨_, server, hserver, hrejects⟩ => hnone server hserver hrejects⟩

/-- What a push does. -/
structure Carried (env : PushEnv) (existing : Refs) (refspecs : List String)
    (result : PushResult) : Prop where
  /-- Each git server is sent what the push goes on with and what the server gets as it is. -/
  sent : ∀ url spec, (∃ specs, (url, specs) ∈ result.pushes ∧ spec ∈ specs) ↔
    GoesOn env existing refspecs spec ∧ env.relayFailed env.sentResults url = false ∧
      SentAsGiven env existing url spec
  /-- Git is told `ok` for what the push goes on with, sent to a server or not. -/
  told : ∀ dst, Line.ok dst ∈ result.lines ↔
    ∃ spec, (GoesOn env existing refspecs spec ∨ Proposes env refspecs spec) ∧
      destination spec = .ok dst
  announced : result.published.isSome = true ↔
    env.storeState = true ∧ ∃ spec, GoesOn env existing refspecs spec
  /-- The announced state stays in the cache when a server takes a call. -/
  rolledBack : result.rolledBack = true ↔ result.published.isSome = true ∧
    ∀ call ∈ result.pushes, env.pushToRemote call.1 call.2 = false

theorem carried_of_stopped {lines : List Line} (hlines : ∀ dst, Line.ok dst ∉ lines)
    (hgoes : ∀ spec, ¬ GoesOn env existing refspecs spec)
    (hproposes : ∀ spec, ¬ Proposes env refspecs spec) :
    Carried env existing refspecs ⟨lines ++ [.blank], [], none, false⟩ where
  sent url spec := by simp [hgoes spec]
  told dst := by simp [hlines dst, hgoes, hproposes]
  announced := by simp [hgoes]
  rolledBack := by simp

/-- A push does just that: what would have to be forced on a server, and is not forced from
the start, is left out there, though git is told `ok`. -/
theorem carried_of_runPush {result : PushResult} (hexisting : env.existingState = .ok existing)
    (hrun : runPush env refspecs = .ok result) : Carried env existing refspecs result := by
  obtain ⟨existing', hexisting', hrun⟩ := bind_eq_ok_iff.mp hrun
  rw [hexisting] at hexisting'
  cases hexisting'
  obtain ⟨⟨rejected, remoteRefspecs⟩, hplan, hrun⟩ := bind_eq_ok_iff.mp hrun
  obtain ⟨rejectedLines, hlines, hrun⟩ := bind_eq_ok_iff.mp hrun
  obtain ⟨hsent, hrejected⟩ := createRejectedRefspecsAndRemotesRefspecs_eq_ok hplan
  have hstate := mem_gitState_iff hrejected
  have hproposals : refspecs.filter isProposal ≠ [] ↔
      ∃ proposal ∈ refspecs, isProposal proposal = true := by
    simp [List.filter_eq_nil_iff]
  have hproposes : ∀ spec, Proposes env refspecs spec ↔
      spec ∈ refspecs.filter isProposal ∧ env.proposal spec = .ok none := fun spec => by
    rw [List.mem_filter, and_assoc, Proposes]
  generalize (refspecs.filter fun refspec => !isProposal refspec).filter (· ∉ rejected) =
    gitStateRefspecs at hrun hstate
  have hgoes : ∀ spec, GoesOn env existing refspecs spec ↔ spec ∈ gitStateRefspecs ∧
      (env.isMaintainer = true ∨ refspecs.filter isProposal ≠ []) := fun spec => by
    rw [hstate, hproposals, GoesOn, and_assoc, and_assoc]
  simp only [] at hrun
  split_ifs at hrun with hnothing
  · cases hrun
    rw [Bool.and_eq_true, List.isEmpty_iff, List.isEmpty_iff] at hnothing
    apply carried_of_stopped (ok_notMem_rejected hlines)
    · simp [hgoes, hnothing.1]
    · simp [hproposes, hnothing.2]
  · obtain ⟨published, hpublished, hrun⟩ := bind_eq_ok_iff.mp hrun
    rcases createAndPublishEventsAndProposals_eq_ok hpublished with
      ⟨hstop, hmaintainer, hnone⟩ | ⟨hgo, hmay, hnew, hrelays, hturned⟩
    · rw [if_pos hstop] at hrun
      cases hrun
      apply carried_of_stopped
      · simp [ok_notMem_rejected hlines]
      · simp [hgoes, hmaintainer, hnone]
      · simp [hproposes, hnone]
    · rw [if_neg (by simp [hgo])] at hrun
      obtain ⟨okLines, hok, hrun⟩ := bind_eq_ok_iff.mp hrun
      have hsome := announcedState_eq_ok hnew
      obtain ⟨hpushes, htold, hpub, hback⟩ := pushToServers_eq_ok hrun fun h => (hsome.mp h).2
      replace hgoes : ∀ spec, GoesOn env existing refspecs spec ↔ spec ∈ gitStateRefspecs :=
        fun spec => (hgoes spec).trans (and_iff_left hmay)
      refine ⟨fun url spec => ?_, fun dst => ?_, ?_, hback⟩
      · rw [hpushes, hgoes]
        refine and_congr_right fun hspec => ?_
        rw [hrelays (List.ne_nil_of_mem hspec), hsent]
        refine and_congr_right fun _ => ?_
        obtain ⟨hmem, hnot, hnone⟩ := (hstate spec).mp hspec
        have hin : spec ∈ refspecs.filter fun refspec => !isProposal refspec :=
          List.mem_filter.mpr ⟨hmem, by simp [hnot]⟩
        simp only [mem_sentTo_iff hin]
        refine and_iff_right fun hin => ?_
        obtain ⟨-, server, hserver, hrejects⟩ := (hrejected spec).mp hin
        exact hnone server hserver hrejects
      · rw [htold]
        simp only [List.mem_append, ok_notMem_rejected hlines dst, List.mem_map, reduceCtorEq,
          and_false, exists_false, false_or]
        rw [told_iff hok]
        refine exists_congr fun spec => and_congr_left fun _ => ?_
        rw [hgoes, hproposes, List.mem_filter, decide_eq_true_iff, hturned, List.mem_append]
        have hnot (h : spec ∈ gitStateRefspecs) : spec ∉ refspecs.filter isProposal := by
          intro hmem
          have hproposal := (List.mem_filter.mp hmem).2
          rw [((hstate spec).mp h).2.1] at hproposal
          exact Bool.false_ne_true hproposal
        constructor
        · rintro ⟨hmem | hmem, hkept⟩
          · exact Or.inl hmem
          · exact Or.inr ⟨hmem, not_not.mp fun hne => hkept ⟨hmem, hne⟩⟩
        · rintro (hmem | ⟨hmem, hanswer⟩)
          · exact ⟨Or.inl hmem, fun h => hnot hmem h.1⟩
          · exact ⟨Or.inr hmem, fun h => h.2 hanswer⟩
      · rw [hpub, hsome]
        refine and_congr_right fun _ => ?_
        simp only [hgoes]
        exact ⟨List.exists_mem_of_ne_nil _, fun ⟨_, hmem⟩ => List.ne_nil_of_mem hmem⟩

theorem exists_fate_of_goesOn {result : PushResult}
    (hexisting : env.existingState = .ok existing)
    (hrun : runPush env refspecs = .ok result) {spec : String}
    (hgoes : GoesOn env existing refspecs spec) {server : Listed}
    (hserver : server ∈ env.listOutputs) :
    ∃ fated, fate env.repo existing server.remoteState server.isGraspServer spec =
      .ok fated := by
  obtain ⟨existing', hexisting', hrun⟩ := bind_eq_ok_iff.mp hrun
  rw [hexisting] at hexisting'
  cases hexisting'
  obtain ⟨plan, hplan, -⟩ := bind_eq_ok_iff.mp hrun
  obtain ⟨loops, hloops, -⟩ := bind_eq_ok_iff.mp hplan
  exact exists_fate hloops hserver (List.mem_filter.mpr ⟨hgoes.1, by simp [hgoes.2.1]⟩)

/-- What becomes of a refspec that the push goes on with: git is told `ok`; a server that
answered goes without it when its relay failed, when there is nothing to send, and when it
would have to be forced, which it is not; and the announced state stays in the cache when a
server takes a call. -/
theorem runPush_answers {result : PushResult} (hexisting : env.existingState = .ok existing)
    (hrun : runPush env refspecs = .ok result)
    (hurls : (env.listOutputs.map Listed.url).Nodup)
    {spec dst : String} (hgoes : GoesOn env existing refspecs spec)
    (hdst : destination spec = .ok dst) :
    Line.ok dst ∈ result.lines ∧
      (∀ server ∈ env.listOutputs,
        (∀ specs, (server.url, specs) ∈ result.pushes → spec ∉ specs) ↔
          env.relayFailed env.sentResults server.url = true ∨
          fate env.repo existing server.remoteState server.isGraspServer spec =
            .ok .nothing ∨
          fate env.repo existing server.remoteState server.isGraspServer spec =
            .ok (.push ("+" ++ spec))) ∧
      (env.storeState = true → (result.rolledBack = false ↔
        ∃ call ∈ result.pushes, env.pushToRemote call.1 call.2 = true)) := by
  have hcarried := carried_of_runPush hexisting hrun
  refine ⟨(hcarried.told dst).mpr ⟨spec, Or.inl hgoes, hdst⟩, fun server hserver => ?_,
    fun hstore => ?_⟩
  · have hsent : SentAsGiven env existing server.url spec ↔
        fate env.repo existing server.remoteState server.isGraspServer spec =
          .ok (.push spec) := by
      constructor
      · rintro ⟨other, hother, hurl, hfate⟩
        rwa [← List.inj_on_of_nodup_map hurls hother hserver hurl]
      · exact fun hfate => ⟨server, hserver, rfl, hfate⟩
    have hnot := not_congr (hcarried.sent server.url spec)
    rw [not_exists, hsent, and_iff_right hgoes, not_and_or, Bool.not_eq_false] at hnot
    simp only [not_and] at hnot
    rw [hnot]
    refine or_congr_right ?_
    obtain ⟨fated, hfate⟩ := exists_fate_of_goesOn hexisting hrun hgoes hserver
    rw [hfate]
    cases fated with
    | nothing => simp
    | reject => exact absurd hfate (hgoes.2.2.1 server hserver)
    | push sent =>
        have hplus : "+" ++ spec ≠ spec := fun h => by
          have := congrArg String.length h
          simp at this
        rcases (fate_push_cases hfate).1 with rfl | rfl
        · simp [hplus.symm]
        · simp
  · have hpublished := hcarried.announced.mpr ⟨hstore, spec, hgoes⟩
    rw [← not_iff_not, Bool.not_eq_false, hcarried.rolledBack, and_iff_right hpublished]
    simp

end Answers

section Fork

def oidOf (c : Char) (hc : isHexDigit c = true) : Oid :=
  ⟨List.replicate 40 c, List.length_replicate, by simp [hc]⟩

def baseCommit : Oid := oidOf '0' rfl
def ourCommit : Oid := oidOf '1' rfl
def theirCommit : Oid := oidOf '2' rfl

/-- One commit that all others follow. -/
def forkWalk (oid : Oid) : List Oid := if oid = baseCommit then [oid] else [oid, baseCommit]

def forkRepo : Repo where
  findReference ref := if ref = "refs/heads/main" then some ⟨some ourCommit, none⟩ else none
  isCommit _ := true
  isTag _ := false
  revwalk := forkWalk

def mainAt (oid : Oid) : Refs := Finmap.singleton "refs/heads/main" oid.toString

def sortedOrder : IterOrder String where
  list refs := refs.sort (· ≤ ·)
  nodup_list refs := refs.sort_nodup _
  mem_list _ _ := Finset.mem_sort _

def mainRefspec : String := "refs/heads/main:refs/heads/main"

/-- Nostr and one server have the first commit, and a grasp server one that nobody knows. -/
def forkEnv : PushEnv where
  repo := forkRepo
  order := sortedOrder
  gitServers := []
  listOutputs := [⟨"https://one.example/repo.git", mainAt baseCommit, false⟩,
    ⟨"https://two.example/repo.git", mainAt theirCommit, true⟩]
  cachedState := some (mainAt baseCommit)
  login := .ok ()
  isMaintainer := true
  storeState := true
  otherEvents := false
  proposal _ := .ok none
  publish := .ok ()
  relayResults := []
  updateRemoteRefsPushed _ := .ok ()
  isGraspServerCloneUrl _ := false
  relayUrl _ := none
  pushToRemote _ _ := true

theorem runPush_answers_fork : ∃ result, runPush forkEnv [mainRefspec] = .ok result ∧
    Line.ok "refs/heads/main" ∈ result.lines ∧
      ∀ specs, ("https://two.example/repo.git", specs) ∈ result.pushes →
        mainRefspec ∉ specs := by
  have hgoes : GoesOn forkEnv (mainAt baseCommit) [mainRefspec] mainRefspec :=
    ⟨List.mem_singleton_self _, by decide +kernel, by decide +kernel, Or.inl rfl⟩
  have hok : (runPush forkEnv [mainRefspec]).isOk = true := by decide +kernel
  cases hrun : runPush forkEnv [mainRefspec] with
  | error failure =>
      rw [hrun] at hok
      exact absurd hok Bool.false_ne_true
  | ok result =>
      obtain ⟨htold, hservers, -⟩ := @runPush_answers forkEnv [mainRefspec] (mainAt baseCommit)
        result rfl hrun (by decide) mainRefspec "refs/heads/main" hgoes (by decide +kernel)
      refine ⟨result, rfl, htold, (hservers
        ⟨"https://two.example/repo.git", mainAt theirCommit, true⟩ ?_).mpr ?_⟩
      · exact List.mem_cons_of_mem _ (List.mem_singleton_self _)
      · exact Or.inr (Or.inr (by decide +kernel))

end Fork

end Ngit

end Gnostr
