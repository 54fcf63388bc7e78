/-
What a push is to do at each git server: the refspecs that are sent to it as they are or
with force, and those that are rejected because the server holds what nobody here knows.
-/
import Gnostr.Ngit.Repo

namespace Gnostr

namespace Ngit

/-- A `HashMap` of refs to what they point at. -/
abbrev Refs := Finmap fun _ : String => String

/-- `refspec_to_from_to`. -/
def refspecToFromTo (refspec : String) : Except Failure (String × String) :=
  match refspec.toList.splitOn ':' with
  | first :: second :: _ =>
      .ok (String.ofList (if first.head? = some '+' then first.tail else first),
        String.ofList second)
  | _ => .error (.bail s!"refspec should contain a colon (:) but consists of: {refspec}")

def startsWith (refspec : String) (c : Char) : Bool := refspec.toList.head? = some c

/-- `ensure_force_push_refspec`. -/
def ensureForcePushRefspec (refspec : String) : String :=
  if startsWith refspec '+' || startsWith refspec ':' then refspec else "+" ++ refspec

/-- What a refspec comes to at one server. -/
inductive Fate where
  | nothing
  | push (refspec : String)
  | reject
deriving DecidableEq, Repr

/-- A server that only this way leads to is forced. -/
def forceIfGrasp (isGraspServer : Bool) (refspec : String) : Fate :=
  if isGraspServer then .push (ensureForcePushRefspec refspec) else .reject

/-- A tag that the server has otherwise. -/
def replaceTag (isGraspServer : Bool) (refspec : String) : Fate :=
  if !isGraspServer && (startsWith refspec '+' || startsWith refspec ':') then .push refspec
  else forceIfGrasp isGraspServer refspec

/-- The branches on the values of nostr and of the server. -/
def branchFate (repo : Repo) (isGraspServer : Bool) (refspec : String) (fromTip : Oid) :
    Option String → Option String → Except Failure Fate
  | some nostrValue, some remoteValue =>
      if nostrValue = remoteValue then
        let isRemoteTipAncestorOfCommit :=
          match repo.getCommitOrTipOfReference remoteValue with
          | some remoteTip =>
              match repo.getCommitsAheadBehind remoteTip fromTip with
              | .ok (_, behind) => behind.isEmpty
              | .error _ => false
          | none => false
        if isRemoteTipAncestorOfCommit then .ok (.push refspec)
        else .ok (.push (ensureForcePushRefspec refspec))
      else
        match repo.getCommitOrTipOfReference remoteValue with
        | some remoteTip => do
            let (aheadOfLocal, _) ← repo.getCommitsAheadBehind fromTip remoteTip
            if aheadOfLocal.isEmpty then return .push refspec
            else
              match repo.getCommitOrTipOfReference nostrValue with
              | none => .error .git
              | some nostrTip => do
                  let (aheadOfNostr, _) ← repo.getCommitsAheadBehind nostrTip remoteTip
                  -- behind nostr, and the push is forced anyway
                  if aheadOfNostr.isEmpty then return .push refspec
                  else return forceIfGrasp isGraspServer refspec
        | none => .ok (forceIfGrasp isGraspServer refspec)
  | some _, none => .ok (.push refspec)
  | none, some remoteValue =>
      match repo.getCommitOrTipOfReference remoteValue with
      | some remoteTip => do
          let (ahead, _) ← repo.getCommitsAheadBehind fromTip remoteTip
          if ahead.isEmpty then return .push refspec
          else return forceIfGrasp isGraspServer refspec
      | none => .ok (forceIfGrasp isGraspServer refspec)
  | none, none => .ok (.push refspec)

/-- The turn of a refspec that names its source and its destination. -/
def fateFromTo (repo : Repo) (nostrState remoteState : Refs) (isGraspServer : Bool)
    (refspec src dst : String) : Except Failure Fate :=
  let nostrValue := nostrState.lookup dst
  let remoteValue := remoteState.lookup dst
  if src = "" then
    .ok (if remoteValue.isSome then .push refspec else .nothing)
  else
    match repo.findReference src with
    | none => .error (.bail s!"cannot find ref {src}")
    | some ⟨_, some annotatedTag⟩ =>
        match remoteValue with
        | some remoteValue =>
            .ok (if annotatedTag.toString = remoteValue then .nothing
              else replaceTag isGraspServer refspec)
        | none => .ok (.push refspec)
    | some ⟨_, none⟩ =>
        -- the whole refspec is read as an object id
        if remoteValue.isSome && (Oid.fromStr refspec).any repo.isTag then
          .ok (replaceTag isGraspServer refspec)
        else
          match repo.getCommitOrTipOfReference src with
          | none => .error .git
          | some fromTip => branchFate repo isGraspServer refspec fromTip nostrValue remoteValue

/-- The turn of one refspec in the loop over the refspecs of a server. -/
def fate (repo : Repo) (nostrState remoteState : Refs) (isGraspServer : Bool)
    (refspec : String) : Except Failure Fate := do
  let (src, dst) ← refspecToFromTo refspec
  fateFromTo repo nostrState remoteState isGraspServer refspec src dst

/-- A server that answered with its refs. -/
structure Listed where
  url : String
  remoteState : Refs
  isGraspServer : Bool

/-- The servers that reject a refspec. -/
abbrev Rejected := Finmap fun _ : String => List String

/-- `entry(refspec).and_modify(push).or_insert(vec![url])`. -/
def Rejected.add (rejected : Rejected) (refspec url : String) : Rejected :=
  rejected.insert refspec ((rejected.lookup refspec).getD [] ++ [url])

/-- The loop over the refspecs, with what is rejected and what is sent to this server. -/
def refspecsForRemote (repo : Repo) (nostrState : Refs) (server : Listed) :
    List String → Rejected × List String → Except Failure (Rejected × List String)
  | [], state => .ok state
  | refspec :: rest, (rejected, forRemote) => do
      match ← fate repo nostrState server.remoteState server.isGraspServer refspec with
      | .nothing => refspecsForRemote repo nostrState server rest (rejected, forRemote)
      | .push spec =>
          refspecsForRemote repo nostrState server rest (rejected, forRemote ++ [spec])
      | .reject =>
          refspecsForRemote repo nostrState server rest
            (rejected.add refspec server.url, forRemote)

/-- The loop over the servers, in the order in which the map of them is iterated. -/
def refspecsForRemotes (repo : Repo) (nostrState : Refs) (refspecs : List String) :
    List Listed → Rejected × List (String × List String) →
      Except Failure (Rejected × List (String × List String))
  | [], state => .ok state
  | server :: rest, (rejected, forRemotes) => do
      let (rejected, forRemote) ←
        refspecsForRemote repo nostrState server refspecs (rejected, [])
      refspecsForRemotes repo nostrState refspecs rest
        (rejected, if forRemote.isEmpty then forRemotes
          else forRemotes ++ [(server.url, forRemote)])

/-- `create_rejected_refspecs_and_remotes_refspecs`. -/
def createRejectedRefspecsAndRemotesRefspecs (repo : Repo) (refspecs : List String)
    (nostrState : Refs) (listOutputs : List Listed) :
    Except Failure (Rejected × List (String × List String)) := do
  let (rejected, forRemotes) ←
    refspecsForRemotes repo nostrState refspecs listOutputs (∅, [])
  return (rejected, forRemotes.map fun (url, specs) =>
    (url, specs.filter fun refspec => refspec ∉ rejected))

section Fate

variable {repo : Repo} {nostrState remoteState : Refs} {isGraspServer : Bool}

theorem ensureForcePushRefspec_of_forced {forced : String}
    (hforced : startsWith forced '+' = true) : ensureForcePushRefspec forced = forced := by
  rw [ensureForcePushRefspec, hforced, Bool.true_or, if_pos rfl]

/-- A result is about the refspec: what is pushed is the refspec or its forced form, and
pushed is the refspec that is forced from the start, too. -/
def AboutRefspec (result : String → Except Failure Fate) (refspec : String) : Prop :=
  ∀ spec, result refspec = .ok (.push spec) →
    (spec = refspec ∨ spec = ensureForcePushRefspec refspec) ∧
      ∀ forced, startsWith forced '+' = true → result forced = .ok (.push forced)

theorem aboutRefspec_push (refspec : String) :
    AboutRefspec (fun refspec => .ok (.push refspec)) refspec := by
  intro spec hspec
  cases hspec
  exact ⟨Or.inl rfl, fun _ _ => rfl⟩

theorem aboutRefspec_ensureForce (refspec : String) :
    AboutRefspec (fun refspec => .ok (.push (ensureForcePushRefspec refspec))) refspec := by
  intro spec hspec
  cases hspec
  refine ⟨Or.inr rfl, fun forced hforced => ?_⟩
  simp only [ensureForcePushRefspec_of_forced hforced]

theorem aboutRefspec_forceIfGrasp (refspec : String) :
    AboutRefspec (fun refspec => .ok (forceIfGrasp isGraspServer refspec)) refspec := by
  cases isGraspServer with
  | true => exact aboutRefspec_ensureForce refspec
  | false => exact fun spec hspec => absurd hspec nofun

theorem aboutRefspec_replaceTag (refspec : String) :
    AboutRefspec (fun refspec => .ok (replaceTag isGraspServer refspec)) refspec := by
  cases isGraspServer with
  | true => exact aboutRefspec_ensureForce refspec
  | false =>
      intro spec hspec
      refine ⟨?_, fun forced hforced => by simp [replaceTag, hforced]⟩
      simp only [replaceTag, forceIfGrasp] at hspec
      split at hspec
      · cases hspec
        exact Or.inl rfl
      · exact absurd hspec nofun

theorem aboutRefspec_error (failure : Failure) (refspec : String) :
    AboutRefspec (fun _ => .error failure) refspec :=
  fun _ hspec => absurd hspec nofun

theorem AboutRefspec.ite {c : Prop} [Decidable c] {first second : String → Except Failure Fate}
    {refspec : String} (hfirst : AboutRefspec first refspec)
    (hsecond : AboutRefspec second refspec) :
    AboutRefspec (fun refspec => if c then first refspec else second refspec) refspec := by
  by_cases hc : c
  · simpa only [if_pos hc] using hfirst
  · simpa only [if_neg hc] using hsecond

theorem AboutRefspec.bind {α : Type} (x : Except Failure α)
    {next : α → String → Except Failure Fate} {refspec : String}
    (hnext : ∀ value, AboutRefspec (next value) refspec) :
    AboutRefspec (fun refspec => x >>= fun value => next value refspec) refspec := by
  cases x with
  | error failure => exact aboutRefspec_error failure refspec
  | ok value => exact hnext value

theorem aboutRefspec_branchFate (fromTip : Oid) (nostrValue remoteValue : Option String)
    (refspec : String) :
    AboutRefspec (fun refspec =>
      branchFate repo isGraspServer refspec fromTip nostrValue remoteValue) refspec := by
  cases nostrValue with
  | none =>
      cases remoteValue with
      | none => exact aboutRefspec_push refspec
      | some remoteValue =>
          simp only [branchFate]
          cases repo.getCommitOrTipOfReference remoteValue with
          | none => exact aboutRefspec_forceIfGrasp refspec
          | some remoteTip =>
              refine .bind _ fun lists => ?_
              exact .ite (aboutRefspec_push refspec) (aboutRefspec_forceIfGrasp refspec)
  | some nostrValue =>
      cases remoteValue with
      | none => exact aboutRefspec_push refspec
      | some remoteValue =>
          simp only [branchFate]
          refine .ite ?_ ?_
          · exact .ite (aboutRefspec_push refspec) (aboutRefspec_ensureForce refspec)
          · cases repo.getCommitOrTipOfReference remoteValue with
            | none => exact aboutRefspec_forceIfGrasp refspec
            | some remoteTip =>
                refine .bind _ fun lists => .ite (aboutRefspec_push refspec) ?_
                cases repo.getCommitOrTipOfReference nostrValue with
                | none => exact aboutRefspec_error .git refspec
                | some nostrTip =>
                    refine .bind _ fun lists => ?_
                    exact .ite (aboutRefspec_push refspec) (aboutRefspec_forceIfGrasp refspec)

/-- No refspec is an object id. -/
theorem fromStr_eq_none {refspec : String} {c : Char} (hc : c ∈ refspec.toList)
    (hdigit : isHexDigit c.toLower = false) : Oid.fromStr refspec = none := by
  rw [Oid.fromStr]
  refine dif_neg fun h => ?_
  have := List.all_eq_true.mp h.2.2 c.toLower (List.mem_map_of_mem hc)
  rw [hdigit] at this
  exact Bool.false_ne_true this

theorem colon_mem {refspec src dst : String}
    (hparse : refspecToFromTo refspec = .ok (src, dst)) : ':' ∈ refspec.toList := by
  by_contra hcolon
  rw [refspecToFromTo, List.splitOn_eq_singleton hcolon] at hparse
  exact absurd hparse nofun

theorem fromStr_of_forced {forced : String} (hforced : startsWith forced '+' = true) :
    Oid.fromStr forced = none :=
  fromStr_eq_none (List.mem_of_mem_head? (of_decide_eq_true hforced)) rfl

theorem aboutRefspec_fateFromTo {refspec src dst : String}
    (hrefspec : Oid.fromStr refspec = none) :
    AboutRefspec (fun refspec =>
      fateFromTo repo nostrState remoteState isGraspServer refspec src dst) refspec := by
  by_cases hsrc : src = ""
  · simp only [fateFromTo, if_pos hsrc]
    cases (remoteState.lookup dst).isSome with
    | true => exact aboutRefspec_push refspec
    | false => exact fun spec hspec => absurd hspec nofun
  · cases hreference : repo.findReference src with
    | none =>
        simp only [fateFromTo, if_neg hsrc, hreference]
        exact aboutRefspec_error _ refspec
    | some reference =>
        obtain ⟨commit, tag⟩ := reference
        cases tag with
        | some annotatedTag =>
            simp only [fateFromTo, if_neg hsrc, hreference]
            cases remoteState.lookup dst with
            | none => exact aboutRefspec_push refspec
            | some remoteValue =>
                by_cases hsame : annotatedTag.toString = remoteValue
                · simp only [if_pos hsame]
                  exact fun spec hspec => absurd hspec nofun
                · simp only [if_neg hsame]
                  exact aboutRefspec_replaceTag refspec
        | none =>
            have hlive : ∀ other, Oid.fromStr other = none →
                fateFromTo repo nostrState remoteState isGraspServer other src dst =
                  match repo.getCommitOrTipOfReference src with
                  | none => .error .git
                  | some fromTip => branchFate repo isGraspServer other fromTip
                      (nostrState.lookup dst) (remoteState.lookup dst) := fun other hother => by
              simp only [fateFromTo, if_neg hsrc, hreference, hother, Option.any_none,
                Bool.and_false, Bool.false_eq_true, if_false]
            intro spec hspec
            simp only [hlive refspec hrefspec] at hspec
            cases htip : repo.getCommitOrTipOfReference src with
            | none =>
                rw [htip] at hspec
                exact absurd hspec nofun
            | some fromTip =>
                rw [htip] at hspec
                obtain ⟨hshape, hforced⟩ := aboutRefspec_branchFate fromTip _ _ refspec spec hspec
                refine ⟨hshape, fun forced hstart => ?_⟩
                simp only [hlive forced (fromStr_of_forced hstart), htip]
                exact hforced forced hstart

/-- The sign of force is no part of the source. -/
theorem refspecToFromTo_force {refspec src dst : String}
    (hstart : ¬ startsWith refspec '+' = true)
    (hparse : refspecToFromTo refspec = .ok (src, dst)) :
    refspecToFromTo ("+" ++ refspec) = .ok (src, dst) := by
  have hlist : ("+" ++ refspec).toList = '+' :: refspec.toList := by simp
  rw [refspecToFromTo] at hparse ⊢
  rw [hlist, List.splitOn_cons_eq_if_modifyHead, if_neg (by decide)]
  split at hparse
  · rename_i first second rest hsplit
    have hfirst : first.head? ≠ some '+' := by
      intro hhead
      apply hstart
      have hjoin := @List.intercalate_splitOn _ refspec.toList _ _ ':'
      rw [hsplit, List.intercalate_cons_cons] at hjoin
      rw [startsWith, ← hjoin, List.append_assoc, List.head?_append, hhead]
      rfl
    rw [hsplit]
    simpa [hfirst] using hparse
  · exact absurd hparse nofun

/-- What is pushed to a server is the refspec itself, or its forced form, and the forced
form would be pushed all the same. -/
theorem fate_push_cases {refspec spec : String}
    (hfate : fate repo nostrState remoteState isGraspServer refspec = .ok (.push spec)) :
    (spec = refspec ∨ spec = "+" ++ refspec) ∧
      fate repo nostrState remoteState isGraspServer spec = .ok (.push spec) := by
  have hwhole := hfate
  rw [fate] at hfate
  cases hparse : refspecToFromTo refspec with
  | error failure =>
      rw [hparse] at hfate
      exact absurd hfate nofun
  | ok ends =>
      obtain ⟨src, dst⟩ := ends
      rw [hparse] at hfate
      obtain ⟨hshape, hforced⟩ :=
        aboutRefspec_fateFromTo (fromStr_eq_none (colon_mem hparse) rfl) spec hfate
      by_cases hgiven : startsWith refspec '+' || startsWith refspec ':'
      · have hsame : spec = refspec := by
          rcases hshape with rfl | rfl
          · rfl
          · rw [ensureForcePushRefspec, if_pos hgiven]
        subst hsame
        exact ⟨Or.inl rfl, hwhole⟩
      · rw [ensureForcePushRefspec, if_neg hgiven] at hshape
        refine ⟨hshape, ?_⟩
        rcases hshape with rfl | rfl
        · exact hwhole
        · have hstart : ¬ startsWith refspec '+' = true := fun h => hgiven (by simp [h])
          rw [fate, refspecToFromTo_force hstart hparse]
          exact hforced _ (by simp [startsWith])

end Fate

section Plan

variable {repo : Repo} {nostrState : Refs} {refspecs : List String}

/-- What one server is to get of the refspecs. -/
def sentTo (repo : Repo) (nostrState : Refs) (refspecs : List String) (server : Listed) :
    List String :=
  refspecs.filterMap fun refspec =>
    match fate repo nostrState server.remoteState server.isGraspServer refspec with
    | .ok (.push spec) => some spec
    | _ => none

/-- A server rejects the refspec. -/
def Rejects (repo : Repo) (nostrState : Refs) (server : Listed) (refspec : String) : Prop :=
  fate repo nostrState server.remoteState server.isGraspServer refspec = .ok .reject

instance (repo : Repo) (nostrState : Refs) (server : Listed) (refspec : String) :
    Decidable (Rejects repo nostrState server refspec) :=
  inferInstanceAs (Decidable (_ = _))

theorem Rejected.mem_add {rejected : Rejected} {refspec other url : String} :
    other ∈ rejected.add refspec url ↔ other = refspec ∨ other ∈ rejected :=
  Finmap.mem_insert

theorem mem_cons_rejects_iff {server : Listed} {first : String} {rest : List String}
    (hfirst : ¬ Rejects repo nostrState server first) {refspec : String} :
    refspec ∈ first :: rest ∧ Rejects repo nostrState server refspec ↔
      refspec ∈ rest ∧ Rejects repo nostrState server refspec := by
  rw [List.mem_cons]
  constructor
  · rintro ⟨rfl | hmem, hrejects⟩
    · exact absurd hrejects hfirst
    · exact ⟨hmem, hrejects⟩
  · exact fun h => ⟨Or.inr h.1, h.2⟩

/-- The turn of one server: what it rejects joins what is rejected. -/
theorem refspecsForRemote_eq_ok {server : Listed} {rejected rejected' : Rejected}
    {forRemote forRemote' : List String}
    (hrun : refspecsForRemote repo nostrState server refspecs (rejected, forRemote) =
      .ok (rejected', forRemote')) :
    forRemote' = forRemote ++ sentTo repo nostrState refspecs server ∧
      ∀ refspec, refspec ∈ rejected' ↔
        refspec ∈ rejected ∨ refspec ∈ refspecs ∧ Rejects repo nostrState server refspec := by
  induction refspecs generalizing rejected forRemote with
  | nil =>
      cases hrun
      simp [sentTo]
  | cons first rest ih =>
      rw [refspecsForRemote] at hrun
      cases hfate : fate repo nostrState server.remoteState server.isGraspServer first with
      | error failure =>
          rw [hfate] at hrun
          exact absurd hrun nofun
      | ok result =>
          rw [hfate] at hrun
          cases result with
          | nothing =>
              obtain ⟨hsent, hmem⟩ := ih hrun
              have hnot : ¬ Rejects repo nostrState server first := fun h =>
                absurd (hfate.symm.trans h) nofun
              refine ⟨?_, fun refspec => ?_⟩
              · rw [hsent, sentTo, sentTo, List.filterMap_cons_none (by rw [hfate])]
              · rw [hmem, mem_cons_rejects_iff hnot]
          | push spec =>
              obtain ⟨hsent, hmem⟩ := ih hrun
              have hnot : ¬ Rejects repo nostrState server first := fun h =>
                absurd (hfate.symm.trans h) nofun
              refine ⟨?_, fun refspec => ?_⟩
              · rw [hsent, sentTo, sentTo, List.filterMap_cons_some (by rw [hfate]),
                  List.append_assoc, List.singleton_append]
              · rw [hmem, mem_cons_rejects_iff hnot]
          | reject =>
              obtain ⟨hsent, hmem⟩ := ih hrun
              refine ⟨?_, fun refspec => ?_⟩
              · rw [hsent, sentTo, sentTo, List.filterMap_cons_none (by rw [hfate])]
              · rw [hmem, Rejected.mem_add, List.mem_cons]
                constructor
                · rintro ((rfl | hold) | ⟨hrest, hrejects⟩)
                  · exact Or.inr ⟨Or.inl rfl, hfate⟩
                  · exact Or.inl hold
                  · exact Or.inr ⟨Or.inr hrest, hrejects⟩
                · rintro (hold | ⟨rfl | hrest, hrejects⟩)
                  · exact Or.inl (Or.inr hold)
                  · exact Or.inl (Or.inl rfl)
                  · exact Or.inr ⟨hrest, hrejects⟩

/-- The turns of all servers: a server is sent what it is to get, unless that is nothing. -/
theorem refspecsForRemotes_eq_ok {servers : List Listed} {rejected rejected' : Rejected}
    {forRemotes forRemotes' : List (String × List String)}
    (hrun : refspecsForRemotes repo nostrState refspecs servers (rejected, forRemotes) =
      .ok (rejected', forRemotes')) :
    forRemotes' = forRemotes ++ servers.filterMap (fun server =>
        if (sentTo repo nostrState refspecs server).isEmpty then none
        else some (server.url, sentTo repo nostrState refspecs server)) ∧
      ∀ refspec, refspec ∈ rejected' ↔ refspec ∈ rejected ∨
        refspec ∈ refspecs ∧ ∃ server ∈ servers, Rejects repo nostrState server refspec := by
  induction servers generalizing rejected forRemotes with
  | nil =>
      cases hrun
      simp
  | cons server servers ih =>
      rw [refspecsForRemotes] at hrun
      cases hturn : refspecsForRemote repo nostrState server refspecs (rejected, []) with
      | error failure =>
          rw [hturn] at hrun
          exact absurd hrun nofun
      | ok turn =>
          obtain ⟨rejectedNext, forRemote⟩ := turn
          rw [hturn] at hrun
          obtain ⟨hforRemotes, hrejected⟩ := ih hrun
          obtain ⟨hforRemote, hnext⟩ := refspecsForRemote_eq_ok hturn
          rw [List.nil_append] at hforRemote
          subst hforRemote
          refine ⟨?_, fun refspec => ?_⟩
          · rw [hforRemotes]
            by_cases hempty : (sentTo repo nostrState refspecs server).isEmpty = true
            · rw [if_pos hempty, List.filterMap_cons_none (by rw [if_pos hempty])]
            · rw [if_neg hempty, List.filterMap_cons_some (by rw [if_neg hempty]),
                List.append_assoc, List.singleton_append]
          · simp only [hrejected, hnext, List.mem_cons, exists_eq_or_imp, or_assoc, and_or_left]

theorem exists_fate_of_server {server : Listed} {state result : Rejected × List String}
    (hrun : refspecsForRemote repo nostrState server refspecs state = .ok result)
    {refspec : String} (hmem : refspec ∈ refspecs) :
    ∃ fated, fate repo nostrState server.remoteState server.isGraspServer refspec =
      .ok fated := by
  induction refspecs generalizing state with
  | nil => exact absurd hmem List.not_mem_nil
  | cons first rest ih =>
      obtain ⟨rejected, forRemote⟩ := state
      obtain ⟨fated, hfate, hrun⟩ := bind_eq_ok_iff.mp hrun
      rcases List.mem_cons.mp hmem with rfl | hmem
      · exact ⟨fated, hfate⟩
      · cases fated with
        | nothing => exact ih hrun hmem
        | push spec => exact ih hrun hmem
        | reject => exact ih hrun hmem

/-- The plan is made only when every server has its turn with every refspec. -/
theorem exists_fate {servers : List Listed}
    {state result : Rejected × List (String × List String)}
    (hrun : refspecsForRemotes repo nostrState refspecs servers state = .ok result)
    {server : Listed} (hserver : server ∈ servers) {refspec : String}
    (hmem : refspec ∈ refspecs) :
    ∃ fated, fate repo nostrState server.remoteState server.isGraspServer refspec =
      .ok fated := by
  induction servers generalizing state with
  | nil => exact absurd hserver List.not_mem_nil
  | cons first servers ih =>
      obtain ⟨rejected, forRemotes⟩ := state
      obtain ⟨⟨rejectedNext, forRemote⟩, hturn, hrun⟩ := bind_eq_ok_iff.mp hrun
      rcases List.mem_cons.mp hserver with rfl | hserver
      · exact exists_fate_of_server hturn hmem
      · exact ih hrun hserver

/-- What is rejected and what is sent to the servers. -/
theorem createRejectedRefspecsAndRemotesRefspecs_eq_ok {servers : List Listed}
    {rejected : Rejected} {forRemotes : List (String × List String)}
    (hrun : createRejectedRefspecsAndRemotesRefspecs repo refspecs nostrState servers =
      .ok (rejected, forRemotes)) :
    (∀ url spec, (∃ specs, (url, specs) ∈ forRemotes ∧ spec ∈ specs) ↔
      spec ∉ rejected ∧ ∃ server ∈ servers, server.url = url ∧
        spec ∈ sentTo repo nostrState refspecs server) ∧
      ∀ refspec, refspec ∈ rejected ↔
        refspec ∈ refspecs ∧ ∃ server ∈ servers, Rejects repo nostrState server refspec := by
  rw [createRejectedRefspecsAndRemotesRefspecs] at hrun
  cases hloop : refspecsForRemotes repo nostrState refspecs servers (∅, []) with
  | error failure =>
      rw [hloop] at hrun
      exact absurd hrun nofun
  | ok result =>
      obtain ⟨rejectedAll, sent⟩ := result
      rw [hloop] at hrun
      cases hrun
      obtain ⟨hsent, hrejected⟩ := refspecsForRemotes_eq_ok hloop
      rw [List.nil_append] at hsent
      subst hsent
      refine ⟨fun url spec => ?_, fun refspec => ?_⟩
      · constructor
        · rintro ⟨specs, hmem, hspec⟩
          obtain ⟨⟨url', all⟩, hall, heq⟩ := List.mem_map.mp hmem
          obtain ⟨server, hserver, hif⟩ := List.mem_filterMap.mp hall
          split at hif
          · exact absurd hif nofun
          · simp only [Option.some_inj, Prod.mk.injEq] at hif heq
            obtain ⟨rfl, rfl⟩ := hif
            obtain ⟨rfl, rfl⟩ := heq
            obtain ⟨hin, hnot⟩ := List.mem_filter.mp hspec
            exact ⟨by simpa using hnot, server, hserver, rfl, hin⟩
        · rintro ⟨hnot, server, hserver, rfl, hin⟩
          have hne : ¬ (sentTo repo nostrState refspecs server).isEmpty = true := fun hempty =>
            List.ne_nil_of_mem hin (List.isEmpty_iff.mp hempty)
          refine ⟨_, List.mem_map.mpr ⟨(server.url, sentTo repo nostrState refspecs server),
            List.mem_filterMap.mpr ⟨server, hserver, if_neg hne⟩, rfl⟩, ?_⟩
          exact List.mem_filter.mpr ⟨hin, by simpa using hnot⟩
      · rw [hrejected, or_iff_right Finmap.notMem_empty]

end Plan

end Ngit

end Gnostr
