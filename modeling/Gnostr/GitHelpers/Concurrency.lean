/-
Two pushes at one time.  A push reads the manifest, uploads its bundle and writes the new
manifest, and nothing keeps another push from writing in between: what that one wrote is
lost.  Only what was written before the last writer read is kept.
-/
import Gnostr.GitHelpers.BlossomStore
import Gnostr.GitHelpers.MfsNode

namespace Gnostr

namespace GitHelpers

open Gnostr.Types

variable {σ : Type} {backend : Backend σ}

/-- How far a call of `push` has come. -/
inductive PushPhase where
  | start
  | read (prev : Option RefsManifest)
  | uploaded (prev : Option RefsManifest) (bundleSha256 : Option String)
  | written (prev : Option RefsManifest) (bundleSha256 : Option String)
      (results : List PushResult)

def PushPhase.isWritten : PushPhase → Bool
  | .written _ _ _ => true
  | _ => false

/-- The name of the bundle that was uploaded, if there was one. -/
def PushPhase.bundleSha256 : PushPhase → Option String
  | .uploaded _ bundleSha256 => bundleSha256
  | .written _ bundleSha256 _ => bundleSha256
  | _ => none

/-- A successful step of a call of `push`. -/
inductive PushStep (backend : Backend σ) (call : PushCall) :
    PushPhase → σ → PushPhase → σ → Prop
  | read {s t : σ} {prev : Option RefsManifest} :
      backend.fetchManifest s = (.ok prev, t) →
      PushStep backend call .start s (.read prev) t
  | upload {s t : σ} {prev : Option RefsManifest} {bundleSha256 : Option String} :
      backend.uploadBundle call.client prev call.specs s = (.ok bundleSha256, t) →
      PushStep backend call (.read prev) s (.uploaded prev bundleSha256) t
  | write {s t : σ} {prev : Option RefsManifest} {bundleSha256 : Option String}
      {results : List PushResult} :
      backend.writeManifest call.client prev bundleSha256 call.specs s = (.ok results, t) →
      PushStep backend call (.uploaded prev bundleSha256) s
        (.written prev bundleSha256 results) t

/-- The three steps are the whole call. -/
theorem push_eq_ok_iff_steps {call : PushCall} {results : List PushResult} {s t : σ} :
    backend.push call.client call.specs s = (.ok results, t) ↔
      ∃ prev bundleSha256 read uploaded,
        PushStep backend call .start s (.read prev) read ∧
        PushStep backend call (.read prev) read (.uploaded prev bundleSha256) uploaded ∧
        PushStep backend call (.uploaded prev bundleSha256) uploaded
          (.written prev bundleSha256 results) t := by
  unfold Backend.push
  simp only [Session.bind_eq_ok_iff]
  constructor
  · rintro ⟨prev, read, hread, bundleSha256, uploaded, hupload, hwrite⟩
    exact ⟨prev, bundleSha256, read, uploaded, .read hread, .upload hupload, .write hwrite⟩
  · rintro ⟨prev, bundleSha256, read, uploaded, hread, hupload, hwrite⟩
    cases hread with | read hread => ?_
    cases hupload with | upload hupload => ?_
    cases hwrite with | write hwrite => ?_
    exact ⟨prev, read, hread, bundleSha256, uploaded, hupload, hwrite⟩

/-- The store and the two calls. -/
structure TwoPushes (σ : Type) where
  store : σ
  phases : Bool → PushPhase

/-- A manifest with the ref updates and the bundle of a push; the refs of some names may
have been set since. -/
structure Includes (manifest : RefsManifest) (call : PushCall)
    (bundleSha256 : Option String) (since : String → Prop) : Prop where
  refs : ∀ name spec, ¬ since name → call.client.lastEffect call.specs name = some spec →
    manifest.refs.lookup name = call.client.newValue spec
  bundle : ∀ sha256 ∈ bundleSha256, sha256 ∈ manifest.bundles

theorem includes_nextManifest (call : PushCall) (repo : String)
    (prev : Option RefsManifest) (bundleSha256 : Option String) :
    Includes (call.client.nextManifest repo prev bundleSha256 call.specs) call bundleSha256
      fun _ => False where
  refs name spec _ heffect := by
    show (call.client.newRefs _ _).lookup name = _
    rw [call.client.lookup_newRefs, heffect]
    rfl
  bundle sha256 hsha256 := List.mem_append_right _ (Option.mem_toList.mpr hsha256)

/-- The next push sets its own refs only. -/
theorem Includes.nextManifest {manifest : RefsManifest} {call : PushCall}
    {bundleSha256 : Option String} (hincludes : Includes manifest call bundleSha256
      fun _ => False) (next : PushCall) (repo : String) (nextSha256 : Option String) :
    Includes (next.client.nextManifest repo (some manifest) nextSha256 next.specs) call
      bundleSha256 fun name => (next.client.lastEffect next.specs name).isSome = true where
  refs name spec hsince heffect := by
    have hnone : next.client.lastEffect next.specs name = none := by
      simpa using hsince
    show (next.client.newRefs _ _).lookup name = _
    rw [next.client.lookup_newRefs, hnone]
    exact hincludes.refs name spec not_false heffect
  bundle sha256 hsha256 := List.mem_append_left _ (hincludes.bundle sha256 hsha256)

/-- What is left of two pushes whose last step was made by one of them: its own updates and
bundle, and those of the other one if that was through before its first step. -/
structure Kept (calls : Bool → PushCall) (rest : List Bool) (who : Bool)
    (phases : Bool → PushPhase) (manifest : RefsManifest) : Prop where
  last : Includes manifest (calls who) (phases who).bundleSha256 fun _ => False
  other : (∃ before after, rest = before ++ after ∧ who ∉ before ∧ (!who) ∉ after) →
    Includes manifest (calls !who) (phases !who).bundleSha256 fun name =>
      ((calls who).client.lastEffect (calls who).specs name).isSome = true

namespace FreshStore

variable (store : FreshStore backend) (calls : Bool → PushCall)

/-- One of the calls makes a step, after the store may have drifted; manifests are written
freshly. -/
structure Interleaved (s : TwoPushes σ) (who : Bool) (t : TwoPushes σ) : Prop where
  exists_step : ∃ drifted phase, store.Drift s.store drifted ∧
    PushStep backend (calls who) (s.phases who) drifted phase t.store ∧
    t.phases = Function.update s.phases who phase ∧
    ∀ prev bundleSha256, s.phases who = .uploaded prev bundleSha256 →
      store.Fresh drifted (calls who).client.jsonOrder
        ((calls who).client.nextManifest backend.repo prev bundleSha256 (calls who).specs)

variable {store calls}

theorem Interleaved.phases_of_ne {s t : TwoPushes σ} {who other : Bool}
    (hstep : store.Interleaved calls s who t) (hother : other ≠ who) :
    t.phases other = s.phases other := by
  obtain ⟨_, phase, _, _, hphases, _⟩ := hstep.exists_step
  rw [hphases, Function.update_of_ne hother]

theorem saveManifest_of_writeManifest {client : Client} {prev : Option RefsManifest}
    {bundleSha256 : Option String} {specs : List PushSpec} {results : List PushResult}
    {s t : σ}
    (hwrite : backend.writeManifest client prev bundleSha256 specs s = (.ok results, t)) :
    backend.saveManifest client.jsonOrder
      (client.nextManifest backend.repo prev bundleSha256 specs) s = (.ok (), t) := by
  obtain ⟨_, _, hsave, hpure⟩ := Session.bind_eq_ok_iff.mp hwrite
  cases hpure
  exact hsave

/-- Once a call has read the manifest the store is ready. -/
def ReadyOnceRead (store : FreshStore backend) (s : TwoPushes σ) : Prop :=
  ∀ who, s.phases who ≠ .start → store.Ready s.store

theorem Interleaved.ready {s t : TwoPushes σ} {who : Bool}
    (hstep : store.Interleaved calls s who t) (hready : ReadyOnceRead store s) :
    store.Ready t.store := by
  obtain ⟨drifted, phase, hdrift, hpush, _, _⟩ := hstep.exists_step
  generalize hbefore : s.phases who = before at hpush
  cases hpush with
  | read hread =>
      have hsame := store.fetchManifest_eq (congrArg Prod.fst hread)
      rw [hread] at hsame
      have hstore : t.store = drifted := congrArg Prod.snd hsame
      rw [hstore]
      exact store.ready_of_fetchManifest (congrArg Prod.fst hread)
  | @upload _ _ prev _ hupload =>
      have hdrifted := store.ready_of_drift hdrift (hready who (by simp [hbefore]))
      have hafter :=
        store.ready_uploadBundle (calls who).client prev (calls who).specs hdrifted
      rwa [hupload] at hafter
  | @write _ _ prev bundleSha256 _ hwrite =>
      have hdrifted := store.ready_of_drift hdrift (hready who (by simp [hbefore]))
      have hrepo : ((calls who).client.nextManifest backend.repo prev bundleSha256
        (calls who).specs).repo = backend.repo := rfl
      have hafter :=
        store.ready_saveManifest (calls who).client.jsonOrder hrepo hdrifted
      rwa [saveManifest_of_writeManifest hwrite] at hafter

/-- The manifest that is written is found. -/
theorem Interleaved.found {s t : TwoPushes σ} {who : Bool} {prev : Option RefsManifest}
    {bundleSha256 : Option String} {results : List PushResult}
    (hstep : store.Interleaved calls s who t) (hready : ReadyOnceRead store s)
    (hwritten : t.phases who = .written prev bundleSha256 results) :
    store.Found t.store ((calls who).client.nextManifest backend.repo prev bundleSha256
      (calls who).specs) := by
  obtain ⟨drifted, phase, hdrift, hpush, hphases, hfresh⟩ := hstep.exists_step
  rw [hphases, Function.update_self] at hwritten
  subst hwritten
  generalize hbefore : s.phases who = before at hpush hfresh
  cases hpush with
  | write hwrite =>
      have hdrifted := store.ready_of_drift hdrift (hready who (by simp [hbefore]))
      exact store.found_saveManifest rfl hdrifted (hfresh _ _ rfl)
        (saveManifest_of_writeManifest hwrite)

section Run

/-- Both calls before their first step. -/
def twoPushes (start : σ) : TwoPushes σ := ⟨start, fun _ => .start⟩

theorem readyOnceRead_of_steps {start : σ} {schedule : List Bool} {s : TwoPushes σ}
    (hrun : Steps (store.Interleaved calls) (twoPushes start) schedule s) :
    ReadyOnceRead store s :=
  hrun.invariant (P := fun _ s => ReadyOnceRead store s)
    (fun _ hstart => absurd rfl hstart)
    fun _ _ _ _ hready hstep _ _ => hstep.ready hready

/-- A call that makes no step stays where it is. -/
theorem phases_of_notMem {start s : TwoPushes σ} {schedule : List Bool} {other : Bool}
    (hrun : Steps (store.Interleaved calls) start schedule s) (hother : other ∉ schedule) :
    s.phases other = start.phases other := by
  refine hrun.invariant (P := fun schedule s => other ∉ schedule →
    s.phases other = start.phases other) (fun _ => rfl) ?_ hother
  intro schedule who s t hinv hstep hmem
  rw [List.mem_append, List.mem_singleton, not_or] at hmem
  rw [hstep.phases_of_ne hmem.2, hinv hmem.1]

/-- Whoever makes the last step of a run and is done then is found. -/
theorem found_of_lastStep {start : σ} {schedule : List Bool} {who : Bool}
    {s : TwoPushes σ} {prev : Option RefsManifest} {bundleSha256 : Option String}
    {results : List PushResult}
    (hrun : Steps (store.Interleaved calls) (twoPushes start) (schedule ++ [who]) s)
    (hwritten : s.phases who = .written prev bundleSha256 results) :
    store.Found s.store ((calls who).client.nextManifest backend.repo prev bundleSha256
      (calls who).specs) := by
  obtain ⟨middle, hmiddle, hstep⟩ := Steps.snoc_iff.mp hrun
  exact hstep.found (readyOnceRead_of_steps hmiddle) hwritten

/-- A call that is yet to read finds a manifest, or it has read that manifest. -/
def Follows (store : FreshStore backend) (manifest : RefsManifest) (s : σ) :
    PushPhase → Prop
  | .start => store.Found s manifest
  | .read prev => prev = some manifest
  | .uploaded prev _ => prev = some manifest
  | .written prev _ _ => prev = some manifest

theorem Interleaved.follows {s t : TwoPushes σ} {who : Bool} {manifest : RefsManifest}
    (hstep : store.Interleaved calls s who t)
    (hfollows : Follows store manifest s.store (s.phases who)) :
    Follows store manifest t.store (t.phases who) := by
  obtain ⟨drifted, phase, hdrift, hpush, hphases, _⟩ := hstep.exists_step
  rw [hphases, Function.update_self]
  generalize s.phases who = before at hpush hfollows
  cases hpush with
  | read hread =>
      have hfound := store.fetchManifest_of_found (store.found_of_drift hdrift hfollows)
      rw [hread] at hfound
      exact Outcome.ok.inj (congrArg Prod.fst hfound)
  | upload _ => exact hfollows
  | write _ => exact hfollows

/-- A call that runs alone from a store where a manifest is found builds on it. -/
theorem follows_of_steps {s t : TwoPushes σ} {schedule : List Bool} {who : Bool}
    {manifest : RefsManifest} (hrun : Steps (store.Interleaved calls) s schedule t)
    (halone : (!who) ∉ schedule)
    (hfollows : Follows store manifest s.store (s.phases who)) :
    Follows store manifest t.store (t.phases who) := by
  refine hrun.invariant (P := fun schedule t => (!who) ∉ schedule →
    Follows store manifest t.store (t.phases who)) (fun _ => hfollows) ?_ halone
  intro schedule label s t hinv hstep hmem
  rw [List.mem_append, List.mem_singleton, not_or] at hmem
  have hlabel : label = who := by
    rw [Bool.eq_not_of_ne (Ne.symm hmem.2), Bool.not_not]
  subst hlabel
  exact hstep.follows (hinv hmem.1)

/-- When one call runs behind the other, the manifest it has read is the other's. -/
theorem prev_of_behind {start : σ} {before after : List Bool} {who : Bool}
    {final : TwoPushes σ} {prev otherPrev : Option RefsManifest}
    {bundleSha256 otherSha256 : Option String} {results otherResults : List PushResult}
    (hrun : Steps (store.Interleaved calls) (twoPushes start) (before ++ after) final)
    (hbefore : who ∉ before) (hafter : (!who) ∉ after)
    (hwho : final.phases who = .written prev bundleSha256 results)
    (hother : final.phases (!who) = .written otherPrev otherSha256 otherResults) :
    prev = some ((calls !who).client.nextManifest backend.repo otherPrev otherSha256
      (calls !who).specs) := by
  obtain ⟨middle, hfirst, hlast⟩ := Steps.append_iff.mp hrun
  have hstart : middle.phases who = .start := phases_of_notMem hfirst hbefore
  have hdone : middle.phases (!who) = .written otherPrev otherSha256 otherResults := by
    rw [← phases_of_notMem hlast hafter, hother]
  have hfound : store.Found middle.store ((calls !who).client.nextManifest backend.repo
      otherPrev otherSha256 (calls !who).specs) := by
    rcases List.eq_nil_or_concat before with rfl | ⟨first, label, rfl⟩
    · rw [Steps.nil_iff.mp hfirst] at hdone
      cases hdone
    · have hlabel : label = !who := by
        rw [List.concat_eq_append, List.mem_append, List.mem_singleton, not_or] at hbefore
        exact Bool.eq_not_of_ne (Ne.symm hbefore.2)
      subst hlabel
      exact found_of_lastStep (List.concat_eq_append ▸ hfirst) hdone
  have hfollows : Follows store ((calls !who).client.nextManifest backend.repo otherPrev
      otherSha256 (calls !who).specs) final.store (final.phases who) := by
    apply follows_of_steps hlast hafter
    rw [hstart]
    exact hfound
  rwa [hwho] at hfollows

/-- What is found when both calls are done. -/
theorem exists_kept {start : σ} {rest : List Bool} {who : Bool} {final : TwoPushes σ}
    (hrun : Steps (store.Interleaved calls) (twoPushes start) (rest ++ [who]) final)
    (hwritten : ∀ each, (final.phases each).isWritten = true) :
    ∃ manifest, store.Found final.store manifest ∧
      Kept calls rest who final.phases manifest := by
  have hphase : ∀ each, ∃ prev bundleSha256 results,
      final.phases each = .written prev bundleSha256 results := by
    intro each
    have hdone := hwritten each
    cases hcase : final.phases each with
    | written prev bundleSha256 results => exact ⟨_, _, _, rfl⟩
    | _ =>
        rw [hcase] at hdone
        cases hdone
  obtain ⟨prev, bundleSha256, results, hwho⟩ := hphase who
  obtain ⟨otherPrev, otherSha256, otherResults, hother⟩ := hphase (!who)
  refine ⟨_, found_of_lastStep hrun hwho, ?_, ?_⟩
  · rw [hwho]
    exact includes_nextManifest _ _ _ _
  · rintro ⟨before, after, rfl, hbefore, hafter⟩
    have hafter' : (!who) ∉ after ++ [who] := by
      rw [List.mem_append, List.mem_singleton, not_or]
      exact ⟨hafter, Bool.not_ne_self who⟩
    rw [List.append_assoc] at hrun
    rw [prev_of_behind hrun hbefore hafter' hwho hother, hother]
    exact (includes_nextManifest _ _ _ _).nextManifest _ _ _

end Run

end FreshStore

/-- When both of two pushes are done, the next list finds the manifest of the one that
made the last step, with its ref updates and its bundle; those of the other are there as
well if it was through before that one began.  So it is on both backends; on a Blossom
server each manifest has to be listed anew with a newer time than those before. -/
theorem list_of_lastWriter (serde : SerdeJson) (calls : Bool → PushCall)
    (rest : List Bool) (who : Bool) :
    (∀ (remote : BlossomRemote) (name : Bytes → String) (start : BlobServer name)
        (final : TwoPushes (BlobServer name)),
      Steps ((BlobServer.freshStore serde remote).Interleaved calls)
        (FreshStore.twoPushes start) (rest ++ [who]) final →
      (∀ each, (final.phases each).isWritten = true) →
      ∃ manifest, Kept calls rest who final.phases manifest ∧
        ∀ (later : BlobServer name) (order : IterOrder String),
          later.blobs.Perm final.store.blobs →
          remote.fetchManifest serde (BlobServer.site name serde remote.server) later =
              (.ok (some manifest), later) ∧
            remote.list serde (BlobServer.site name serde remote.server) order later =
              (.ok (Backend.gitRefs order manifest), later)) ∧
    ∀ (prims : Primitives) (hex : Hex) (remote : IpfsRemote) (start : MfsNode)
        (final : TwoPushes MfsNode),
      Steps ((MfsNode.freshStore serde prims hex remote).Interleaved calls)
        (FreshStore.twoPushes start) (rest ++ [who]) final →
      (∀ each, (final.phases each).isWritten = true) →
      ∃ manifest, Kept calls rest who final.phases manifest ∧
        ∀ order : IterOrder String,
          remote.fetchManifest serde (MfsNode.kubo serde) final.store =
              (.ok (some manifest), final.store) ∧
            remote.list serde prims hex (MfsNode.kubo serde) order final.store =
              (.ok (Backend.gitRefs order manifest), final.store) := by
  constructor
  · intro remote name start final hrun hwritten
    let store : FreshStore (BlobServer.blossom serde remote name) :=
      BlobServer.freshStore serde remote
    obtain ⟨manifest, hfound, hkept⟩ := FreshStore.exists_kept hrun hwritten
    refine ⟨manifest, hkept, fun later order hdrift => ?_⟩
    have hlater := store.found_of_drift hdrift hfound
    exact ⟨store.fetchManifest_of_found hlater, store.list_of_found hlater order⟩
  · intro prims hex remote start final hrun hwritten
    let store := MfsNode.freshStore serde prims hex remote
    obtain ⟨manifest, hfound, hkept⟩ := FreshStore.exists_kept hrun hwritten
    exact ⟨manifest, hkept, fun order =>
      ⟨store.fetchManifest_of_found hfound, store.list_of_found hfound order⟩⟩

section Examples

def devBundle : Bytes := utf8 "# v2 git bundle, dev"

/-- A clone of `dev`. -/
noncomputable def devClone : Client := Client.oneBranch "dev" "3333" devBundle

def pushDev : List PushSpec := [⟨false, "dev", "refs/heads/dev"⟩]

/-- The calls of the two clones: the second one is of `dev`. -/
noncomputable def twoClones (who : Bool) : PushCall :=
  if who then ⟨devClone, pushDev⟩ else ⟨mainClone, pushMain⟩

/-- The name of a bundle under the toy hash. -/
def bundleName (data : Bytes) : String :=
  IpfsRemote.sha256Of Primitives.beginnings Hex.reference data

theorem createBundle_twoClones (who : Bool) (prev : Option RefsManifest) :
    (twoClones who).client.createBundle prev (twoClones who).specs =
      .ok (some (if who then devBundle else mainBundle)) := by
  cases who with
  | false => exact createBundle_mainClone prev
  | true => exact Client.createBundle_oneBranch _ _ _ prev (by decide)

theorem specResult_twoClones (who : Bool) :
    (twoClones who).specs.map (twoClones who).client.specResult =
      [⟨if who then "refs/heads/dev" else "refs/heads/main", .ok ()⟩] := by
  cases who with
  | false => simp [twoClones, pushMain, Client.specResult, revParse_mainClone]
  | true =>
      have hparse : devClone.revParse "dev" = .ok (trim "3333") :=
        Client.revParse_oneBranch _ _ _
      simp [twoClones, pushDev, Client.specResult, hparse]

theorem shortSha_bundleName (who : Bool) :
    shortSha (bundleName (if who then devBundle else mainBundle)) = .ok "23207632" := by
  cases who <;> decide +kernel

namespace MfsNode

/-- The backend of the examples. -/
noncomputable abbrev demo : FreshStore
    (ipfs SerdeJson.compact Primitives.beginnings Hex.reference demoRemote) :=
  freshStore SerdeJson.compact Primitives.beginnings Hex.reference demoRemote

/-- On the node a step needs no more than its call. -/
theorem interleaved_of_pushStep {s : TwoPushes MfsNode} {who : Bool} {phase : PushPhase}
    {after : MfsNode} (hstep : PushStep
      (ipfs SerdeJson.compact Primitives.beginnings Hex.reference demoRemote)
      (twoClones who) (s.phases who) s.store phase after) :
    demo.Interleaved twoClones s who ⟨after, Function.update s.phases who phase⟩ :=
  ⟨s.store, phase, rfl, hstep, rfl, fun _ _ _ => trivial⟩

theorem read_step {node : MfsNode} {prev : Option RefsManifest} (who : Bool)
    (hread : demoRemote.fetchManifest SerdeJson.compact (kubo SerdeJson.compact) node =
      (.ok prev, node)) :
    PushStep (ipfs SerdeJson.compact Primitives.beginnings Hex.reference demoRemote)
      (twoClones who) .start node (.read prev) node :=
  .read hread

/-- The bundle is written under its name. -/
theorem upload_step (who : Bool) (prev : Option RefsManifest) (node : MfsNode) :
    PushStep (ipfs SerdeJson.compact Primitives.beginnings Hex.reference demoRemote)
      (twoClones who) (.read prev) node
      (.uploaded prev (some (bundleName (if who then devBundle else mainBundle))))
      (node.write (demoRemote.mfsBundlePath
        (bundleName (if who then devBundle else mainBundle)))
          (if who then devBundle else mainBundle)) := by
  have hsave := saveBundle_eq SerdeJson.compact Primitives.beginnings Hex.reference
    demoRemote (if who then devBundle else mainBundle) node
  have hshort := shortSha_bundleName who
  rw [bundleName] at hshort
  rw [hshort] at hsave
  exact .upload (Backend.uploadBundle_eq_ok_iff.mpr
    (Or.inr ⟨_, _, createBundle_twoClones who prev, hsave, rfl⟩))

/-- The manifest is written over what was there. -/
theorem write_step (who : Bool) (prev : Option RefsManifest) (bundleSha256 : Option String)
    (node : MfsNode) :
    ∃ after, PushStep
      (ipfs SerdeJson.compact Primitives.beginnings Hex.reference demoRemote)
      (twoClones who) (.uploaded prev bundleSha256) node
      (.written prev bundleSha256
        ((twoClones who).specs.map (twoClones who).client.specResult)) after := by
  have hsave := mfsWrite_eq SerdeJson.compact demoRemote demoRemote.mfsRefsPath
    (((twoClones who).client.nextManifest demoRemote.repo prev bundleSha256
      (twoClones who).specs).toVec SerdeJson.compact (twoClones who).client.jsonOrder) node
  exact ⟨_, .write (Session.bind_eq_ok_iff.mpr ⟨(), _, hsave, rfl⟩)⟩

/-- The clone of `main` pushes, and then the clone of `dev`: both branches are there. -/
theorem kept_of_twoClones :
    ∃ final manifest, Steps (demo.Interleaved twoClones) (FreshStore.twoPushes empty)
        [false, false, false, true, true, true] final ∧
      demoRemote.fetchManifest SerdeJson.compact (kubo SerdeJson.compact) final.store =
        (.ok (some manifest), final.store) ∧
      Includes manifest (twoClones true) (some (bundleName devBundle)) (fun _ => False) ∧
      Includes manifest (twoClones false) (some (bundleName mainBundle)) fun name =>
        ((twoClones true).client.lastEffect (twoClones true).specs name).isSome = true := by
  obtain ⟨between, hwrite⟩ := write_step false none (some (bundleName mainBundle))
    (empty.write (demoRemote.mfsBundlePath (bundleName mainBundle)) mainBundle)
  have hfirst := (((Steps.nil.snoc (interleaved_of_pushStep (s := FreshStore.twoPushes empty)
    (read_step false (fetchManifest_empty _ _)))).snoc (interleaved_of_pushStep
      (upload_step false none empty))).snoc (interleaved_of_pushStep hwrite))
  have hfound := demo.fetchManifest_of_found (FreshStore.found_of_lastStep hfirst rfl)
  obtain ⟨after, hwrite'⟩ := write_step true _ (some (bundleName devBundle))
    (between.write (demoRemote.mfsBundlePath (bundleName devBundle)) devBundle)
  have hrun := ((hfirst.snoc (interleaved_of_pushStep (read_step true hfound))).snoc
    (interleaved_of_pushStep (upload_step true _ between))).snoc
      (interleaved_of_pushStep hwrite')
  obtain ⟨manifest, hkept, hlist⟩ := (list_of_lastWriter SerdeJson.compact twoClones
    [false, false, false, true, true] true).2 Primitives.beginnings Hex.reference demoRemote
      empty _ hrun (by rintro (_ | _) <;> rfl)
  exact ⟨_, manifest, hrun, (hlist (IterOrder.some String)).1, hkept.last,
    hkept.other ⟨[false, false, false], [true, true], rfl, by decide, by decide⟩⟩

/-- Both clones read before either writes; all is reported to be well, and of the push of
`main` neither the ref nor the bundle is left. -/
theorem update_lost :
    ∃ final manifest, Steps (demo.Interleaved twoClones) (FreshStore.twoPushes empty)
        [false, true, false, true, false, true] final ∧
      (∀ who, final.phases who = .written none
          (some (bundleName (if who then devBundle else mainBundle)))
          [⟨if who then "refs/heads/dev" else "refs/heads/main", .ok ()⟩]) ∧
      demoRemote.fetchManifest SerdeJson.compact (kubo SerdeJson.compact) final.store =
        (.ok (some manifest), final.store) ∧
      manifest.refs.lookup "refs/heads/main" = none ∧
      bundleName mainBundle ∉ manifest.bundles := by
  obtain ⟨between, hwrite⟩ := write_step false none (some (bundleName mainBundle))
    ((empty.write (demoRemote.mfsBundlePath (bundleName mainBundle)) mainBundle).write
      (demoRemote.mfsBundlePath (bundleName devBundle)) devBundle)
  obtain ⟨after, hwrite'⟩ := write_step true none (some (bundleName devBundle)) between
  have hrun := ((((((Steps.nil.snoc (interleaved_of_pushStep
    (s := FreshStore.twoPushes empty)
    (read_step false (fetchManifest_empty _ _)))).snoc (interleaved_of_pushStep
      (read_step true (fetchManifest_empty _ _)))).snoc (interleaved_of_pushStep
        (upload_step false none empty))).snoc (interleaved_of_pushStep
          (upload_step true none _))).snoc (interleaved_of_pushStep hwrite)).snoc
            (interleaved_of_pushStep hwrite'))
  refine ⟨_, _, hrun, ?_, demo.fetchManifest_of_found
    (FreshStore.found_of_lastStep hrun rfl), ?_, ?_⟩
  · intro who
    rw [← specResult_twoClones who]
    cases who <;> rfl
  · show (devClone.newRefs ∅ pushDev).lookup "refs/heads/main" = none
    rw [Client.lookup_newRefs]
    simp [Client.lastEffect, pushDev]
  · intro hmem
    exact absurd (List.mem_singleton.mp hmem) (by decide +kernel)

end MfsNode

end Examples

end GitHelpers

end Gnostr
