/-
The `HEAD` that `list` advertises: a push takes it from its local checkout, whatever the
refs are then.  It points to a ref that is advertised as long as every push keeps the
branch it has checked out on the remote.
-/
import Gnostr.GitHelpers.BlossomStore
import Gnostr.GitHelpers.MfsNode

namespace Gnostr

namespace GitHelpers

variable {σ : Type} {backend : Backend σ}

/-- Every symbolic ref of a list points to a ref of the list. -/
def HeadResolves (refs : List GitRef) : Prop :=
  ∀ ref ∈ refs, ∀ target, ref.symrefTarget = some target →
    ∃ other ∈ refs, other.name = target ∧ other.symrefTarget = none

/-- The manifest has a ref for its `HEAD`. -/
def RefsManifest.HeadResolves (manifest : RefsManifest) : Prop :=
  ∀ target, manifest.head = some target → target ∈ manifest.refs

theorem headResolves_gitRefs_iff (order : IterOrder String) (manifest : RefsManifest) :
    HeadResolves (Backend.gitRefs order manifest) ↔ manifest.HeadResolves := by
  constructor
  · intro hrefs target hhead
    have href : ⟨"HEAD", "", some target⟩ ∈ Backend.gitRefs order manifest := by
      rw [Backend.gitRefs, hhead]
      exact List.mem_append_right _ (List.mem_singleton_self _)
    obtain ⟨⟨_, oid, _⟩, hother, rfl, rfl⟩ := hrefs _ href target rfl
    exact Finmap.mem_of_lookup_eq_some (Backend.mem_gitRefs_iff.mp hother)
  · intro hmanifest ref href target htarget
    rcases List.mem_append.mp href with href | href
    · obtain ⟨entry, _, rfl⟩ := List.mem_map.mp href
      cases htarget
    · rw [Option.mem_toList, Option.map_eq_some_iff] at href
      obtain ⟨found, hhead, rfl⟩ := href
      cases htarget
      obtain ⟨oid, hlookup⟩ := Finmap.mem_iff.mp (hmanifest target hhead)
      exact ⟨⟨target, oid, none⟩, Backend.mem_gitRefs_iff.mpr hlookup, rfl, rfl⟩

/-- After the refspecs the remote has a ref of the name: the last of them for it that
takes effect is no deletion, or there is none and the remote had it. -/
def Client.Keeps (client : Client) (refs : RefMap) (specs : List PushSpec)
    (name : String) : Prop :=
  (client.lastEffect specs name).elim (name ∈ refs) fun spec => spec.src.isEmpty = false

theorem Client.mem_newRefs_iff (client : Client) (refs : RefMap) (specs : List PushSpec)
    (name : String) : name ∈ client.newRefs refs specs ↔ client.Keeps refs specs name := by
  rw [← Finmap.lookup_isSome, client.lookup_newRefs, Keeps]
  cases heffect : client.lastEffect specs name with
  | none => exact Finmap.lookup_isSome
  | some spec =>
      have htakes := (List.mem_filter.mp (List.mem_of_getLast? heffect)).2
      rw [Bool.and_eq_true] at htakes
      have hsome : (client.newValue spec).isSome = true ↔ spec.src.isEmpty = false := by
        obtain ⟨_, htakes⟩ := htakes
        unfold takesEffect at htakes
        unfold newValue
        cases hdelete : spec.src.isEmpty with
        | true => simp
        | false =>
            rw [hdelete, Bool.false_or] at htakes
            cases hparse : client.revParse spec.src with
            | ok oid => simp [Except.toOption]
            | error e =>
                rw [hparse] at htakes
                cases htakes
      exact hsome

/-- A push whose bundle is created, if it needs one, keeps the branch that its client
has checked out. -/
def KeepsHead (backend : Backend σ) (s : σ) (call : PushCall) : Prop :=
  ∀ prev bundle target, (backend.fetchManifest s).1 = .ok prev →
    call.client.createBundle prev call.specs = .ok bundle →
    call.client.headSymref = some target →
      call.client.Keeps (prevRefs prev) call.specs target

/-- A push that keeps its head, however it ends, after the store may have drifted. -/
def KeepingPush (store : ManifestStore backend) (s : σ) (call : PushCall) (t : σ) : Prop :=
  ∃ drifted, store.Drift s drifted ∧ KeepsHead backend drifted call ∧
    (backend.push call.client call.specs drifted).2 = t

section Run

variable (store : ManifestStore backend)

/-- The manifest a push writes has a ref for its `HEAD` exactly when the push keeps the
branch that is checked out. -/
theorem headResolves_nextManifest_iff (client : Client) (repo : String)
    (prev : Option RefsManifest) (bundleSha256 : Option String) (specs : List PushSpec) :
    (client.nextManifest repo prev bundleSha256 specs).HeadResolves ↔
      ∀ target, client.headSymref = some target →
        client.Keeps (prevRefs prev) specs target := by
  unfold RefsManifest.HeadResolves Client.nextManifest
  simp only [client.mem_newRefs_iff]

/-- A push that keeps its head stores no manifest with a `HEAD` that has no ref. -/
theorem headResolves_of_keepingPush {s t : σ} {call : PushCall}
    (hpush : KeepingPush store s call t)
    (hall : ∀ manifest, store.Stored s manifest → manifest.HeadResolves) :
    ∀ manifest, store.Stored t manifest → manifest.HeadResolves := by
  obtain ⟨drifted, hdrift, hkeeps, rfl⟩ := hpush
  intro manifest hstored
  rcases store.stored_of_push hstored with
    hold | ⟨prev, bundle, bundleSha256, hread, hcreated, rfl⟩
  · exact hall manifest (store.stored_of_drift hdrift hold)
  · exact (headResolves_nextManifest_iff _ _ _ _ _).mpr fun target hhead =>
      hkeeps prev bundle target hread hcreated hhead

/-- After pushes that keep their heads every manifest has a ref for its `HEAD`. -/
theorem headResolves_of_steps {start final : σ} {calls : List PushCall}
    (hrun : Steps (KeepingPush store) start calls final)
    (hstart : ∀ manifest, store.Stored start manifest → manifest.HeadResolves) :
    ∀ manifest, store.Stored final manifest → manifest.HeadResolves :=
  hrun.invariant hstart fun _ _ _ _ hall hpush =>
    headResolves_of_keepingPush store hpush hall

/-- A list is advertised with a `HEAD` that resolves. -/
theorem headResolves_list {s t : σ} {order : IterOrder String} {refs : List GitRef}
    (hall : ∀ manifest, store.Stored s manifest → manifest.HeadResolves)
    (hlist : backend.list order s = (.ok refs, t)) : HeadResolves refs := by
  unfold Backend.list at hlist
  obtain ⟨prev, read, hread, hrest⟩ := Session.bind_eq_ok_iff.mp hlist
  cases prev with
  | none =>
      cases hrest
      exact nofun
  | some manifest =>
      cases hrest
      exact (headResolves_gitRefs_iff order manifest).mpr
        (hall manifest (store.stored_of_fetchManifest (congrArg Prod.fst hread)))

/-- After pushes that keep their heads, an advertised `HEAD` is advertised with its ref,
on either backend. -/
theorem headResolves_list_of_pushes (serde : SerdeJson) (calls : List PushCall)
    (order : IterOrder String) (refs : List GitRef) :
    (∀ (remote : BlossomRemote) (name : Bytes → String)
        (start final later after : BlobServer name),
      (∀ manifest, BlobServer.Stored serde remote start manifest →
        manifest.HeadResolves) →
      Steps (KeepingPush (BlobServer.manifestStore serde remote)) start calls final →
      later.blobs.Perm final.blobs →
      remote.list serde (BlobServer.site name serde remote.server) order later =
        (.ok refs, after) → HeadResolves refs) ∧
    ∀ (prims : Primitives) (hex : Hex) (remote : IpfsRemote)
        (start final after : MfsNode),
      (∀ manifest, MfsNode.Stored serde remote start manifest → manifest.HeadResolves) →
      Steps (KeepingPush (MfsNode.manifestStore serde prims hex remote)) start calls
        final →
      remote.list serde prims hex (MfsNode.kubo serde) order final = (.ok refs, after) →
        HeadResolves refs := by
  constructor
  · intro remote name start final later after hstart hrun hdrift hlist
    have hall := headResolves_of_steps (BlobServer.manifestStore serde remote) hrun hstart
    exact headResolves_list (BlobServer.manifestStore serde remote)
      (fun manifest hstored => hall manifest
        ((BlobServer.manifestStore serde remote).stored_of_drift hdrift hstored)) hlist
  · intro prims hex remote start final after hstart hrun hlist
    exact headResolves_list (MfsNode.manifestStore serde prims hex remote)
      (headResolves_of_steps _ hrun hstart) hlist

end Run

section Examples

def deleteOld : List PushSpec := [⟨false, "", "refs/heads/old"⟩]

/-- The branch that is checked out is pushed. -/
theorem keepsHead_pushMain (s : σ) : KeepsHead backend s ⟨mainClone, pushMain⟩ := by
  intro prev bundle target _ _ htarget
  change mainClone.headSymref = some target at htarget
  rw [headSymref_mainClone, Option.some.injEq] at htarget
  subst htarget
  have hparse := revParse_mainClone
  have heffect : mainClone.lastEffect pushMain "refs/heads/main" =
      some ⟨false, "main", "refs/heads/main"⟩ := by
    simp [Client.lastEffect, pushMain, Client.takesEffect, hparse, Except.isOk,
      Except.toBool]
  have hpushed : ("main" : String).isEmpty = false := by decide
  show (mainClone.lastEffect pushMain "refs/heads/main").elim _ _
  rw [heffect]
  exact hpushed

/-- The `HEAD` of a repository whose branch was pushed resolves. -/
theorem headResolves_list_of_pushMain :
    ∃ node refs, (demoRemote.push SerdeJson.compact Primitives.beginnings Hex.reference
        (MfsNode.kubo SerdeJson.compact) mainClone pushMain MfsNode.empty).2 = node ∧
      demoRemote.list SerdeJson.compact Primitives.beginnings Hex.reference
        (MfsNode.kubo SerdeJson.compact) (IterOrder.some String) node =
          (.ok refs, node) ∧
      HeadResolves refs := by
  have hread := congrArg Prod.fst
    (MfsNode.fetchManifest_empty SerdeJson.compact demoRemote)
  obtain ⟨node, hpush, hstored, _⟩ := MfsNode.exists_push SerdeJson.compact
    Primitives.beginnings Hex.reference demoRemote hread (createBundle_mainClone none)
    shortSha_mainBundle rfl
  have hlist := MfsNode.list_of_stored SerdeJson.compact Primitives.beginnings
    Hex.reference demoRemote hstored (IterOrder.some String)
  refine ⟨node, _, congrArg Prod.snd hpush, hlist, ?_⟩
  refine (headResolves_list_of_pushes SerdeJson.compact [⟨mainClone, pushMain⟩]
    (IterOrder.some String) _).2 Primitives.beginnings Hex.reference demoRemote
    MfsNode.empty node node ?_ ?_ hlist
  · intro manifest hnone
    cases hnone
  · exact Steps.singleton_iff.mpr
      ⟨MfsNode.empty, rfl, keepsHead_pushMain _, congrArg Prod.snd hpush⟩

/-- A client that has `main` checked out deletes another branch of an empty repository;
the `HEAD` that is advertised then has no ref. -/
theorem head_of_unpushed_branch :
    ∃ results node refs,
      demoRemote.push SerdeJson.compact Primitives.beginnings Hex.reference
        (MfsNode.kubo SerdeJson.compact) mainClone deleteOld MfsNode.empty =
          (.ok results, node) ∧
      demoRemote.list SerdeJson.compact Primitives.beginnings Hex.reference
        (MfsNode.kubo SerdeJson.compact) (IterOrder.some String) node =
          (.ok refs, node) ∧
      ¬ HeadResolves refs := by
  have hread := congrArg Prod.fst
    (MfsNode.fetchManifest_empty SerdeJson.compact demoRemote)
  have hcreated : mainClone.createBundle none deleteOld = .ok none := if_pos (by decide)
  obtain ⟨node, hpush, hstored, _⟩ := MfsNode.exists_push SerdeJson.compact
    Primitives.beginnings Hex.reference demoRemote hread hcreated nofun rfl
  refine ⟨_, node, _, hpush, MfsNode.list_of_stored _ _ _ _ hstored _, ?_⟩
  rw [headResolves_gitRefs_iff, headResolves_nextManifest_iff]
  intro hkeeps
  have hmain := hkeeps "refs/heads/main" headSymref_mainClone
  rw [← Client.mem_newRefs_iff] at hmain
  have hrefs : mainClone.newRefs (prevRefs none) deleteOld =
      Finmap.erase "refs/heads/old" ∅ := by
    simp [Client.newRefs, deleteOld, Client.applySpec, prevRefs]
  rw [hrefs, Finmap.mem_erase] at hmain
  exact Finmap.notMem_empty hmain.2

end Examples

end GitHelpers

end Gnostr
