/-
Sequential pushes to a Blossom server.  The current manifest is the one with the newest
time, so each push is read back, and the next one builds on it, as long as every manifest
is listed with a newer time than those before it.
-/
import Gnostr.GitHelpers.BlossomStore

namespace Gnostr

namespace GitHelpers

variable {σ : Type} {backend : Backend σ}

namespace FreshStore

variable (store : FreshStore backend)

/-- A successful push, after the store may have drifted, whose manifest is written
freshly. -/
def FreshPush (s : σ) (record : PushRecord) (t : σ) : Prop :=
  ∃ drifted, store.Drift s drifted ∧ backend.Recorded drifted record t ∧
    store.Fresh (backend.uploadBundle record.client record.prev record.specs drifted).2
      record.client.jsonOrder (record.manifest backend.repo)

variable {store}

/-- The manifest of a fresh push is found afterwards. -/
theorem found_of_freshPush {s t : σ} {record : PushRecord}
    (hpush : store.FreshPush s record t) :
    store.Found t (record.manifest backend.repo) := by
  obtain ⟨drifted, _, ⟨hread, uploaded, hupload, hsave⟩, hfresh⟩ := hpush
  have hready := store.ready_of_fetchManifest (congrArg Prod.fst hread)
  have hready' := store.ready_uploadBundle record.client record.prev record.specs hready
  rw [hupload] at hready' hfresh
  exact store.found_saveManifest rfl hready' hfresh hsave

/-- What is found is what a push builds on. -/
theorem prev_of_freshPush {s t : σ} {record : PushRecord} {manifest : RefsManifest}
    (hpush : store.FreshPush s record t) (hfound : store.Found s manifest) :
    record.prev = some manifest := by
  obtain ⟨drifted, hdrift, ⟨hread, _⟩, _⟩ := hpush
  rw [store.fetchManifest_of_found (store.found_of_drift hdrift hfound)] at hread
  exact (Outcome.ok.inj (congrArg Prod.fst hread)).symm

/-- Every push builds on the one before it, and the last one is found. -/
theorem found_of_steps {start final : σ} {records : List PushRecord}
    (hrun : Steps store.FreshPush start records final) :
    (records.IsChain fun earlier later =>
        later.prev = some (earlier.manifest backend.repo)) ∧
      ∀ last ∈ records.getLast?, store.Found final (last.manifest backend.repo) := by
  refine hrun.invariant (P := fun records s => (records.IsChain fun earlier later =>
      later.prev = some (earlier.manifest backend.repo)) ∧
    ∀ last ∈ records.getLast?, store.Found s (last.manifest backend.repo))
    ⟨List.IsChain.nil, nofun⟩ ?_
  rintro records record s t ⟨hchain, hlast⟩ hpush
  constructor
  · refine List.isChain_append.mpr ⟨hchain, List.isChain_singleton _, ?_⟩
    intro earlier hearlier later hlater
    cases hlater
    exact prev_of_freshPush hpush (hlast earlier hearlier)
  · intro last hmem
    rw [List.getLast?_concat] at hmem
    cases hmem
    exact found_of_freshPush hpush

end FreshStore

/-- In a run of successful pushes to a Blossom server whose manifests are each listed
anew with a newer time than all manifests of the repository before, every push builds on
the one before it; and in whichever order the blobs are listed then, the refs of the last
manifest are listed. -/
theorem list_of_freshPushes (serde : SerdeJson) (remote : BlossomRemote)
    (name : Bytes → String) (start final : BlobServer name) (records : List PushRecord)
    (hrun : Steps (BlobServer.freshStore serde remote).FreshPush start records final) :
    (records.IsChain fun earlier later =>
        later.prev = some (earlier.manifest remote.repo)) ∧
      ∀ last ∈ records.getLast?, ∀ (later : BlobServer name) (order : IterOrder String),
        later.blobs.Perm final.blobs →
          remote.list serde (BlobServer.site name serde remote.server) order later =
            (.ok (Backend.gitRefs order (last.manifest remote.repo)), later) := by
  obtain ⟨hchain, hfound⟩ := FreshStore.found_of_steps hrun
  refine ⟨hchain, fun last hlast later order hdrift => ?_⟩
  exact (BlobServer.freshStore serde remote).list_of_found
    ((BlobServer.freshStore serde remote).found_of_drift hdrift (hfound last hlast)) order

namespace BlobServer

section Examples

/-- A clock that moves on with every upload. -/
def ticking (n : ℕ) : Option UInt64 := some (UInt64.ofNat n)

/-- A manifest is fresh when the stamp it gets is newer than what was there. -/
theorem fresh_uploadBundle {client : Client} {specs : List PushSpec}
    {prev : Option RefsManifest} {bundle : Option Bytes} {server : BlobServer plainName}
    (serde : SerdeJson) (remote : BlossomRemote)
    (hrelist : ∀ n, (server.stamps n).relist = true)
    (hcreated : client.createBundle prev specs = .ok bundle)
    (hnewer : ∀ blob ∈ server.blobs, isManifest blob = true →
      createdAt blob < (server.stamps bundle.toList.length).created.getD 0)
    (order : IterOrder String) (saved : RefsManifest) :
    Fresh serde remote
      ((blossom serde remote plainName).uploadBundle client prev specs server).2 order
      saved := by
  obtain ⟨uploaded, hupload, hstamps, hblobs⟩ :=
    exists_uploaded serde remote hrelist hcreated
  rw [hupload]
  constructor
  · rw [relists, hstamps, hrelist, Bool.or_true]
  · intro blob hblob hmanifest _
    rw [hstamps, Nat.zero_add]
    rw [hblobs] at hblob
    rcases List.mem_append.mp hblob with hbundle | hold
    · rw [Option.mem_toList, Option.map_eq_some_iff] at hbundle
      obtain ⟨data, _, rfl⟩ := hbundle
      cases hmanifest
    · exact hnewer blob hold hmanifest

/-- `main` is created and deleted, and then nothing is listed but `HEAD`. -/
theorem list_of_deletedMain :
    ∃ final : BlobServer plainName,
      Steps (freshStore SerdeJson.compact demoServer).FreshPush (emptyAt ticking)
        [firstPush, secondPush] final ∧
      ∀ order, demoServer.list SerdeJson.compact
        (site plainName SerdeJson.compact demoServer.server) order final =
          (.ok (Backend.gitRefs order (secondPush.manifest demoServer.repo)), final) := by
  obtain ⟨middle, final, hfirst, hsecond, hstamps, hblobs, hfinal⟩ :=
    exists_twoPushes ticking
  have hfirst' : (freshStore SerdeJson.compact demoServer).FreshPush (emptyAt ticking)
      firstPush middle :=
    ⟨_, List.Perm.refl _, hfirst, fresh_uploadBundle _ _ (fun _ => rfl)
      (createBundle_mainClone none) (fun _ hblob => absurd hblob List.not_mem_nil) _ _⟩
  have hsecond' : (freshStore SerdeJson.compact demoServer).FreshPush middle secondPush
      final := by
    refine ⟨_, List.Perm.refl _, hsecond, fresh_uploadBundle _ _
      (fun n => by rw [hstamps]) (if_pos (by decide)) ?_ _ _⟩
    intro blob hblob hmanifest
    rw [hblobs] at hblob
    rcases List.mem_cons.mp hblob with rfl | hblob
    · rw [hstamps]
      exact (by decide : (1 : UInt64) < 2)
    · rw [List.mem_singleton.mp hblob] at hmanifest
      cases hmanifest
  have hrun := Steps.cons_iff.mpr ⟨middle, hfirst', Steps.singleton_iff.mpr hsecond'⟩
  exact ⟨final, hrun, fun order => (list_of_freshPushes SerdeJson.compact demoServer
    plainName _ final _ hrun).2 secondPush rfl final order (List.Perm.refl _)⟩

/-- A server that lists its blobs in another order. -/
def relisted {name : Bytes → String} (server : BlobServer name) (blobs : List Blob)
    (hperm : blobs.Perm server.blobs) : BlobServer name where
  blobs := blobs
  stamps := server.stamps
  unique blob hblob other hother :=
    server.unique blob (hperm.mem_iff.mp hblob) other (hperm.mem_iff.mp hother)

theorem newestFirst_of_constant {blobs : List Blob} {time : UInt64}
    (hblobs : ∀ blob ∈ blobs, createdAt blob = time) :
    newestFirst blobs = blobs.filter isManifest := by
  apply List.mergeSort_of_pairwise
  apply List.pairwise_of_forall_mem_list
  intro first hfirst second hsecond
  rw [hblobs first (List.mem_filter.mp hfirst).1,
    hblobs second (List.mem_filter.mp hsecond).1]
  exact decide_eq_true (UInt64.le_refl _)

/-- Both pushes come within one second, and the manifest of the first is listed before
that of the second: then the branch that was deleted is listed. -/
theorem list_of_olderPush :
    ∃ final later : BlobServer plainName,
      Steps (manifestStore SerdeJson.compact demoServer).RecordedPush
        (emptyAt fun _ => some 1700000000) [firstPush, secondPush] final ∧
      later.blobs.Perm final.blobs ∧
      ∀ order, ∃ refs, demoServer.list SerdeJson.compact
          (site plainName SerdeJson.compact demoServer.server) order later =
            (.ok refs, later) ∧
        ⟨"refs/heads/main", "1111", none⟩ ∈ refs ∧
        ⟨"refs/heads/main", "1111", none⟩ ∉
          Backend.gitRefs order (secondPush.manifest demoServer.repo) := by
  obtain ⟨middle, final, hfirst, hsecond, _, hblobs, hfinal⟩ :=
    exists_twoPushes fun _ => some 1700000000
  rw [hblobs] at hfinal
  have hperm : [manifestBlob firstPush (some 1700000000),
      manifestBlob secondPush (some 1700000000),
      ⟨mainBundle, some ctBundle, some 1700000000⟩].Perm final.blobs := by
    rw [hfinal]
    exact List.Perm.swap _ _ _
  have hconstant : ∀ blob ∈ (relisted final _ hperm).blobs,
      createdAt blob = 1700000000 := by
    intro blob hblob
    simp only [relisted, List.mem_cons, List.not_mem_nil, or_false] at hblob
    rcases hblob with rfl | rfl | rfl <;> rfl
  have hread : demoServer.fetchManifest SerdeJson.compact
      (site plainName SerdeJson.compact demoServer.server) (relisted final _ hperm) =
        (.ok (some (firstPush.manifest demoServer.repo)), relisted final _ hperm) := by
    have hmanifests : (relisted final _ hperm).blobs.filter isManifest =
      [] ++ manifestBlob firstPush (some 1700000000) ::
        [manifestBlob secondPush (some 1700000000)] := rfl
    rw [fetchManifest_eq_search, newestFirst_of_constant hconstant, hmanifests,
      search_of_foreign SerdeJson.compact demoServer
        (fun _ hother => absurd hother List.not_mem_nil) (own_manifestBlob _ _)
        (shortSha_plainName _)]
  refine ⟨final, relisted final _ hperm, ?_, hperm, fun order => ⟨_,
    Session.bind_of_ok hread, ?_, ?_⟩⟩
  · exact Steps.cons_iff.mpr ⟨middle, ⟨_, List.Perm.refl _, hfirst⟩,
      Steps.singleton_iff.mpr ⟨_, List.Perm.refl _, hsecond⟩⟩
  · exact Backend.mem_gitRefs_iff.mpr (lookup_pushMain _)
  · intro hmem
    have hlookup := Backend.mem_gitRefs_iff.mp hmem
    change (mainClone.newRefs _ deleteMain).lookup "refs/heads/main" = some "1111" at hlookup
    rw [lookup_deleteMain] at hlookup
    cases hlookup

end Examples

end BlobServer

end GitHelpers

end Gnostr
