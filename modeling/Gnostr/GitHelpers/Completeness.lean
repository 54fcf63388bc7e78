/-
Bundle chains are complete.  Each bundle is thin over the refs of the manifest its push
has read; still the bundles of every manifest can be unbundled in order, and then all
that is reachable from its refs is there.
-/
import Gnostr.GitHelpers.BlossomStore
import Gnostr.GitHelpers.MfsNode
import Gnostr.Lib.ObjectGraph

namespace Gnostr

namespace GitHelpers

variable {σ τ : Type} {backend : Backend σ}

/-- The objects refs point to. -/
def RefMap.oids (refs : RefMap) : Set String :=
  { oid | ∃ name, refs.lookup name = some oid }

/-- The objects the sources of refspecs are resolved to. -/
def Client.sources (client : Client) (specs : List PushSpec) : Set String :=
  { oid | ∃ spec ∈ pushRefs specs, client.revParse spec.src = .ok oid }

theorem Client.oids_newRefs (client : Client) (refs : RefMap) (specs : List PushSpec) :
    RefMap.oids (client.newRefs refs specs) ⊆ RefMap.oids refs ∪ client.sources specs := by
  rintro oid ⟨name, hlookup⟩
  rw [client.lookup_newRefs] at hlookup
  cases heffect : client.lastEffect specs name with
  | none =>
      rw [heffect] at hlookup
      exact Or.inl ⟨name, hlookup⟩
  | some spec =>
      rw [heffect] at hlookup
      have hspec := (List.mem_filter.mp (List.mem_of_getLast? heffect)).1
      change client.newValue spec = some oid at hlookup
      unfold newValue at hlookup
      split_ifs at hlookup with hdelete
      refine Or.inr ⟨spec, List.mem_filter.mpr ⟨hspec, by simpa using hdelete⟩, ?_⟩
      cases hparse : client.revParse spec.src with
      | ok found =>
          rw [hparse] at hlookup
          exact congrArg Except.ok (Option.some.inj hlookup)
      | error e =>
          rw [hparse] at hlookup
          cases hlookup

/-- Without a bundle only deletions were asked for. -/
theorem Client.sources_eq_empty {client : Client} {prev : Option RefsManifest}
    {specs : List PushSpec} (hcreated : client.createBundle prev specs = .ok none) :
    client.sources specs = ∅ := by
  have hnone : pushRefs specs = [] := by
    unfold createBundle at hcreated
    split_ifs at hcreated with hempty
    · exact List.isEmpty_iff.mp hempty
    · split at hcreated
      · cases hcreated
      · split_ifs at hcreated
        cases hcreated
  ext oid
  simp [sources, hnone]

section Run

variable (edge : String → String → Prop) (pack : Bytes → Pack String)

/-- `git bundle create` bundles what is reachable from the sources but not from the
refs of the previous manifest, which the bundle may need. -/
def BundlesThin (call : PushCall) (prev : Option RefsManifest) : Prop :=
  ∀ bundle, call.client.createBundle prev call.specs = .ok (some bundle) →
    (pack bundle).Thin edge (call.client.sources call.specs) (RefMap.oids (prevRefs prev))

/-- A successful push of a client whose git bundles as it should. -/
def ThinPush (store : ManifestStore backend) (s : σ) (call : PushCall) (t : σ) : Prop :=
  ∃ drifted results, store.Drift s drifted ∧
    (∀ prev, (backend.fetchManifest drifted).1 = .ok prev → BundlesThin edge pack call prev) ∧
    backend.push call.client call.specs drifted = (.ok results, t)

/-- No two uploads have one name. -/
def Distinct (store : BundleStore backend) (s : σ) : Prop :=
  ∀ data ∈ store.uploads s, ∀ other ∈ store.uploads s,
    store.name data = store.name other → data = other

/-- The bundles are all there, and complete for the refs. -/
def Intact (store : BundleStore backend) (s : σ) (bundles : List String)
    (refs : RefMap) : Prop :=
  ∃ datas : List Bytes,
    List.Forall₂ (fun sha256 data => sha256 = store.name data ∧ data ∈ store.uploads s ∧
      store.Holds s sha256 data ∧ ∃ short, shortSha sha256 = .ok short) bundles datas ∧
    Pack.Complete edge (datas.map pack) (RefMap.oids refs)

/-- Bundles are lost to other bytes of their names only. -/
structure Keeps (store : BundleStore backend) (s t : σ) : Prop where
  uploads_subset : store.uploads s ⊆ store.uploads t
  holds : ∀ {sha256 data}, store.Holds s sha256 data → store.Holds t sha256 data ∨
    ∃ clash ∈ store.uploads t, store.name clash = sha256 ∧ clash ≠ data

variable {edge pack} {store : BundleStore backend}

theorem Distinct.mono {s t : σ} (hdistinct : Distinct store t)
    (huploads : store.uploads s ⊆ store.uploads t) : Distinct store s :=
  fun data hdata other hother => hdistinct data (huploads hdata) other (huploads hother)

/-- While names are distinct the bundles stay there. -/
theorem Intact.mono {s t : σ} {bundles : List String} {refs : RefMap}
    (hintact : Intact edge pack store s bundles refs) (hkeeps : Keeps store s t)
    (hdistinct : Distinct store t) : Intact edge pack store t bundles refs := by
  obtain ⟨datas, hbundles, hcomplete⟩ := hintact
  refine ⟨datas, hbundles.imp ?_, hcomplete⟩
  rintro sha256 data ⟨rfl, hupload, hheld, hshort⟩
  refine ⟨rfl, hkeeps.uploads_subset hupload, ?_, hshort⟩
  rcases hkeeps.holds hheld with hheld | ⟨clash, hclash, hname, hne⟩
  · exact hheld
  · exact absurd (hdistinct clash hclash data (hkeeps.uploads_subset hupload) hname) hne

theorem keeps_drift {s t : σ} (hdrift : store.Drift s t) : Keeps store s t where
  uploads_subset := store.uploads_drift hdrift
  holds hheld := Or.inl (store.holds_of_drift hdrift hheld)

theorem keeps_uploadBundle (store : BundleStore backend) {client : Client}
    {prev : Option RefsManifest} {specs : List PushSpec} {bundleSha256 : Option String} {s t : σ}
    (hupload : backend.uploadBundle client prev specs s = (.ok bundleSha256, t)) :
    Keeps store s t := by
  rcases Backend.uploadBundle_eq_ok_iff.mp hupload with
    ⟨_, _, rfl⟩ | ⟨bundle, sha256, _, hsave, _⟩
  · exact ⟨List.Subset.refl _, Or.inl⟩
  · have hafter : (backend.saveBundle bundle s).2 = t := congrArg Prod.snd hsave
    subst hafter
    exact ⟨store.uploads_saveBundle s bundle, store.holds_saveBundle bundle⟩

theorem keeps_saveManifest (store : BundleStore backend) {order : IterOrder String}
    {saved : RefsManifest} {s t : σ}
    (hsave : backend.saveManifest order saved s = (.ok (), t)) : Keeps store s t := by
  have hafter : (backend.saveManifest order saved s).2 = t := congrArg Prod.snd hsave
  subst hafter
  exact ⟨store.uploads_saveManifest s order saved,
    fun hheld => Or.inl (store.holds_saveManifest order saved hheld)⟩

theorem Keeps.trans {s t u : σ} (hfirst : Keeps store s t) (hsecond : Keeps store t u) :
    Keeps store s u where
  uploads_subset := List.Subset.trans hfirst.uploads_subset hsecond.uploads_subset
  holds hheld := by
    rcases hfirst.holds hheld with hheld | ⟨clash, hclash, hne⟩
    · exact hsecond.holds hheld
    · exact Or.inr ⟨clash, hsecond.uploads_subset hclash, hne⟩

theorem keeps_recorded (store : BundleStore backend) {record : PushRecord} {s t : σ}
    (hrecorded : backend.Recorded s record t) : Keeps store s t := by
  obtain ⟨_, uploaded, hupload, hsave⟩ := hrecorded
  exact (keeps_uploadBundle store hupload).trans (keeps_saveManifest store hsave)

/-- The manifest of a push is intact when the one it has read is. -/
theorem intact_nextManifest {call : PushCall} {prev : Option RefsManifest}
    {bundleSha256 : Option String} {s t : σ}
    (hprev : Intact edge pack store s (prev.elim [] RefsManifest.bundles) (prevRefs prev))
    (hthin : BundlesThin edge pack call prev)
    (hupload : backend.uploadBundle call.client prev call.specs s =
      (.ok bundleSha256, t)) (hdistinct : Distinct store t) :
    Intact edge pack store t (prev.elim [] RefsManifest.bundles ++ bundleSha256.toList)
      (call.client.newRefs (prevRefs prev) call.specs) := by
  have hrefs := call.client.oids_newRefs (prevRefs prev) call.specs
  obtain ⟨datas, hbundles, hcomplete⟩ :=
    hprev.mono (keeps_uploadBundle store hupload) hdistinct
  rcases Backend.uploadBundle_eq_ok_iff.mp hupload with
    ⟨hcreated, rfl, _⟩ | ⟨bundle, sha256, hcreated, hsave, rfl⟩
  · rw [Client.sources_eq_empty hcreated, Set.union_empty] at hrefs
    rw [Option.toList_none, List.append_nil]
    exact ⟨datas, hbundles, hcomplete.mono hrefs⟩
  · obtain ⟨hname, hheld, hmem, hshort⟩ := store.holds_of_saveBundle hsave
    refine ⟨datas ++ [bundle], ?_, ?_⟩
    · exact List.rel_append hbundles
        (List.Forall₂.cons ⟨hname, hmem, hheld, hshort⟩ List.Forall₂.nil)
    · rw [List.map_append, List.map_singleton]
      exact hcomplete.snoc (hthin bundle hcreated) hrefs

/-- A push keeps every manifest intact. -/
theorem intact_of_thinPush {s t : σ} {call : PushCall}
    (hpush : ThinPush edge pack store.toManifestStore s call t)
    (hdistinct : Distinct store t)
    (hall : ∀ manifest, store.Stored s manifest →
      Intact edge pack store s manifest.bundles manifest.refs) :
    ∀ manifest, store.Stored t manifest →
      Intact edge pack store t manifest.bundles manifest.refs := by
  obtain ⟨drifted, results, hdrift, hthin, hpush⟩ := hpush
  obtain ⟨_, prev, bundleSha256, hrecorded⟩ := store.push_eq_ok_iff_recorded.mp hpush
  have hread := congrArg Prod.fst hrecorded.fetchManifest_eq
  have hkeeps := keeps_recorded store hrecorded
  have hdrifted : ∀ manifest, store.Stored drifted manifest →
      Intact edge pack store drifted manifest.bundles manifest.refs :=
    fun manifest hstored => (hall manifest (store.stored_of_drift hdrift hstored)).mono
      (keeps_drift hdrift) (hdistinct.mono hkeeps.uploads_subset)
  have hprev : Intact edge pack store drifted (prev.elim [] RefsManifest.bundles)
      (prevRefs prev) := by
    cases prev with
    | none =>
        refine ⟨[], List.Forall₂.nil, (Pack.complete_nil edge).mono ?_⟩
        rintro oid ⟨name, hlookup⟩
        cases hlookup
    | some manifest => exact hdrifted manifest (store.stored_of_fetchManifest hread)
  intro manifest hstored
  rcases store.stored_of_recorded hrecorded hstored with hold | rfl
  · exact (hdrifted manifest hold).mono hkeeps hdistinct
  · obtain ⟨uploaded, hupload, hsave⟩ := hrecorded.exists_uploaded
    have hkeepsSave := keeps_saveManifest store hsave
    exact (intact_nextManifest hprev (hthin prev hread) hupload
      (hdistinct.mono hkeepsSave.uploads_subset)).mono hkeepsSave hdistinct

/-- What a push leaves holds all uploads before it. -/
theorem uploads_subset_of_thinPush {s t : σ} {call : PushCall}
    (hpush : ThinPush edge pack store.toManifestStore s call t) :
    store.uploads s ⊆ store.uploads t := by
  obtain ⟨drifted, results, hdrift, _, hpush⟩ := hpush
  obtain ⟨_, prev, bundleSha256, hrecorded⟩ := store.push_eq_ok_iff_recorded.mp hpush
  exact List.Subset.trans (store.uploads_drift hdrift)
    (keeps_recorded store hrecorded).uploads_subset

/-- After pushes from a repository without a manifest every manifest is intact. -/
theorem intact_of_steps (store : BundleStore backend) {start final : σ}
    {calls : List PushCall}
    (hrun : Steps (ThinPush edge pack store.toManifestStore) start calls final)
    (hempty : ∀ manifest, ¬ store.Stored start manifest)
    (hdistinct : Distinct store final) :
    ∀ manifest, store.Stored final manifest →
      Intact edge pack store final manifest.bundles manifest.refs := by
  refine hrun.invariant (P := fun _ s => Distinct store s → ∀ manifest,
    store.Stored s manifest → Intact edge pack store s manifest.bundles manifest.refs)
    (fun _ manifest hstored => absurd hstored (hempty manifest)) ?_ hdistinct
  intro _ call s t hinv hpush hdistinct
  exact intact_of_thinPush hpush hdistinct
    (hinv (hdistinct.mono (uploads_subset_of_thinPush hpush)))

end Run

section Fetch

variable (edge : String → String → Prop) (pack : Bytes → Pack String)

/-- `git bundle unbundle` takes a bundle where all that it needs is there, and then
what it holds is there as well. -/
structure Unbundles (localRepo : LocalRepo τ) (objects : τ → Set String) : Prop where
  writeTemp_eq : ∀ path data dir, (localRepo.writeTemp path data dir).1 = true
  objects_writeTemp : ∀ path data dir,
    objects (localRepo.writeTemp path data dir).2 = objects dir
  unbundle_eq : ∀ {data dir}, reachable edge (pack data).needs ⊆ objects dir →
    (localRepo.unbundle data dir).1 = some true
  objects_unbundle : ∀ {data dir}, reachable edge (pack data).needs ⊆ objects dir →
    objects dir ∪ (pack data).holds ⊆ objects (localRepo.unbundle data dir).2

variable {edge pack} {store : BundleStore backend} {localRepo : LocalRepo τ}
  {objects : τ → Set String}

theorem Unbundles.unbundle_eq_ok (hgit : Unbundles edge pack localRepo objects)
    (backend : Backend σ) (sha256 : String) {data : Bytes} (s : σ) {dir : Workdir τ}
    (hneeds : reachable edge (pack data).needs ⊆ objects dir.repo) :
    ∃ after, backend.unbundle localRepo sha256 data (s, dir) = (.ok (), (s, after)) ∧
      objects dir.repo ∪ (pack data).holds ⊆ objects after.repo := by
  have hwritten := hgit.writeTemp_eq
    (localRepo.tempDir ++ "/" ++ backend.label ++ "-" ++ sha256 ++ ".bundle") data dir.repo
  rw [← hgit.objects_writeTemp
    (localRepo.tempDir ++ "/" ++ backend.label ++ "-" ++ sha256 ++ ".bundle") data]
    at hneeds ⊢
  refine ⟨⟨_, dir.handed ++ [(sha256, data)]⟩, ?_, hgit.objects_unbundle hneeds⟩
  unfold Backend.unbundle
  simp only [hwritten, hgit.unbundle_eq hneeds, Bool.not_true, Bool.false_eq_true, if_false,
    if_true]

/-- Bundles that can be installed are fetched, and what they hold is there. -/
theorem Unbundles.fetchBundles_eq_ok (hgit : Unbundles edge pack localRepo objects)
    {s : σ} {bundles : List String} {datas : List Bytes}
    (hbundles : List.Forall₂ (fun sha256 data => store.Holds s sha256 data ∧
      ∃ short, shortSha sha256 = .ok short) bundles datas)
    {present : Set String} (hinstalls : Pack.Installs edge present (datas.map pack))
    (dir : Workdir τ) (hpresent : present ⊆ objects dir.repo) :
    ∃ after, backend.fetchBundles localRepo bundles (s, dir) = (.ok (), (s, after)) ∧
      present ∪ Pack.total (datas.map pack) ⊆ objects after.repo := by
  induction hbundles generalizing present dir with
  | nil =>
      refine ⟨dir, rfl, ?_⟩
      rintro o (ho | ⟨_, hmem, _⟩)
      · exact hpresent ho
      · cases hmem
  | @cons sha256 data bundles datas hfirst _ ih =>
      obtain ⟨hheld, short, hshort⟩ := hfirst
      obtain ⟨hneeds, hrest⟩ := hinstalls
      obtain ⟨middle, hunbundle, hobjects⟩ :=
        hgit.unbundle_eq_ok backend sha256 s (hneeds.trans hpresent)
      obtain ⟨after, hfetch, hafter⟩ := ih hrest middle
        ((Set.union_subset_union_left _ hpresent).trans hobjects)
      have hdownload : Session.onFst (backend.download sha256) (s, dir) =
          (.ok data, (s, dir)) := by
        rw [Session.onFst_apply, store.download_of_holds hheld]
      refine ⟨after, ?_, ?_⟩
      · rw [Backend.fetchBundles, hshort, Session.lift_ok_bind,
          Session.bind_of_ok hdownload, Session.bind_of_ok hunbundle, hfetch]
      · rwa [List.map_cons, Pack.total_cons, ← Set.union_assoc]

/-- A repository whose manifest is intact is fetched, and all that is reachable from its
refs is there. -/
theorem Unbundles.fetch_eq_ok (hgit : Unbundles edge pack localRepo objects)
    (store : BundleStore backend) {s : σ}
    {manifest : RefsManifest} (hread : backend.fetchManifest s = (.ok (some manifest), s))
    (hintact : Intact edge pack store s manifest.bundles manifest.refs)
    (dir : Workdir τ) :
    ∃ after, backend.fetch localRepo (s, dir) = (.ok (), (s, after)) ∧
      reachable edge (RefMap.oids manifest.refs) ⊆ objects after.repo := by
  obtain ⟨datas, hbundles, hcomplete⟩ := hintact
  obtain ⟨after, hfetch, hafter⟩ := hgit.fetchBundles_eq_ok
    (hbundles.imp fun _ _ hentry => hentry.2.2) hcomplete.installs dir
    (Set.empty_subset _)
  refine ⟨after, ?_, ?_⟩
  · have hfetchManifest : Session.onFst backend.fetchManifest (s, dir) =
        (.ok (some manifest), (s, dir)) := by
      rw [Session.onFst_apply, hread]
    unfold Backend.fetch
    rw [Session.bind_of_ok hfetchManifest]
    exact hfetch
  · exact (hcomplete.reachable_subset.trans Set.subset_union_right).trans hafter

/-- A Blossom server has no two blobs of one hash. -/
theorem BlobServer.distinct {name : Bytes → String} (serde : SerdeJson)
    (remote : BlossomRemote) (server : BlobServer name) :
    Distinct (BlobServer.bundleStore serde remote) server := by
  intro data hdata other hother hname
  obtain ⟨blob, hblob, rfl⟩ := List.mem_map.mp hdata
  obtain ⟨otherBlob, hotherBlob, rfl⟩ := List.mem_map.mp hother
  exact server.unique blob hblob otherBlob hotherBlob hname

/-- After successful pushes to a repository without a manifest, on either backend, a
fetch of the manifest that is found succeeds, and then all that is reachable from its
refs is there.  On the IPFS backend no two uploads may have one hash; the server of the
Blossom backend takes no such uploads. -/
theorem fetch_of_pushes (edge : String → String → Prop) (pack : Bytes → Pack String)
    (localRepo : LocalRepo τ) (objects : τ → Set String)
    (hgit : Unbundles edge pack localRepo objects) :
    (∀ (serde : SerdeJson) (remote : BlossomRemote) (name : Bytes → String)
        (start final later : BlobServer name) (calls : List PushCall)
        (manifest : RefsManifest) (dir : Workdir τ),
      (∀ manifest, ¬ BlobServer.Stored serde remote start manifest) →
      Steps (ThinPush edge pack (BlobServer.manifestStore serde remote)) start calls
        final →
      later.blobs.Perm final.blobs →
      remote.fetchManifest serde (BlobServer.site name serde remote.server) later =
        (.ok (some manifest), later) →
      ∃ after, remote.fetch serde (BlobServer.site name serde remote.server) localRepo
          (later, dir) = (.ok (), (later, after)) ∧
        reachable edge (RefMap.oids manifest.refs) ⊆ objects after.repo) ∧
    ∀ (serde : SerdeJson) (prims : Primitives) (hex : Hex) (remote : IpfsRemote)
        (start final : MfsNode) (calls : List PushCall) (manifest : RefsManifest)
        (dir : Workdir τ),
      (∀ manifest, ¬ MfsNode.Stored serde remote start manifest) →
      Steps (ThinPush edge pack (MfsNode.manifestStore serde prims hex remote)) start calls
        final →
      (∀ data ∈ final.written, ∀ other ∈ final.written,
        IpfsRemote.sha256Of prims hex data = IpfsRemote.sha256Of prims hex other →
          data = other) →
      remote.fetchManifest serde (MfsNode.kubo serde) final = (.ok (some manifest), final) →
      ∃ after, remote.fetch serde prims hex (MfsNode.kubo serde) localRepo (final, dir) =
          (.ok (), (final, after)) ∧
        reachable edge (RefMap.oids manifest.refs) ⊆ objects after.repo := by
  constructor
  · intro serde remote name start final later calls manifest dir hempty hrun hdrift hread
    let store : BundleStore (BlobServer.blossom serde remote name) :=
      BlobServer.bundleStore serde remote
    have hstored : BlobServer.Stored serde remote later manifest :=
      store.stored_of_fetchManifest (congrArg Prod.fst hread)
    have hintact := intact_of_steps store hrun hempty
      (BlobServer.distinct serde remote final) manifest
      (store.stored_of_drift hdrift hstored)
    exact hgit.fetch_eq_ok store hread
      (hintact.mono (keeps_drift hdrift) (BlobServer.distinct serde remote later)) dir
  · intro serde prims hex remote start final calls manifest dir hempty hrun hdistinct hread
    let store := MfsNode.bundleStore serde prims hex remote
    exact hgit.fetch_eq_ok store hread (intact_of_steps store hrun
      hempty hdistinct manifest (store.stored_of_fetchManifest (congrArg Prod.fst hread)))
      dir

end Fetch

section Demo

open Classical in
/-- A local repository that is the set of its objects. -/
noncomputable def objectRepo (edge : String → String → Prop) (pack : Bytes → Pack String) :
    LocalRepo (Set String) where
  tempDir := "/tmp"
  writeTemp _ _ objects := (true, objects)
  unbundle data objects :=
    if reachable edge (pack data).needs ⊆ objects then
      (some true, objects ∪ (pack data).holds)
    else (some false, objects)

theorem unbundles_objectRepo (edge : String → String → Prop)
    (pack : Bytes → Pack String) :
    Unbundles edge pack (objectRepo edge pack) id where
  writeTemp_eq _ _ _ := rfl
  objects_writeTemp _ _ _ := rfl
  unbundle_eq hneeds := congrArg Prod.fst (if_pos hneeds)
  objects_unbundle {data objects} hneeds := by
    have hpos : (objectRepo edge pack).unbundle data objects =
        (some true, objects ∪ (pack data).holds) := if_pos hneeds
    rw [hpos]
    exact subset_rfl

/-- A commit `1111` with the tree `2222`. -/
def commitEdge (object child : String) : Prop := object = "1111" ∧ child = "2222"

/-- Every bundle is the one of that commit. -/
def commitPack (_ : Bytes) : Pack String := ⟨∅, reachable commitEdge {"1111"}⟩

theorem bundlesThin_pushMain :
    BundlesThin commitEdge commitPack ⟨mainClone, pushMain⟩ none := by
  intro bundle _
  have hnone : reachable commitEdge (RefMap.oids (prevRefs none)) = ∅ := by
    ext o
    constructor
    · rintro ⟨_, ⟨_, hlookup⟩, _⟩
      cases hlookup
    · exact False.elim
  have hsources : mainClone.sources pushMain = {"1111"} := by
    ext oid
    constructor
    · rintro ⟨spec, hspec, hparse⟩
      rw [List.mem_singleton.mp (List.mem_filter.mp hspec).1, revParse_mainClone] at hparse
      exact (Except.ok.inj hparse).symm
    · rintro rfl
      exact ⟨_, List.mem_singleton_self _, revParse_mainClone⟩
  constructor
  · rw [hnone, Set.sdiff_empty]
    exact congrArg (reachable commitEdge) hsources.symm
  · exact Set.empty_subset _

/-- The first byte of a manifest is a brace. -/
theorem head_toVec (order : IterOrder String) (manifest : RefsManifest) :
    (manifest.toVec SerdeJson.compact order).head? = some 123 := by
  have hrender : ∃ rest, (manifest.toJson order).render = '\x7b' :: rest := ⟨_, rfl⟩
  obtain ⟨rest, hrest⟩ := hrender
  show (utf8 (String.ofList (manifest.toJson order).render)).head? = some 123
  rw [hrest, utf8_ofList, List.flatMap_cons]
  rfl

/-- The toy hash tells messages apart by their first bytes. -/
theorem getD_of_sha256Of_eq {data other : Bytes}
    (hname : IpfsRemote.sha256Of Primitives.beginnings Hex.reference data =
      IpfsRemote.sha256Of Primitives.beginnings Hex.reference other) :
    data.getD 0 0 = other.getD 0 0 := by
  have hbytes := congrArg Hex.reference.decode hname
  rw [IpfsRemote.sha256Of, IpfsRemote.sha256Of, Hex.reference.decode_encode,
    Hex.reference.decode_encode, Option.some.injEq] at hbytes
  have hfirst := congrArg (fun vec : Vector UInt8 32 => vec[0]) (Vector.toList_inj.mp hbytes)
  simpa [Primitives.beginnings] using hfirst

/-- The commit that is pushed and its tree are fetched. -/
theorem fetch_of_pushMain :
    ∃ results node after,
      demoRemote.push SerdeJson.compact Primitives.beginnings Hex.reference
        (MfsNode.kubo SerdeJson.compact) mainClone pushMain MfsNode.empty =
          (.ok results, node) ∧
      demoRemote.fetch SerdeJson.compact Primitives.beginnings Hex.reference
        (MfsNode.kubo SerdeJson.compact) (objectRepo commitEdge commitPack)
        (node, ⟨∅, []⟩) = (.ok (), (node, after)) ∧
      "2222" ∈ after.repo := by
  have hread := MfsNode.fetchManifest_empty SerdeJson.compact demoRemote
  obtain ⟨node, hpush, hstored, hwritten⟩ := MfsNode.exists_push SerdeJson.compact
    Primitives.beginnings Hex.reference demoRemote (congrArg Prod.fst hread)
    (createBundle_mainClone none) shortSha_mainBundle rfl
  have hthin : ThinPush commitEdge commitPack (MfsNode.manifestStore SerdeJson.compact
      Primitives.beginnings Hex.reference demoRemote) MfsNode.empty
        ⟨mainClone, pushMain⟩ node := by
    refine ⟨MfsNode.empty, _, rfl, ?_, hpush⟩
    intro prev hprev
    change (demoRemote.fetchManifest _ _ _).1 = _ at hprev
    rw [hread, Outcome.ok.injEq] at hprev
    exact hprev ▸ bundlesThin_pushMain
  have hdistinct : ∀ data ∈ node.written, ∀ other ∈ node.written,
      IpfsRemote.sha256Of Primitives.beginnings Hex.reference data =
        IpfsRemote.sha256Of Primitives.beginnings Hex.reference other → data = other := by
    have hclash : ∀ order manifest,
        IpfsRemote.sha256Of Primitives.beginnings Hex.reference
          (RefsManifest.toVec SerdeJson.compact order manifest) ≠
        IpfsRemote.sha256Of Primitives.beginnings Hex.reference mainBundle := by
      intro order manifest hname
      have hbyte := getD_of_sha256Of_eq hname
      rw [List.getD_eq_getElem?_getD, ← List.head?_eq_getElem?, head_toVec] at hbyte
      exact absurd hbyte (by decide +kernel)
    rw [hwritten]
    intro data hdata other hother hname
    rcases List.mem_cons.mp hdata with rfl | hdata
    · rcases List.mem_cons.mp hother with rfl | hother
      · rfl
      · rw [List.mem_singleton.mp hother] at hname
        exact absurd hname (hclash _ _)
    · rw [List.mem_singleton.mp hdata] at hname ⊢
      rcases List.mem_cons.mp hother with rfl | hother
      · exact absurd hname.symm (hclash _ _)
      · rw [List.mem_singleton.mp hother]
  obtain ⟨after, hfetch, hreachable⟩ := (fetch_of_pushes commitEdge commitPack
    (objectRepo commitEdge commitPack) id (unbundles_objectRepo _ _)).2 SerdeJson.compact
      Primitives.beginnings Hex.reference demoRemote MfsNode.empty node
      [⟨mainClone, pushMain⟩] _ ⟨∅, []⟩ (fun manifest hnone => by cases hnone)
      (Steps.singleton_iff.mpr hthin) hdistinct
      ((MfsNode.fetchManifest_eq_ok_some_iff _ _).mpr hstored)
  refine ⟨_, node, after, hpush, hfetch, hreachable ?_⟩
  exact ⟨"1111", ⟨"refs/heads/main", lookup_pushMain _⟩,
    Relation.ReflTransGen.single ⟨rfl, rfl⟩⟩

end Demo

end GitHelpers

end Gnostr
