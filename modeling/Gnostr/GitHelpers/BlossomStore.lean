/-
The Blossom backend on a server that keeps its word is a store of manifests and bundles,
and its reads find what was written with the newest time.
-/
import Gnostr.GitHelpers.BlobServer

namespace Gnostr

namespace GitHelpers

namespace BlobServer

variable {name : Bytes → String} (serde : SerdeJson) (remote : BlossomRemote)

/-- The backend of a repository on the server. -/
abbrev blossom (name : Bytes → String) : Backend (BlobServer name) :=
  remote.backend serde (site name serde remote.server)

/-- An upload is refused where other bytes are under its hash. -/
theorem uploadBlob_eq (data : Bytes) (contentType : String) (server : BlobServer name) :
    remote.uploadBlob serde (site name serde remote.server) data contentType server =
      if hclash : server.clashes data = false then
        ((do
          let _ ← shortSha (name data)
          return name data), server.put data contentType hclash)
      else (.err "upload failed", server) := by
  unfold BlossomRemote.uploadBlob
  by_cases hclash : server.clashes data = false
  · have hput : ∀ url, (site name serde remote.server).put url contentType data server =
        (some ⟨200, some (serde.toVecPretty (.obj [("sha256", .str (name data))]))⟩,
          server.put data contentType hclash) := fun url => dif_pos hclash
    have hjson : Response.json serde
        ⟨200, some (serde.toVecPretty (.obj [("sha256", .str (name data))]))⟩ =
          some (.obj [("sha256", .str (name data))]) :=
      serde.fromSlice_toVecPretty rfl
    have hindex : indexString "sha256" (.obj [("sha256", .str (name data))]) =
        some (name data) := rfl
    rw [dif_pos hclash, Session.bind_of_ok (Session.request_eq_ok_iff.mpr (hput _)),
      if_neg (show ¬ Response.isError _ = true by simp [Response.isError]), hjson,
      Outcome.okOr_some, Session.lift_ok_bind, hindex, Outcome.okOr_some,
      Session.lift_ok_bind]
    cases hshort : shortSha (name data) <;> rfl
  · have hput : ∀ url, (site name serde remote.server).put url contentType data server =
        (some ⟨409, none⟩, server) := fun url => dif_neg hclash
    rw [dif_neg hclash, Session.bind_of_ok (Session.request_eq_ok_iff.mpr (hput _)),
      if_pos (show Response.isError _ = true by simp [Response.isError])]
    rfl

theorem mem_of_mem_uploadBlob {data : Bytes} {contentType : String}
    {server : BlobServer name} {blob : Blob}
    (hblob : blob ∈ (remote.uploadBlob serde (site name serde remote.server) data
      contentType server).2.blobs) :
    blob ∈ server.blobs ∨ blob = server.nextBlob data contentType := by
  rw [uploadBlob_eq] at hblob
  split_ifs at hblob with hclash
  · rw [mem_put] at hblob
    exact hblob.symm.imp_right And.right
  · exact Or.inl hblob

theorem mem_uploadBlob_of_mem {data : Bytes} {contentType : String}
    {server : BlobServer name} {blob : Blob} (hblob : blob ∈ server.blobs) :
    blob ∈ (remote.uploadBlob serde (site name serde remote.server) data
      contentType server).2.blobs := by
  rw [uploadBlob_eq]
  split_ifs with hclash
  · rw [mem_put]
    exact Or.inr hblob
  · exact hblob

/-- A successful upload is of bytes whose hash is free or their own. -/
theorem uploadBlob_eq_ok_iff {data : Bytes} {contentType sha256 : String}
    {server after : BlobServer name} :
    remote.uploadBlob serde (site name serde remote.server) data contentType server =
        (.ok sha256, after) ↔
      ∃ hclash : server.clashes data = false,
        after = server.put data contentType hclash ∧ sha256 = name data ∧
          ∃ short, shortSha (name data) = .ok short := by
  rw [uploadBlob_eq]
  split_ifs with hclash
  · simp only [Prod.mk.injEq, Outcome.bind_eq_ok_iff, Outcome.pure_eq, Outcome.ok.injEq,
      hclash, exists_true_left]
    constructor
    · rintro ⟨⟨short, hshort, rfl⟩, rfl⟩
      exact ⟨rfl, rfl, short, hshort⟩
    · rintro ⟨rfl, rfl, short, hshort⟩
      exact ⟨⟨short, hshort, rfl⟩, rfl⟩
  · simp [hclash]

section Manifest

variable {order : IterOrder String} {saved : RefsManifest} {server after : BlobServer name}

/-- A manifest leaves the server as its upload does. -/
theorem uploadManifest_snd :
    (remote.uploadManifest serde (site name serde remote.server) order saved server).2 =
      (remote.uploadBlob serde (site name serde remote.server) (saved.toVec serde order)
        ctManifest server).2 := by
  unfold BlossomRemote.uploadManifest
  rcases Session.bind_snd (remote.uploadBlob serde (site name serde remote.server)
    (saved.toVec serde order) ctManifest) _ server with hsame | ⟨sha256, t, hupload, hsame⟩
  · exact hsame
  · rw [hsame, hupload]
    show ((Session.lift (shortSha sha256) >>= fun _ => pure ()) t).2 = t
    cases shortSha sha256 <;> rfl

theorem uploadManifest_eq_ok
    (hsave : remote.uploadManifest serde (site name serde remote.server) order saved server =
      (.ok (), after)) :
    ∃ hclash : server.clashes (saved.toVec serde order) = false,
      after = server.put (saved.toVec serde order) ctManifest hclash ∧
        ∃ short, shortSha (name (saved.toVec serde order)) = .ok short := by
  obtain ⟨sha256, middle, hupload, hrest⟩ := Session.bind_eq_ok_iff.mp hsave
  obtain ⟨hclash, hafter, _, hshort⟩ := (uploadBlob_eq_ok_iff serde remote).mp hupload
  obtain ⟨_, _, hlift, hpure⟩ := Session.bind_eq_ok_iff.mp hrest
  obtain ⟨_, rfl⟩ := Session.lift_eq_ok_iff.mp hlift
  cases hpure
  exact ⟨hclash, hafter, hshort⟩

end Manifest

section Store

/-- What is listed as a manifest of the repository. -/
def Stored (server : BlobServer name) (manifest : RefsManifest) : Prop :=
  ∃ blob ∈ server.blobs, isManifest blob = true ∧ Own serde remote blob manifest

def Holds (server : BlobServer name) (sha256 : String) (data : Bytes) : Prop :=
  name data = sha256 ∧ ∃ blob ∈ server.blobs, blob.data = data

theorem not_isManifest_bundle (server : BlobServer name) (data : Bytes) :
    isManifest (server.nextBlob data ctBundle) = false := by
  have hne : (some ctBundle == some ctManifest) = false := by decide
  exact hne

theorem isManifest_manifest (server : BlobServer name) (data : Bytes) :
    isManifest (server.nextBlob data ctManifest) = true := by
  exact beq_self_eq_true _

theorem own_manifest (server : BlobServer name) (order : IterOrder String)
    {saved manifest : RefsManifest}
    (hown : Own serde remote (server.nextBlob (saved.toVec serde order) ctManifest)
      manifest) : manifest = saved := by
  have hread := hown.1
  rw [nextBlob, RefsManifest.fromSlice_toVec] at hread
  exact (Option.some.inj hread).symm

/-- The server as a store of manifests; it may list its blobs in another order. -/
def manifestStore : ManifestStore (blossom serde remote name) where
  Drift server later := later.blobs.Perm server.blobs
  Stored := Stored serde remote
  drift_refl _ := List.Perm.refl _
  drift_trans hfirst hsecond := hsecond.trans hfirst
  snd_fetchManifest server := by
    show (remote.fetchManifest serde (site name serde remote.server) server).2 = server
    rw [fetchManifest_eq_search]
  stored_of_fetchManifest {server manifest} hread := by
    change (remote.fetchManifest serde (site name serde remote.server) server).1 = _ at hread
    rw [fetchManifest_eq_search] at hread
    obtain ⟨before, blob, rest, hsplit, _, hown⟩ := search_eq_ok_some serde remote hread
    have hblob : blob ∈ newestFirst server.blobs := by
      rw [hsplit]
      exact List.mem_append_right _ List.mem_cons_self
    obtain ⟨hmem, hmanifest⟩ := mem_newestFirst.mp hblob
    exact ⟨blob, hmem, hmanifest, hown⟩
  stored_of_drift hdrift hstored := by
    obtain ⟨blob, hblob, hrest⟩ := hstored
    exact ⟨blob, hdrift.mem_iff.mp hblob, hrest⟩
  stored_of_saveBundle := by
    intro server data manifest hstored
    obtain ⟨blob, hblob, hmanifest, hown⟩ := hstored
    rcases mem_of_mem_uploadBlob serde remote hblob with hblob | rfl
    · exact ⟨blob, hblob, hmanifest, hown⟩
    · rw [not_isManifest_bundle] at hmanifest
      cases hmanifest
  stored_of_saveManifest := by
    intro server order manifest saved hstored
    obtain ⟨blob, hblob, hmanifest, hown⟩ := hstored
    change blob ∈ (remote.uploadManifest serde (site name serde remote.server) order saved
      server).2.blobs at hblob
    rw [uploadManifest_snd] at hblob
    rcases mem_of_mem_uploadBlob serde remote hblob with hblob | rfl
    · exact Or.inl ⟨blob, hblob, hmanifest, hown⟩
    · exact Or.inr (own_manifest serde remote server order hown)

/-- A blob that is there is downloaded by its hash. -/
theorem downloadBlob_of_holds {server : BlobServer name} {sha256 : String} {data : Bytes}
    (hholds : Holds server sha256 data) :
    remote.downloadBlob (site name serde remote.server) sha256 server =
      (.ok data, server) := by
  obtain ⟨rfl, blob, hblob, rfl⟩ := hholds
  have hget : (site name serde remote.server).get
      (remote.server ++ "/" ++ name blob.data) server =
        (some ⟨200, some blob.data⟩, server) := by
    have hlookup := lookup_blobUrl remote.server hblob
    rw [blobUrl] at hlookup
    simp only [site, hlookup]
  unfold BlossomRemote.downloadBlob
  rw [Session.bind_of_ok (Session.request_eq_ok_iff.mpr hget),
    if_neg (show ¬ Response.isError _ = true by simp [Response.isError]),
    Outcome.okOr_some, Session.lift_apply]

/-- The server as a store of bundles. -/
def bundleStore : BundleStore (blossom serde remote name) where
  toManifestStore := manifestStore serde remote
  name := name
  Holds := Holds
  uploads server := server.blobs.map Blob.data
  holds_of_drift := by
    rintro server later sha256 data hdrift ⟨hname, blob, hblob, hdata⟩
    exact ⟨hname, blob, hdrift.mem_iff.mpr hblob, hdata⟩
  holds_of_saveBundle := by
    intro server later data sha256 hsave
    obtain ⟨hclash, rfl, rfl, hshort⟩ := (uploadBlob_eq_ok_iff serde remote).mp hsave
    obtain ⟨blob, hblob, hdata⟩ := exists_mem_put server data ctBundle hclash
    exact ⟨rfl, ⟨rfl, blob, hblob, hdata⟩, List.mem_map.mpr ⟨blob, hblob, hdata⟩, hshort⟩
  holds_saveBundle := by
    rintro server sha256 data other ⟨hname, blob, hblob, hdata⟩
    exact Or.inl ⟨hname, blob, mem_uploadBlob_of_mem serde remote hblob, hdata⟩
  holds_saveManifest := by
    rintro server sha256 data order saved ⟨hname, blob, hblob, hdata⟩
    refine ⟨hname, blob, ?_, hdata⟩
    show blob ∈ (remote.uploadManifest serde _ order saved server).2.blobs
    rw [uploadManifest_snd]
    exact mem_uploadBlob_of_mem serde remote hblob
  uploads_drift := by
    intro server later hdrift
    exact List.map_subset _ hdrift.symm.subset
  uploads_saveBundle := by
    intro server data
    exact List.map_subset _ fun blob hblob => mem_uploadBlob_of_mem serde remote hblob
  uploads_saveManifest := by
    intro server order saved
    apply List.map_subset
    intro blob hblob
    show blob ∈ (remote.uploadManifest serde _ order saved server).2.blobs
    rw [uploadManifest_snd]
    exact mem_uploadBlob_of_mem serde remote hblob
  download_of_holds hholds := downloadBlob_of_holds serde remote hholds

end Store

section Fresh

/-- Whatever is newer than all manifests of the repository is a manifest of another. -/
def Ready (server : BlobServer name) : Prop :=
  ∀ blob ∈ server.blobs, isManifest blob = true →
    (∀ other ∈ server.blobs, isManifest other = true →
      (∃ manifest, Own serde remote other manifest) → createdAt other < createdAt blob) →
    Foreign serde remote blob

/-- The next upload is listed anew, with a time that is newer than those of all
manifests of the repository. -/
def Fresh (server : BlobServer name) (order : IterOrder String) (saved : RefsManifest) :
    Prop :=
  server.relists (saved.toVec serde order) = true ∧
    ∀ blob ∈ server.blobs, isManifest blob = true →
      (∃ manifest, Own serde remote blob manifest) →
        createdAt blob < (server.stamps 0).created.getD 0

/-- All that may stand before the manifest are manifests of other repositories. -/
def Found (server : BlobServer name) (manifest : RefsManifest) : Prop :=
  ∃ blob ∈ server.blobs, isManifest blob = true ∧ Own serde remote blob manifest ∧
    (∃ short, shortSha (name blob.data) = .ok short) ∧
    ∀ other ∈ server.blobs, isManifest other = true → createdAt blob ≤ createdAt other →
      other = blob ∨ Foreign serde remote other

/-- After a read that succeeded the server is ready. -/
theorem ready_of_fetchManifest {server : BlobServer name} {prev : Option RefsManifest}
    (hread : (remote.fetchManifest serde (site name serde remote.server) server).1 =
      .ok prev) : Ready serde remote server := by
  rw [fetchManifest_eq_search] at hread
  intro blob hblob hmanifest hnewer
  have hmem : blob ∈ newestFirst server.blobs := mem_newestFirst.mpr ⟨hblob, hmanifest⟩
  cases prev with
  | none => exact search_eq_ok_none serde remote hread blob hmem
  | some prev =>
      obtain ⟨before, found, after, hsplit, hbefore, hown⟩ :=
        search_eq_ok_some serde remote hread
      have hsorted := pairwise_newestFirst server.blobs
      have hfound : found ∈ newestFirst server.blobs := by
        rw [hsplit]
        exact List.mem_append_right _ List.mem_cons_self
      obtain ⟨hfoundMem, hfoundManifest⟩ := mem_newestFirst.mp hfound
      have hlt := hnewer found hfoundMem hfoundManifest ⟨prev, hown⟩
      rw [hsplit] at hmem hsorted
      rcases List.mem_append.mp hmem with hmem | hmem
      · exact hbefore blob hmem
      -- what stands behind the one that is found is not newer
      · have hle : createdAt blob ≤ createdAt found := by
          rcases List.mem_cons.mp hmem with rfl | hmem
          · exact UInt64.le_refl _
          · exact (List.pairwise_cons.mp (List.pairwise_append.mp hsorted).2.1).1 blob hmem
        exact absurd hlt (UInt64.not_lt.mpr hle)

/-- A manifest that only those of other repositories may stand before is found, in
whichever order the blobs are listed. -/
theorem fetchManifest_of_found {server : BlobServer name} {manifest : RefsManifest}
    (hfound : Found serde remote server manifest) :
    remote.fetchManifest serde (site name serde remote.server) server =
      (.ok (some manifest), server) := by
  obtain ⟨blob, hblob, hmanifest, hown, ⟨short, hshort⟩, hnewer⟩ := hfound
  obtain ⟨before, after, hsplit, hfirst⟩ :=
    List.eq_append_cons_of_mem (mem_newestFirst.mpr ⟨hblob, hmanifest⟩)
  have hsorted := pairwise_newestFirst server.blobs
  rw [hsplit] at hsorted
  have hbefore : ∀ other ∈ before, Foreign serde remote other := by
    intro other hother
    have hmem : other ∈ newestFirst server.blobs := by
      rw [hsplit]
      exact List.mem_append_left _ hother
    obtain ⟨hotherMem, hotherManifest⟩ := mem_newestFirst.mp hmem
    have hle := (List.pairwise_append.mp hsorted).2.2 other hother blob List.mem_cons_self
    rcases hnewer other hotherMem hotherManifest hle with rfl | hforeign
    · exact absurd hother hfirst
    · exact hforeign
  rw [fetchManifest_eq_search, hsplit,
    search_of_foreign serde remote hbefore hown hshort]

theorem ready_uploadBlob {server : BlobServer name} {data : Bytes} {contentType : String}
    (hnext : isManifest (server.nextBlob data contentType) = true →
      ∃ manifest, Own serde remote (server.nextBlob data contentType) manifest)
    (hready : Ready serde remote server) :
    Ready serde remote (remote.uploadBlob serde (site name serde remote.server) data
      contentType server).2 := by
  intro blob hblob hmanifest hnewer
  rcases mem_of_mem_uploadBlob serde remote hblob with hold | hnew
  · exact hready blob hold hmanifest fun other hother =>
      hnewer other (mem_uploadBlob_of_mem serde remote hother)
  · have hown := hnext (hnew ▸ hmanifest)
    rw [← hnew] at hown
    exact absurd (hnewer blob hblob hmanifest hown) (UInt64.lt_irrefl _)

/-- A manifest that is written freshly is found. -/
theorem found_uploadManifest {server after : BlobServer name} {order : IterOrder String}
    {saved : RefsManifest} (hrepo : saved.repo = remote.repo)
    (hready : Ready serde remote server) (hfresh : Fresh serde remote server order saved)
    (hsave : remote.uploadManifest serde (site name serde remote.server) order saved server =
      (.ok (), after)) : Found serde remote after saved := by
  obtain ⟨hclash, rfl, hshort⟩ := uploadManifest_eq_ok serde remote hsave
  obtain ⟨hrelists, hnewest⟩ := hfresh
  refine ⟨server.nextBlob (saved.toVec serde order) ctManifest,
    mem_put.mpr (Or.inl ⟨hrelists, rfl⟩), isManifest_manifest server _,
    ⟨RefsManifest.fromSlice_toVec serde order saved, hrepo⟩, hshort, ?_⟩
  intro other hother hmanifest hle
  rcases mem_put.mp hother with ⟨_, hsame⟩ | hold
  · exact Or.inl hsame
  · exact Or.inr (hready other hold hmanifest fun own hownMem hownManifest hown =>
      UInt64.lt_of_lt_of_le (hnewest own hownMem hownManifest hown) hle)

/-- The server as a store whose reads find what is written freshly. -/
def freshStore : FreshStore (blossom serde remote name) where
  toManifestStore := manifestStore serde remote
  Ready := Ready serde remote
  Fresh := Fresh serde remote
  Found := Found serde remote
  ready_of_fetchManifest hread := ready_of_fetchManifest serde remote hread
  ready_of_drift := by
    intro server later hdrift hready blob hblob hmanifest hnewer
    exact hready blob (hdrift.mem_iff.mp hblob) hmanifest fun other hother =>
      hnewer other (hdrift.mem_iff.mpr hother)
  ready_saveBundle := by
    intro server data hready
    apply ready_uploadBlob serde remote _ hready
    intro hmanifest
    rw [not_isManifest_bundle] at hmanifest
    cases hmanifest
  ready_saveManifest := by
    intro server order saved hrepo hready
    show Ready serde remote (remote.uploadManifest serde _ order saved server).2
    rw [uploadManifest_snd]
    exact ready_uploadBlob serde remote
      (fun _ => ⟨saved, RefsManifest.fromSlice_toVec serde order saved, hrepo⟩) hready
  fetchManifest_of_found hfound := fetchManifest_of_found serde remote hfound
  found_of_drift := by
    rintro server later manifest hdrift ⟨blob, hblob, hmanifest, hown, hshort, hnewer⟩
    exact ⟨blob, hdrift.mem_iff.mpr hblob, hmanifest, hown, hshort,
      fun other hother => hnewer other (hdrift.mem_iff.mp hother)⟩
  found_saveManifest hrepo hready hfresh hsave :=
    found_uploadManifest serde remote hrepo hready hfresh hsave

end Fresh

section Demo

def demoServer : BlossomRemote where
  server := "https://blossom.gnostr.cloud"
  pubkey := "0123456789abcdef0123456789abcdef0123456789abcdef0123456789abcdef"
  repo := "demo"

/-- A name that tells all bytes apart. -/
def plainName (data : Bytes) : String := "sha256--" ++ Hex.reference.encode data

theorem plainName_injective : Function.Injective plainName := by
  intro data other hname
  unfold plainName at hname
  have hhex : Hex.reference.encode data = Hex.reference.encode other := by
    simpa using hname
  have hbytes := congrArg Hex.reference.decode hhex
  rwa [Hex.reference.decode_encode, Hex.reference.decode_encode, Option.some.injEq]
    at hbytes

theorem shortSha_plainName (data : Bytes) : shortSha (plainName data) = .ok "sha256--" := by
  have hlength : String.utf8Len "sha256--".toList = 8 := by
    decide +kernel
  have hsplit := splitAtByte_append "sha256--".toList (Hex.reference.encode data).toList
  rw [hlength] at hsplit
  rw [shortSha, plainName, String.toList_append, hsplit]
  rfl

theorem clashes_plainName (server : BlobServer plainName) (data : Bytes) :
    server.clashes data = false := by
  rw [clashes, List.any_eq_false]
  intro blob _ hclash
  rw [Bool.and_eq_true, beq_iff_eq, bne_iff_ne] at hclash
  exact hclash.2 (plainName_injective hclash.1)

/-- A server without blobs and its clock. -/
def emptyAt (created : ℕ → Option UInt64) : BlobServer plainName where
  blobs := []
  stamps n := ⟨created n, true⟩
  unique := nofun

theorem blobs_put {server : BlobServer plainName} (data : Bytes) (contentType : String)
    (hrelist : (server.stamps 0).relist = true) :
    (server.put data contentType (clashes_plainName server data)).blobs =
      ⟨data, some contentType, (server.stamps 0).created⟩ :: server.blobs := by
  have hrelists : server.relists data = true := by
    rw [relists, hrelist, Bool.or_true]
  exact if_pos hrelists

theorem uploadManifest_eq (order : IterOrder String) (saved : RefsManifest)
    (server : BlobServer plainName) :
    remote.uploadManifest serde (site plainName serde remote.server) order saved server =
      (.ok (), server.put (saved.toVec serde order) ctManifest
        (clashes_plainName server _)) := by
  have hupload : remote.uploadBlob serde (site plainName serde remote.server)
      (saved.toVec serde order) ctManifest server =
        (.ok (plainName _), server.put _ ctManifest (clashes_plainName server _)) :=
    (uploadBlob_eq_ok_iff serde remote).mpr
      ⟨clashes_plainName server _, rfl, rfl, _, shortSha_plainName _⟩
  refine (Session.bind_of_ok hupload).trans ?_
  rw [shortSha_plainName]
  rfl

/-- A bundle that is created is uploaded. -/
theorem exists_uploaded {client : Client} {specs : List PushSpec}
    {prev : Option RefsManifest} {bundle : Option Bytes} {server : BlobServer plainName}
    (hrelist : ∀ n, (server.stamps n).relist = true)
    (hcreated : client.createBundle prev specs = .ok bundle) :
    ∃ uploaded : BlobServer plainName,
      (blossom serde remote plainName).uploadBundle client prev specs server =
        (.ok (bundle.map plainName), uploaded) ∧
      (∀ n, uploaded.stamps n = server.stamps (n + bundle.toList.length)) ∧
      uploaded.blobs = (bundle.map fun data =>
        (⟨data, some ctBundle, (server.stamps 0).created⟩ : Blob)).toList ++
          server.blobs := by
  cases bundle with
  | none =>
      exact ⟨server, Backend.uploadBundle_eq_ok_iff.mpr (Or.inl ⟨hcreated, rfl, rfl⟩),
        fun _ => rfl, rfl⟩
  | some data =>
      have hsave : (blossom serde remote plainName).saveBundle data server =
          (.ok (plainName data),
            server.put data ctBundle (clashes_plainName server data)) :=
        (uploadBlob_eq_ok_iff serde remote).mpr
          ⟨clashes_plainName server data, rfl, rfl, _, shortSha_plainName data⟩
      exact ⟨_, Backend.uploadBundle_eq_ok_iff.mpr
        (Or.inr ⟨data, _, hcreated, hsave, rfl⟩), fun _ => rfl,
          blobs_put data ctBundle (hrelist 0)⟩

/-- A push succeeds when the manifest is read and the bundle is created. -/
theorem exists_recorded {client : Client} {specs : List PushSpec}
    {prev : Option RefsManifest} {bundle : Option Bytes} {server : BlobServer plainName}
    (hrelist : ∀ n, (server.stamps n).relist = true)
    (hread : (remote.fetchManifest serde (site plainName serde remote.server) server).1 =
      .ok prev) (hcreated : client.createBundle prev specs = .ok bundle)
    {record : PushRecord}
    (hrecord : record = ⟨⟨client, specs⟩, prev, bundle.map plainName⟩) :
    ∃ later : BlobServer plainName,
      (blossom serde remote plainName).Recorded server record later ∧
      (∀ n, later.stamps n = server.stamps (n + 1 + bundle.toList.length)) ∧
      later.blobs =
        ⟨(record.manifest remote.repo).toVec serde client.jsonOrder, some ctManifest,
            (server.stamps bundle.toList.length).created⟩ ::
          ((bundle.map fun data =>
              (⟨data, some ctBundle, (server.stamps 0).created⟩ : Blob)).toList ++
            server.blobs) := by
  subst hrecord
  obtain ⟨uploaded, hupload, hstamps, hblobs⟩ :=
    exists_uploaded serde remote hrelist hcreated
  refine ⟨_, ⟨(manifestStore serde remote).fetchManifest_eq hread, uploaded, hupload,
    uploadManifest_eq serde remote _ _ uploaded⟩, fun n => hstamps (n + 1), ?_⟩
  rw [blobs_put _ _ ((hstamps 0).symm ▸ hrelist _), hstamps, hblobs, Nat.zero_add]
  rfl

theorem fetchManifest_emptyAt (created : ℕ → Option UInt64) :
    (remote.fetchManifest serde (site plainName serde remote.server)
      (emptyAt created)).1 = .ok none := by
  rw [fetchManifest_eq_search]
  simp [emptyAt, newestFirst, search]

/-- The first push: `main` is created. -/
noncomputable def firstPush : PushRecord :=
  ⟨⟨mainClone, pushMain⟩, none, some (plainName mainBundle)⟩

/-- The second push: `main` is deleted again. -/
noncomputable def secondPush : PushRecord :=
  ⟨⟨mainClone, deleteMain⟩, some (firstPush.manifest demoServer.repo), none⟩

/-- The blob of the manifest a push writes. -/
noncomputable def manifestBlob (record : PushRecord) (created : Option UInt64) : Blob :=
  ⟨(record.manifest demoServer.repo).toVec SerdeJson.compact record.client.jsonOrder,
    some ctManifest, created⟩

theorem own_manifestBlob (record : PushRecord) (created : Option UInt64) :
    Own SerdeJson.compact demoServer (manifestBlob record created)
      (record.manifest demoServer.repo) :=
  ⟨RefsManifest.fromSlice_toVec _ _ _, rfl⟩

/-- What is on the server after the two pushes, and after the first of them. -/
theorem exists_twoPushes (created : ℕ → Option UInt64) :
    ∃ middle final : BlobServer plainName,
      (blossom SerdeJson.compact demoServer plainName).Recorded (emptyAt created) firstPush
        middle ∧
      (blossom SerdeJson.compact demoServer plainName).Recorded middle secondPush final ∧
      (∀ n, middle.stamps n = ⟨created (n + 2), true⟩) ∧
      middle.blobs = [manifestBlob firstPush (created 1),
        ⟨mainBundle, some ctBundle, created 0⟩] ∧
      final.blobs = manifestBlob secondPush (created 2) :: middle.blobs := by
  obtain ⟨middle, hfirst, hstamps, hblobs⟩ := exists_recorded SerdeJson.compact demoServer
    (fun _ => rfl) (fetchManifest_emptyAt SerdeJson.compact demoServer created)
    (createBundle_mainClone none) (Eq.refl firstPush)
  have hread : (demoServer.fetchManifest SerdeJson.compact
      (site plainName SerdeJson.compact demoServer.server) middle).1 =
        .ok (some (firstPush.manifest demoServer.repo)) := by
    have hmanifests : middle.blobs.filter isManifest =
        [manifestBlob firstPush (created 1)] := by
      rw [hblobs]
      rfl
    have hnewest : newestFirst middle.blobs = [manifestBlob firstPush (created 1)] := by
      rw [newestFirst, hmanifests, List.mergeSort_singleton]
    rw [fetchManifest_eq_search, hnewest]
    exact search_of_foreign SerdeJson.compact demoServer
      (fun _ hother => absurd hother List.not_mem_nil)
      (own_manifestBlob _ _) (shortSha_plainName _)
  have hdelete : mainClone.createBundle (some (firstPush.manifest demoServer.repo))
      deleteMain = .ok none := if_pos (by decide)
  obtain ⟨final, hsecond, _, hfinal⟩ := exists_recorded SerdeJson.compact demoServer
    (fun n => (hstamps n).symm ▸ rfl) hread hdelete (Eq.refl secondPush)
  refine ⟨middle, final, hfirst, hsecond, hstamps, hblobs, ?_⟩
  rw [hfinal]
  show (⟨_, _, (middle.stamps 0).created⟩ : Blob) :: _ = _
  rw [hstamps]
  rfl

end Demo

end BlobServer

end GitHelpers

end Gnostr
