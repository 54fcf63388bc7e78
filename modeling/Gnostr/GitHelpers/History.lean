/-
The `prev_manifest` links of the Blossom backend.  They are documented as the hashes of
the manifests before, but a push writes the last bundle of the manifest it has read; so
the manifests of a repository form a chain only as long as there is at most one.
-/
import Gnostr.GitHelpers.BlossomStore

namespace Gnostr

namespace GitHelpers

variable {name : Bytes → String}

/-- The first manifest links to none, and every other one to the one before it. -/
structure ManifestChain (repo : String) (sha256 : PushRecord → String)
    (records : List PushRecord) : Prop where
  first : ∀ record ∈ records.head?, (record.manifest repo).prevManifest = none
  later : records.IsChain fun earlier later =>
    (later.manifest repo).prevManifest = some (sha256 earlier)

namespace BlobServer

variable (serde : SerdeJson) (remote : BlossomRemote)

/-- The bytes of the manifest a push uploads. -/
def manifestBytes (record : PushRecord) : Bytes :=
  (record.manifest remote.repo).toVec serde record.client.jsonOrder

/-- The bundles of a push are no manifests. -/
def BundlesNoManifest (record : PushRecord) : Prop :=
  ∀ bundle, record.client.createBundle record.prev record.specs = .ok (some bundle) →
    RefsManifest.fromSlice serde bundle = none

theorem prev_eq_none {s t : BlobServer name} {record : PushRecord}
    (hempty : ∀ manifest, ¬ Stored serde remote s manifest)
    (hpush : (manifestStore serde remote).RecordedPush s record t) : record.prev = none := by
  obtain ⟨drifted, hdrift, hrecorded⟩ := hpush
  cases hprev : record.prev with
  | none => rfl
  | some manifest =>
      have hread := congrArg Prod.fst hrecorded.fetchManifest_eq
      rw [hprev] at hread
      exact absurd ((manifestStore serde remote).stored_of_drift hdrift
        ((manifestStore serde remote).stored_of_fetchManifest hread)) (hempty manifest)

/-- What a push leaves: its manifest, and its bundle under the name it was given. -/
theorem mem_of_recordedPush {s t : BlobServer name} {record : PushRecord}
    (hpush : (manifestStore serde remote).RecordedPush s record t) :
    (∃ blob ∈ t.blobs, blob.data = manifestBytes serde remote record) ∧
      ∀ sha256 ∈ record.bundleSha256, ∃ bundle,
        record.client.createBundle record.prev record.specs = .ok (some bundle) ∧
          name bundle = sha256 ∧ ∃ blob ∈ t.blobs, blob.data = bundle := by
  obtain ⟨drifted, hdrift, hread, uploaded, hupload, hsave⟩ := hpush
  obtain ⟨hclash, rfl, _⟩ := uploadManifest_eq_ok serde remote hsave
  refine ⟨exists_mem_put uploaded _ ctManifest hclash, ?_⟩
  intro sha256 hsha256
  rcases Backend.uploadBundle_eq_ok_iff.mp hupload with
    ⟨_, hnone, _⟩ | ⟨bundle, found, hcreated, hsaved, hsome⟩
  · rw [hnone] at hsha256
    cases hsha256
  · rw [hsome] at hsha256
    cases hsha256
    obtain ⟨hbundleClash, rfl, rfl, _⟩ := (uploadBlob_eq_ok_iff serde remote).mp hsaved
    obtain ⟨blob, hblob, hdata⟩ := exists_mem_put drifted bundle ctBundle hbundleClash
    exact ⟨bundle, hcreated, rfl, blob, mem_put.mpr (Or.inr hblob), hdata⟩

/-- After the first push the only manifest of the repository is its own. -/
theorem prev_of_second {start s t : BlobServer name} {first second : PushRecord}
    (hempty : ∀ manifest, ¬ Stored serde remote start manifest)
    (hfirst : (manifestStore serde remote).RecordedPush start first s)
    (hsecond : (manifestStore serde remote).RecordedPush s second t) :
    ∀ prev ∈ second.prev, prev = first.manifest remote.repo := by
  intro prev hprev
  obtain ⟨drifted, hdrift, hrecorded⟩ := hsecond
  have hread := congrArg Prod.fst hrecorded.fetchManifest_eq
  rw [hprev] at hread
  have hstored : Stored serde remote s prev :=
    (manifestStore serde remote).stored_of_drift hdrift
      ((manifestStore serde remote).stored_of_fetchManifest hread)
  obtain ⟨before, hbefore, hrecordedFirst⟩ := hfirst
  refine ((manifestStore serde remote).stored_of_recorded hrecordedFirst
    hstored).resolve_left fun hold => ?_
  exact hempty prev ((manifestStore serde remote).stored_of_drift hbefore hold)

/-- The second of two pushes does not link to the manifest of the first. -/
theorem prevManifest_ne {start s t : BlobServer name} {first second : PushRecord}
    (hempty : ∀ manifest, ¬ Stored serde remote start manifest)
    (hfirst : (manifestStore serde remote).RecordedPush start first s)
    (hsecond : (manifestStore serde remote).RecordedPush s second t)
    (hbundles : BundlesNoManifest serde first) :
    (second.manifest remote.repo).prevManifest ≠
      some (name (manifestBytes serde remote first)) := by
  intro hlink
  change (second.prev.bind fun manifest => manifest.bundles.getLast?) = _ at hlink
  obtain ⟨prev, hprev, hlast⟩ := Option.bind_eq_some_iff.mp hlink
  obtain ⟨⟨blob, hblob, hdata⟩, hbundle⟩ := mem_of_recordedPush serde remote hfirst
  have hmanifest := prev_of_second serde remote hempty hfirst hsecond prev hprev
  -- the only bundle the second push can link to is the one of the first
  have hsha256 : first.bundleSha256 = some (name (manifestBytes serde remote first)) := by
    rw [hmanifest, PushRecord.manifest, Client.nextManifest, prev_eq_none serde remote hempty
      hfirst] at hlast
    cases hfirstSha : first.bundleSha256 with
    | none =>
        rw [hfirstSha] at hlast
        cases hlast
    | some sha256 =>
        rw [hfirstSha] at hlast
        exact hlast
  obtain ⟨bundle, hcreated, hname, other, hother, rfl⟩ := hbundle _ hsha256
  have hsame := s.unique other hother blob hblob (hname.trans (hdata ▸ rfl))
  have hread := hbundles other.data hcreated
  rw [hsame, hdata, manifestBytes, RefsManifest.fromSlice_toVec] at hread
  cases hread

/-- The manifests of successful pushes to a repository without one form a chain exactly
when there is at most one push, as long as no bundle is the text of a manifest. -/
theorem manifestChain_iff (serde : SerdeJson) (remote : BlossomRemote)
    (name : Bytes → String) (start final : BlobServer name) (records : List PushRecord)
    (hempty : ∀ manifest, ¬ Stored serde remote start manifest)
    (hrun : Steps (manifestStore serde remote).RecordedPush start records final)
    (hbundles : ∀ record ∈ records, BundlesNoManifest serde record) :
    ManifestChain remote.repo (fun record => name (manifestBytes serde remote record))
        records ↔ records.length ≤ 1 := by
  match records with
  | [] => exact iff_of_true ⟨nofun, List.IsChain.nil⟩ (Nat.zero_le 1)
  | [record] =>
      have hprev := prev_eq_none serde remote hempty (Steps.singleton_iff.mp hrun)
      refine iff_of_true ⟨?_, List.isChain_singleton _⟩ le_rfl
      intro first hfirst
      cases hfirst
      show (record.prev.bind fun manifest => manifest.bundles.getLast?) = none
      rw [hprev, Option.bind_none]
  | first :: second :: rest =>
      obtain ⟨s, hfirst, hrest⟩ := Steps.cons_iff.mp hrun
      obtain ⟨t, hsecond, _⟩ := Steps.cons_iff.mp hrest
      refine iff_of_false (fun hchain => ?_) (by simp)
      exact prevManifest_ne serde remote hempty hfirst hsecond
        (hbundles first List.mem_cons_self) (List.isChain_cons_cons.mp hchain.later).1

section Examples

theorem not_stored_emptyAt (created : ℕ → Option UInt64) (manifest : RefsManifest) :
    ¬ Stored serde remote (emptyAt created) manifest := by
  rintro ⟨_, hblob, _⟩
  cases hblob

theorem bundlesNoManifest_firstPush : BundlesNoManifest SerdeJson.compact firstPush := by
  intro bundle hcreated
  change mainClone.createBundle none pushMain = _ at hcreated
  rw [createBundle_mainClone, Outcome.ok.injEq, Option.some.injEq] at hcreated
  have hread : SerdeJson.compact.fromSlice mainBundle = none := by
    decide +kernel
  rw [← hcreated, RefsManifest.fromSlice, hread, Option.bind_none]

/-- One push makes a chain. -/
theorem manifestChain_firstPush :
    ∃ final, Steps (manifestStore SerdeJson.compact demoServer).RecordedPush
        (emptyAt fun _ => none) [firstPush] final ∧
      ManifestChain demoServer.repo
        (fun record => plainName (manifestBytes SerdeJson.compact demoServer record))
        [firstPush] := by
  obtain ⟨middle, _, hfirst, _⟩ := exists_twoPushes fun _ => none
  have hrun : Steps (manifestStore SerdeJson.compact demoServer).RecordedPush
      (emptyAt fun _ => none) [firstPush] middle :=
    Steps.singleton_iff.mpr ⟨_, List.Perm.refl _, hfirst⟩
  refine ⟨middle, hrun, ?_⟩
  refine (manifestChain_iff SerdeJson.compact demoServer plainName _ middle [firstPush]
    (not_stored_emptyAt _ _ _) hrun fun record hrecord => ?_).mpr le_rfl
  rw [List.mem_singleton.mp hrecord]
  exact bundlesNoManifest_firstPush

/-- A second push, which only deletes, does not link to the first. -/
theorem not_manifestChain_twoPushes :
    (∃ final, Steps (manifestStore SerdeJson.compact demoServer).RecordedPush
        (emptyAt fun _ => none) [firstPush, secondPush] final) ∧
      ¬ ManifestChain demoServer.repo
        (fun record => plainName (manifestBytes SerdeJson.compact demoServer record))
        [firstPush, secondPush] := by
  obtain ⟨middle, final, hfirst, hsecond, _⟩ := exists_twoPushes fun _ => none
  have hfirst' : (manifestStore SerdeJson.compact demoServer).RecordedPush
      (emptyAt fun _ => none) firstPush middle := ⟨_, List.Perm.refl _, hfirst⟩
  have hsecond' : (manifestStore SerdeJson.compact demoServer).RecordedPush
      middle secondPush final := ⟨_, List.Perm.refl _, hsecond⟩
  refine ⟨⟨final, Steps.cons_iff.mpr ⟨middle, hfirst', Steps.singleton_iff.mpr hsecond'⟩⟩,
    fun hchain => ?_⟩
  exact prevManifest_ne SerdeJson.compact demoServer (not_stored_emptyAt _ _ _) hfirst'
    hsecond' bundlesNoManifest_firstPush (List.isChain_cons_cons.mp hchain.later).1

end Examples

end BlobServer

end GitHelpers

end Gnostr
