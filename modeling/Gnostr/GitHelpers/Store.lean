/-
What a backend's store does for `push`, whatever it is made of: which manifests a read
may find, which bundles are there, and which write is found by the reads after it.  Both
backends are shown to be such stores; what holds of every run is proved here from it.
-/
import Gnostr.GitHelpers.RemoteHelper
import Gnostr.Lib.Steps

namespace Gnostr

namespace GitHelpers

variable {σ : Type} {backend : Backend σ}

/-- A store of manifests.  Between two calls it may drift, which changes nothing that is
stored. -/
structure ManifestStore (backend : Backend σ) where
  Drift : σ → σ → Prop
  Stored : σ → RefsManifest → Prop
  drift_refl : ∀ s, Drift s s
  drift_trans : ∀ {s t u}, Drift s t → Drift t u → Drift s u
  snd_fetchManifest : ∀ s, (backend.fetchManifest s).2 = s
  stored_of_fetchManifest : ∀ {s manifest},
    (backend.fetchManifest s).1 = .ok (some manifest) → Stored s manifest
  stored_of_drift : ∀ {s t manifest}, Drift s t → Stored t manifest → Stored s manifest
  stored_of_saveBundle : ∀ {s data manifest},
    Stored (backend.saveBundle data s).2 manifest → Stored s manifest
  stored_of_saveManifest : ∀ {s order manifest saved},
    Stored (backend.saveManifest order saved s).2 manifest →
      Stored s manifest ∨ manifest = saved

/-- A store of bundles under their names beside it.  What was uploaded under a name can
only be lost to other bytes of that name. -/
structure BundleStore (backend : Backend σ) extends ManifestStore backend where
  name : Bytes → String
  Holds : σ → String → Bytes → Prop
  uploads : σ → List Bytes
  holds_of_drift : ∀ {s t sha256 data}, Drift s t → Holds s sha256 data →
    Holds t sha256 data
  holds_of_saveBundle : ∀ {s t data sha256},
    backend.saveBundle data s = (.ok sha256, t) →
      sha256 = name data ∧ Holds t sha256 data ∧ data ∈ uploads t ∧
        ∃ short, shortSha sha256 = .ok short
  holds_saveBundle : ∀ {s sha256 data} (other), Holds s sha256 data →
    Holds (backend.saveBundle other s).2 sha256 data ∨
      ∃ clash ∈ uploads (backend.saveBundle other s).2, name clash = sha256 ∧ clash ≠ data
  holds_saveManifest : ∀ {s sha256 data} (order saved), Holds s sha256 data →
    Holds (backend.saveManifest order saved s).2 sha256 data
  uploads_drift : ∀ {s t}, Drift s t → uploads s ⊆ uploads t
  uploads_saveBundle : ∀ s data, uploads s ⊆ uploads (backend.saveBundle data s).2
  uploads_saveManifest : ∀ s order saved,
    uploads s ⊆ uploads (backend.saveManifest order saved s).2
  download_of_holds : ∀ {s sha256 data}, Holds s sha256 data →
    backend.download sha256 s = (.ok data, s)

/-- A store whose reads find the manifest that was written last, when it was written
freshly and a read before it succeeded. -/
structure FreshStore (backend : Backend σ) extends ManifestStore backend where
  Ready : σ → Prop
  Fresh : σ → IterOrder String → RefsManifest → Prop
  Found : σ → RefsManifest → Prop
  ready_of_fetchManifest : ∀ {s prev}, (backend.fetchManifest s).1 = .ok prev → Ready s
  ready_of_drift : ∀ {s t}, Drift s t → Ready s → Ready t
  ready_saveBundle : ∀ {s} (data), Ready s → Ready (backend.saveBundle data s).2
  ready_saveManifest : ∀ {s} (order) {saved}, saved.repo = backend.repo → Ready s →
    Ready (backend.saveManifest order saved s).2
  fetchManifest_of_found : ∀ {s manifest}, Found s manifest →
    backend.fetchManifest s = (.ok (some manifest), s)
  found_of_drift : ∀ {s t manifest}, Drift s t → Found s manifest → Found t manifest
  found_saveManifest : ∀ {s t order saved}, saved.repo = backend.repo → Ready s →
    Fresh s order saved → backend.saveManifest order saved s = (.ok (), t) →
      Found t saved

section Push

/-- A call of `push`: who pushes what. -/
structure PushCall where
  client : Client
  specs : List PushSpec

theorem Backend.uploadBundle_eq_ok_iff {client : Client} {prev : Option RefsManifest}
    {specs : List PushSpec} {bundleSha256 : Option String} {s t : σ} :
    backend.uploadBundle client prev specs s = (.ok bundleSha256, t) ↔
      (client.createBundle prev specs = .ok none ∧ bundleSha256 = none ∧ t = s) ∨
        ∃ bundle sha256, client.createBundle prev specs = .ok (some bundle) ∧
          backend.saveBundle bundle s = (.ok sha256, t) ∧ bundleSha256 = some sha256 := by
  unfold uploadBundle
  rw [Session.bind_eq_ok_iff]
  simp only [Session.lift_eq_ok_iff]
  constructor
  · rintro ⟨created, _, ⟨hcreated, rfl⟩, hrest⟩
    cases created with
    | none =>
        cases hrest
        exact Or.inl ⟨hcreated, rfl, rfl⟩
    | some bundle =>
        obtain ⟨sha256, middle, hsave, hpure⟩ := Session.bind_eq_ok_iff.mp hrest
        cases hpure
        exact Or.inr ⟨bundle, sha256, hcreated, hsave, rfl⟩
  · rintro (⟨hcreated, rfl, rfl⟩ | ⟨bundle, sha256, hcreated, hsave, rfl⟩)
    · exact ⟨none, _, ⟨hcreated, rfl⟩, rfl⟩
    · exact ⟨some bundle, _, ⟨hcreated, rfl⟩,
        Session.bind_eq_ok_iff.mpr ⟨sha256, t, hsave, rfl⟩⟩

/-- Nothing but a bundle is stored by its upload. -/
theorem Backend.snd_uploadBundle (backend : Backend σ) (client : Client)
    (prev : Option RefsManifest) (specs : List PushSpec) (s : σ) :
    (backend.uploadBundle client prev specs s).2 = s ∨
      ∃ bundle, (backend.uploadBundle client prev specs s).2 =
        (backend.saveBundle bundle s).2 := by
  unfold uploadBundle
  rcases hcreated : client.createBundle prev specs with (_ | bundle) | error | _
  · exact Or.inl rfl
  · rw [Session.lift_ok_bind]
    rcases Session.bind_snd (backend.saveBundle bundle) (fun sha256 => pure (some sha256)) s
      with hsame | ⟨_, t, hsave, hsame⟩
    · exact Or.inr ⟨bundle, hsame⟩
    · exact Or.inr ⟨bundle, hsame.trans (congrArg Prod.snd hsave).symm⟩
  · exact Or.inl rfl
  · exact Or.inl rfl

theorem Backend.createBundle_of_uploadBundle {client : Client}
    {prev : Option RefsManifest} {specs : List PushSpec} {bundleSha256 : Option String}
    {s t : σ} (hupload : backend.uploadBundle client prev specs s = (.ok bundleSha256, t)) :
    ∃ bundle, client.createBundle prev specs = .ok bundle := by
  rcases uploadBundle_eq_ok_iff.mp hupload with ⟨hcreated, _⟩ | ⟨_, _, hcreated, _⟩
  · exact ⟨none, hcreated⟩
  · exact ⟨some _, hcreated⟩

/-- A push succeeds when its three parts do. -/
theorem Backend.push_eq_ok_iff {client : Client} {specs : List PushSpec}
    {results : List PushResult} {s t : σ} :
    backend.push client specs s = (.ok results, t) ↔
      ∃ prev bundleSha256 read uploaded, backend.fetchManifest s = (.ok prev, read) ∧
        backend.uploadBundle client prev specs read = (.ok bundleSha256, uploaded) ∧
        backend.saveManifest client.jsonOrder
          (client.nextManifest backend.repo prev bundleSha256 specs) uploaded =
            (.ok (), t) ∧
        results = specs.map client.specResult := by
  unfold push writeManifest
  simp only [Session.bind_eq_ok_iff]
  constructor
  · rintro ⟨prev, read, hread, bundleSha256, uploaded, hupload, _, _, hsave, hpure⟩
    cases hpure
    exact ⟨prev, bundleSha256, read, uploaded, hread, hupload, hsave, rfl⟩
  · rintro ⟨prev, bundleSha256, read, uploaded, hread, hupload, hsave, rfl⟩
    exact ⟨prev, read, hread, bundleSha256, uploaded, hupload, (), t, hsave, rfl⟩

/-- A push with the manifest it has read and the name of the bundle it has uploaded. -/
structure PushRecord extends PushCall where
  prev : Option RefsManifest
  bundleSha256 : Option String

/-- The manifest the push writes. -/
def PushRecord.manifest (record : PushRecord) (repo : String) : RefsManifest :=
  record.client.nextManifest repo record.prev record.bundleSha256 record.specs

/-- A successful push, part by part. -/
structure Backend.Recorded (backend : Backend σ) (s : σ) (record : PushRecord) (t : σ) :
    Prop where
  fetchManifest_eq : backend.fetchManifest s = (.ok record.prev, s)
  exists_uploaded : ∃ uploaded,
    backend.uploadBundle record.client record.prev record.specs s =
      (.ok record.bundleSha256, uploaded) ∧
    backend.saveManifest record.client.jsonOrder (record.manifest backend.repo) uploaded =
      (.ok (), t)

namespace ManifestStore

/-- A push succeeds when there is a record of it. -/
theorem push_eq_ok_iff_recorded (store : ManifestStore backend) {call : PushCall}
    {results : List PushResult} {s t : σ} :
    backend.push call.client call.specs s = (.ok results, t) ↔
      results = call.specs.map call.client.specResult ∧
        ∃ prev bundleSha256, backend.Recorded s ⟨call, prev, bundleSha256⟩ t := by
  rw [Backend.push_eq_ok_iff]
  constructor
  · rintro ⟨prev, bundleSha256, read, uploaded, hread, hupload, hsave, hresults⟩
    have hsame : read = s :=
      (congrArg Prod.snd hread).symm.trans (store.snd_fetchManifest s)
    subst hsame
    exact ⟨hresults, prev, bundleSha256, hread, uploaded, hupload, hsave⟩
  · rintro ⟨hresults, prev, bundleSha256, hread, uploaded, hupload, hsave⟩
    exact ⟨prev, bundleSha256, s, uploaded, hread, hupload, hsave, hresults⟩

/-- A recorded push, after the store may have drifted. -/
def RecordedPush (store : ManifestStore backend) (s : σ) (record : PushRecord) (t : σ) :
    Prop :=
  ∃ drifted, store.Drift s drifted ∧ backend.Recorded drifted record t

/-- Reading leaves the store as it is. -/
theorem fetchManifest_eq (store : ManifestStore backend) {s : σ}
    {prev : Option RefsManifest}
    (hread : (backend.fetchManifest s).1 = .ok prev) :
    backend.fetchManifest s = (.ok prev, s) :=
  Prod.ext hread (store.snd_fetchManifest s)

variable (store : ManifestStore backend)

theorem stored_of_uploadBundle {client : Client} {prev : Option RefsManifest}
    {specs : List PushSpec} {s : σ} {manifest : RefsManifest}
    (hstored : store.Stored (backend.uploadBundle client prev specs s).2 manifest) :
    store.Stored s manifest := by
  rcases backend.snd_uploadBundle client prev specs s with hsame | ⟨bundle, hsame⟩
  · rwa [hsame] at hstored
  · rw [hsame] at hstored
    exact store.stored_of_saveBundle hstored

/-- A push stores nothing but its own manifest, however it ends. -/
theorem stored_of_push {client : Client} {specs : List PushSpec} {s : σ}
    {manifest : RefsManifest}
    (hstored : store.Stored (backend.push client specs s).2 manifest) :
    store.Stored s manifest ∨
      ∃ prev bundle bundleSha256, (backend.fetchManifest s).1 = .ok prev ∧
        client.createBundle prev specs = .ok bundle ∧
        manifest = client.nextManifest backend.repo prev bundleSha256 specs := by
  unfold Backend.push at hstored
  rcases Session.bind_snd backend.fetchManifest _ s with hsame | ⟨prev, read, hread, hsame⟩
  · rw [hsame, store.snd_fetchManifest] at hstored
    exact Or.inl hstored
  have hread' : read = s := (congrArg Prod.snd hread).symm.trans (store.snd_fetchManifest s)
  subst hread'
  rw [hsame] at hstored
  rcases Session.bind_snd (backend.uploadBundle client prev specs) _ read with
    hsame | ⟨bundleSha256, uploaded, hupload, hsame⟩
  · rw [hsame] at hstored
    exact Or.inl (store.stored_of_uploadBundle hstored)
  rw [hsame] at hstored
  obtain ⟨bundle, hcreated⟩ := Backend.createBundle_of_uploadBundle hupload
  have hbefore : store.Stored uploaded manifest → store.Stored read manifest := by
    intro hbefore
    apply store.stored_of_uploadBundle
    rwa [hupload]
  unfold Backend.writeManifest at hstored
  rcases Session.bind_snd (backend.saveManifest client.jsonOrder
      (client.nextManifest backend.repo prev bundleSha256 specs)) _ uploaded with
    hsame | ⟨_, written, hsave, hsame⟩
  · rw [hsame] at hstored
    exact (store.stored_of_saveManifest hstored).imp hbefore
      fun hnew => ⟨prev, bundle, bundleSha256, congrArg Prod.fst hread, hcreated, hnew⟩
  · rw [hsame, Session.pure_apply] at hstored
    have hsaved : (backend.saveManifest client.jsonOrder
      (client.nextManifest backend.repo prev bundleSha256 specs) uploaded).2 = written :=
        congrArg Prod.snd hsave
    rw [← hsaved] at hstored
    exact (store.stored_of_saveManifest hstored).imp hbefore
      fun hnew => ⟨prev, bundle, bundleSha256, congrArg Prod.fst hread, hcreated, hnew⟩

/-- A recorded push stores nothing but its own manifest. -/
theorem stored_of_recorded {s t : σ} {record : PushRecord}
    (hrecorded : backend.Recorded s record t) {manifest : RefsManifest}
    (hstored : store.Stored t manifest) :
    store.Stored s manifest ∨ manifest = record.manifest backend.repo := by
  obtain ⟨_, uploaded, hupload, hsave⟩ := hrecorded
  have hsaved : (backend.saveManifest _ _ uploaded).2 = t := congrArg Prod.snd hsave
  have huploaded : (backend.uploadBundle _ _ _ s).2 = uploaded := congrArg Prod.snd hupload
  rw [← hsaved] at hstored
  refine (store.stored_of_saveManifest hstored).imp_left fun hold => ?_
  rw [← huploaded] at hold
  exact store.stored_of_uploadBundle hold

end ManifestStore

namespace FreshStore

variable (store : FreshStore backend)

theorem ready_uploadBundle (client : Client) (prev : Option RefsManifest)
    (specs : List PushSpec) {s : σ} (hready : store.Ready s) :
    store.Ready (backend.uploadBundle client prev specs s).2 := by
  rcases backend.snd_uploadBundle client prev specs s with hsame | ⟨bundle, hsame⟩
  · rwa [hsame]
  · rw [hsame]
    exact store.ready_saveBundle bundle hready

/-- The manifest that is found is listed. -/
theorem list_of_found {s : σ} {manifest : RefsManifest} (hfound : store.Found s manifest)
    (order : IterOrder String) :
    backend.list order s = (.ok (Backend.gitRefs order manifest), s) := by
  unfold Backend.list
  rw [Session.bind_of_ok (store.fetchManifest_of_found hfound)]
  rfl

end FreshStore

end Push

end GitHelpers

end Gnostr
