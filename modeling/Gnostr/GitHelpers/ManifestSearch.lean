/-
The search for the manifest of a repository among blobs that do not change: it stops
at the first blob that is no manifest, whatever stands behind it.
-/
import Gnostr.GitHelpers.Untrusted

namespace Gnostr

namespace GitHelpers

/-- A list is cut in one way before the first element that has a value. -/
theorem eq_of_first_split {α β : Type} {f : α → Option β}
    {before before' after after' : List α} {a a' : α}
    (hsame : before ++ a :: after = before' ++ a' :: after')
    (hbefore : ∀ b ∈ before, f b = none) (ha : (f a).isSome = true)
    (hbefore' : ∀ b ∈ before', f b = none) (ha' : (f a').isSome = true) :
    before = before' ∧ a = a' := by
  have htake : ∀ (before after : List α) (a : α), (∀ b ∈ before, f b = none) →
      (f a).isSome = true →
        (before ++ a :: after).takeWhile (fun b => (f b).isNone) = before := by
    intro before after a hnone hsome
    rw [List.takeWhile_append_of_pos fun b hb => by rw [hnone b hb]; rfl,
      List.takeWhile_cons_of_neg (by simpa [Option.isSome_iff_ne_none] using hsome),
      List.append_nil]
  have hsplit : before = before' := by
    rw [← htake before after a hbefore ha, hsame,
      htake before' after' a' hbefore' ha']
  rw [hsplit, List.append_cancel_left_eq] at hsame
  exact ⟨hsplit, (List.cons.inj hsame).1⟩

namespace BlossomRemote

/-- A server with one list of blobs, each of which is answered in one way. -/
def frozenSite (listing : Response) (content : String → Option Response) :
    Site Unit where
  list _ _ := (some listing, ())
  get url _ := (content url, ())
  put _ _ _ _ := (none, ())

variable (serde : SerdeJson) (content : String → Option Response)
  (remote : BlossomRemote)

/-- The manifest of a blob that can be downloaded and read. -/
def manifestOf (blob : BlobDescriptor) : Option RefsManifest :=
  (content blob.url).bind fun resp => (resp.json serde).bind RefsManifest.ofJson

/-- It, if it is of this repository. -/
def ownManifest (blob : BlobDescriptor) : Option RefsManifest :=
  (manifestOf serde content blob).filter fun manifest => manifest.repo == remote.repo

/-- The manifest of the newest blob that holds one of this repository. -/
def newestManifest (blobs : List BlobDescriptor) : Option RefsManifest :=
  (candidates blobs).findSome? (ownManifest serde content remote)

variable {serde content remote}

theorem ownManifest_eq_some_iff {blob : BlobDescriptor} {manifest : RefsManifest} :
    ownManifest serde content remote blob = some manifest ↔
      manifestOf serde content blob = some manifest ∧
        manifest.repo = remote.repo := by
  rw [ownManifest, Option.filter_eq_some_iff, beq_iff_eq]

theorem mem_candidates {blobs : List BlobDescriptor} {blob : BlobDescriptor} :
    blob ∈ candidates blobs ↔ blob ∈ blobs ∧ blob.contentType = some ctManifest := by
  rw [candidates, List.mem_mergeSort, List.mem_filter, beq_iff_eq]

/-- No blob with a manifest of this repository is newer. -/
theorem newestManifest_spec {blobs : List BlobDescriptor} {manifest : RefsManifest}
    (hnewest : newestManifest serde content remote blobs = some manifest) :
    ∃ blob ∈ blobs, blob.contentType = some ctManifest ∧
      ownManifest serde content remote blob = some manifest ∧
        ∀ other ∈ blobs, other.contentType = some ctManifest →
          (ownManifest serde content remote other).isSome = true →
            other.createdAt ≤ blob.createdAt := by
  obtain ⟨before, blob, after, hsplit, hown, hbefore⟩ :=
    List.findSome?_eq_some_iff.mp hnewest
  have htrans : ∀ a b c : BlobDescriptor, decide (b.createdAt ≤ a.createdAt) = true →
      decide (c.createdAt ≤ b.createdAt) = true →
        decide (c.createdAt ≤ a.createdAt) = true := fun _ _ _ hab hbc =>
    decide_eq_true (UInt64.le_trans (of_decide_eq_true hbc) (of_decide_eq_true hab))
  have htotal : ∀ a b : BlobDescriptor, (decide (b.createdAt ≤ a.createdAt) ||
      decide (a.createdAt ≤ b.createdAt)) = true := fun a b => by
    rw [Bool.or_eq_true, decide_eq_true_eq, decide_eq_true_eq]
    exact UInt64.le_total _ _
  have hsorted := List.pairwise_mergeSort htrans htotal
    (blobs.filter fun blob => blob.contentType == some ctManifest)
  rw [← candidates] at hsorted
  have hmem : blob ∈ candidates blobs := by
    rw [hsplit]
    exact List.mem_append_right _ List.mem_cons_self
  obtain ⟨hblob, htype⟩ := mem_candidates.mp hmem
  refine ⟨blob, hblob, htype, hown, fun other hother hotherType hsome => ?_⟩
  have hcandidate := mem_candidates.mpr ⟨hother, hotherType⟩
  rw [hsplit] at hcandidate hsorted
  rcases List.mem_append.mp hcandidate with hearlier | hlater
  · rw [hbefore other hearlier] at hsome
    cases hsome
  · rcases List.mem_cons.mp hlater with rfl | hlater
    · exact UInt64.le_refl _
    · have hpair := (List.pairwise_cons.mp (List.pairwise_append.mp hsorted).2.1).1
      exact of_decide_eq_true (hpair other hlater)

section Search

variable {listing : Response}

/-- What is found among blobs that do not change: everything before it is a manifest
of another repository. -/
theorem finds_frozenSite_iff {blobs : List BlobDescriptor} {blob : BlobDescriptor}
    {manifest : RefsManifest} :
    Finds serde (frozenSite listing content) remote blobs () blob manifest () ↔
      ∃ before after, blobs = before ++ blob :: after ∧
        (∀ earlier ∈ before, ∃ other, manifestOf serde content earlier = some other ∧
          other.repo ≠ remote.repo) ∧
        ownManifest serde content remote blob = some manifest := by
  constructor
  · intro hfind
    induction blobs with
    | nil => cases hfind
    | cons first rest ih =>
        obtain ⟨resp, read, middle, hget, hjson, hcases⟩ := hfind.exists_first
        have hmanifest : manifestOf serde content first = some read :=
          Option.bind_eq_some_iff.mpr ⟨resp, congrArg Prod.fst hget, hjson⟩
        rcases hcases with ⟨hrepo, rfl, rfl, _⟩ | ⟨hrepo, hrest⟩
        · exact ⟨[], rest, rfl, nofun,
            ownManifest_eq_some_iff.mpr ⟨hmanifest, hrepo⟩⟩
        · obtain ⟨before, after, rfl, hbefore, hown⟩ := ih hrest
          exact ⟨first :: before, after, rfl,
            List.forall_mem_cons.mpr ⟨⟨read, hmanifest, hrepo⟩, hbefore⟩, hown⟩
  · rintro ⟨before, after, rfl, hbefore, hown⟩
    induction before with
    | nil =>
        obtain ⟨hmanifest, hrepo⟩ := ownManifest_eq_some_iff.mp hown
        obtain ⟨resp, hcontent, hjson⟩ := Option.bind_eq_some_iff.mp hmanifest
        exact .here (Prod.ext hcontent rfl) hjson hrepo
    | cons first before ih =>
        obtain ⟨⟨other, hmanifest, hrepo⟩, hbefore⟩ := List.forall_mem_cons.mp hbefore
        obtain ⟨resp, hcontent, hjson⟩ := Option.bind_eq_some_iff.mp hmanifest
        exact .there (Prod.ext hcontent rfl) hjson hrepo (ih hbefore)

variable {blobs : List BlobDescriptor}

theorem fst_fetchManifest_frozenSite_iff (hstatus : listing.status ≠ 404)
    (hlisting : (listing.json serde).bind deserializeBlobs = some blobs)
    {manifest : RefsManifest} :
    (remote.fetchManifest serde (frozenSite listing content) ()).1 =
        .ok (some manifest) ↔
      ∃ before blob after, candidates blobs = before ++ blob :: after ∧
        (∀ earlier ∈ before, ∃ other, manifestOf serde content earlier = some other ∧
          other.repo ≠ remote.repo) ∧
        ownManifest serde content remote blob = some manifest ∧
          HasPrefix blob.sha256 := by
  have hresult : (remote.fetchManifest serde (frozenSite listing content) ()).1 =
        .ok (some manifest) ↔
      remote.fetchManifest serde (frozenSite listing content) () =
        (.ok (some manifest), ()) :=
    ⟨fun hfst => Prod.ext hfst rfl, congrArg Prod.fst⟩
  have houtcome := @fetchManifest_outcome _ serde (frozenSite listing content) remote ()
  rw [hresult, houtcome.some_iff]
  constructor
  · rintro ⟨blob, ⟨resp, _, listed, hlist, _, hblobs, hfind⟩, hcut⟩
    cases hlist
    cases hlisting.symm.trans hblobs
    obtain ⟨before, after, hsplit, hbefore, hown⟩ := finds_frozenSite_iff.mp hfind
    exact ⟨before, blob, after, hsplit, hbefore, hown, hcut⟩
  · rintro ⟨before, blob, after, hsplit, hbefore, hown, hcut⟩
    exact ⟨blob, ⟨listing, (), blobs, rfl, hstatus, hlisting,
      finds_frozenSite_iff.mpr ⟨before, after, hsplit, hbefore, hown⟩⟩, hcut⟩

/-- Among any blobs the newest manifest of this repository is returned exactly when
every manifest blob that comes before it can be downloaded and read, and its own hash
can be cut for the message. -/
theorem fetchManifest_newest_iff (serde : SerdeJson)
    (content : String → Option Response) (remote : BlossomRemote) (listing : Response)
    (blobs : List BlobDescriptor) (hstatus : listing.status ≠ 404)
    (hlisting : (listing.json serde).bind deserializeBlobs = some blobs) :
    (∀ manifest, newestManifest serde content remote blobs = some manifest →
      (remote.fetchManifest serde (frozenSite listing content) ()).1 =
        .ok (some manifest)) ↔
      ∀ before blob after, candidates blobs = before ++ blob :: after →
        (∀ earlier ∈ before, ownManifest serde content remote earlier = none) →
        (ownManifest serde content remote blob).isSome = true →
          (∀ earlier ∈ before, (manifestOf serde content earlier).isSome = true) ∧
            HasPrefix blob.sha256 := by
  constructor
  · intro hreturns before blob after hsplit hnone hsome
    obtain ⟨manifest, hown⟩ := Option.isSome_iff_exists.mp hsome
    have hnewest : newestManifest serde content remote blobs = some manifest :=
      List.findSome?_eq_some_iff.mpr ⟨before, blob, after, hsplit, hown, hnone⟩
    obtain ⟨before', blob', after', hsplit', hothers, hown', hcut⟩ :=
      (fst_fetchManifest_frozenSite_iff hstatus hlisting).mp
        (hreturns manifest hnewest)
    have hnone' : ∀ earlier ∈ before',
        ownManifest serde content remote earlier = none := by
      intro earlier hearlier
      obtain ⟨other, hother, hrepo⟩ := hothers earlier hearlier
      rw [ownManifest, hother]
      exact Option.filter_some_neg (beq_eq_false_iff_ne.mpr hrepo)
    obtain ⟨rfl, rfl⟩ := eq_of_first_split (hsplit.symm.trans hsplit') hnone hsome
      hnone' (hown' ▸ rfl)
    refine ⟨fun earlier hearlier => ?_, hcut⟩
    obtain ⟨other, hother, _⟩ := hothers earlier hearlier
    rw [hother]
    rfl
  · intro hreadable manifest hnewest
    obtain ⟨before, blob, after, hsplit, hown, hnone⟩ :=
      List.findSome?_eq_some_iff.mp hnewest
    obtain ⟨hbefore, hcut⟩ := hreadable before blob after hsplit hnone (hown ▸ rfl)
    refine (fst_fetchManifest_frozenSite_iff hstatus hlisting).mpr
      ⟨before, blob, after, hsplit, fun earlier hearlier => ?_, hown, hcut⟩
    obtain ⟨other, hother⟩ := Option.isSome_iff_exists.mp (hbefore earlier hearlier)
    refine ⟨other, hother, fun hrepo => ?_⟩
    have hsome := ownManifest_eq_some_iff.mpr ⟨hother, hrepo⟩
    rw [hnone earlier hearlier] at hsome
    cases hsome

end Search

section Demo

/-- A blob of a manifest. -/
def manifestBlob (name : String) (created : UInt64) : BlobDescriptor :=
  ⟨name, "/" ++ name, some ctManifest, some created⟩

/-- Two blobs, the newer one first. -/
def twoBlobs : List BlobDescriptor :=
  [manifestBlob "fedcba9876543210" 2, manifestBlob "0123456789abcdef" 1]

/-- What the server lists. -/
def twoBlobsJson : Json :=
  .arr [.arr [.str "fedcba9876543210", .str "/fedcba9876543210", .str ctManifest, .int 2],
    .arr [.str "0123456789abcdef", .str "/0123456789abcdef", .str ctManifest, .int 1]]

def respond (value : Json) : Response :=
  ⟨200, some (SerdeJson.compact.toVecPretty value)⟩

theorem json_respond {value : Json} (hfits : value.fits 127 = true) :
    (respond value).json SerdeJson.compact = some value :=
  SerdeJson.compact.fromSlice_toVecPretty hfits

/-- A manifest of a repository without references. -/
def emptyManifest (repo : String) : Json :=
  .arr [.str repo, .obj [], .null, .arr [], .null]

/-- The older blob holds a manifest of the repository, the newer one what is given. -/
def twoContents (newer : Json) (url : String) : Option Response :=
  if url = "/fedcba9876543210" then some (respond newer)
  else some (respond (emptyManifest "demo"))

def searchedServer : BlossomRemote := ⟨"https://blossom.gnostr.cloud", "", "demo"⟩

theorem candidates_twoBlobs : candidates twoBlobs = twoBlobs := by
  have hfilter : (twoBlobs.filter fun blob => blob.contentType == some ctManifest) =
      twoBlobs := by decide +kernel
  rw [candidates, hfilter]
  apply List.mergeSort_of_pairwise
  decide

theorem blobs_twoBlobsJson : ((respond twoBlobsJson).json SerdeJson.compact).bind
    deserializeBlobs = some twoBlobs := by
  rw [json_respond (by decide), Option.bind_some]
  decide +kernel

theorem manifestOf_newer {newer : Json} (hfits : newer.fits 127 = true) :
    manifestOf SerdeJson.compact (twoContents newer) (manifestBlob "fedcba9876543210" 2) =
      RefsManifest.ofJson newer := by
  have hcontent : twoContents newer (manifestBlob "fedcba9876543210" 2).url =
      some (respond newer) := if_pos (by decide)
  rw [manifestOf, hcontent, Option.bind_some, json_respond hfits, Option.bind_some]

theorem manifestOf_older (newer : Json) :
    manifestOf SerdeJson.compact (twoContents newer) (manifestBlob "0123456789abcdef" 1) =
      some ⟨"demo", ∅, none, [], none⟩ := by
  have hcontent : twoContents newer (manifestBlob "0123456789abcdef" 1).url =
      some (respond (emptyManifest "demo")) := if_neg (by decide)
  rw [manifestOf, hcontent, Option.bind_some, json_respond (by decide),
    Option.bind_some]
  rfl

/-- A newer blob that is no manifest hides the one of the repository. -/
theorem not_fetchManifest_newest :
    newestManifest SerdeJson.compact (twoContents .null) searchedServer twoBlobs =
        some ⟨"demo", ∅, none, [], none⟩ ∧
      (searchedServer.fetchManifest SerdeJson.compact
          (frozenSite (respond twoBlobsJson) (twoContents .null)) ()).1 ≠
        .ok (some ⟨"demo", ∅, none, [], none⟩) := by
  have hnewer := manifestOf_newer (by decide : Json.null.fits 127 = true)
  have hnull : RefsManifest.ofJson .null = none := rfl
  rw [hnull] at hnewer
  constructor
  · have hown : ownManifest SerdeJson.compact (twoContents .null) searchedServer
        (manifestBlob "0123456789abcdef" 1) = some ⟨"demo", ∅, none, [], none⟩ :=
      ownManifest_eq_some_iff.mpr ⟨manifestOf_older .null, rfl⟩
    have hother : ownManifest SerdeJson.compact (twoContents .null) searchedServer
        (manifestBlob "fedcba9876543210" 2) = none := by
      rw [ownManifest, hnewer]
      rfl
    rw [newestManifest, candidates_twoBlobs, twoBlobs, List.findSome?_cons, hother,
      List.findSome?_cons, hown]
  · intro hfetch
    obtain ⟨before, blob, after, hsplit, hbefore, hown, _⟩ :=
      (fst_fetchManifest_frozenSite_iff (by decide) blobs_twoBlobsJson).mp hfetch
    rw [candidates_twoBlobs, twoBlobs] at hsplit
    cases before with
    | nil =>
        rw [← (List.cons.inj hsplit).1, ownManifest, hnewer] at hown
        cases hown
    | cons first before =>
        obtain ⟨other, hother, _⟩ := hbefore first List.mem_cons_self
        rw [← (List.cons.inj hsplit).1, hnewer] at hother
        cases hother

/-- Past a manifest of another repository it is found. -/
theorem fetchManifest_newest_iff_twoBlobs :
    (respond twoBlobsJson).status ≠ 404 ∧
      ((respond twoBlobsJson).json SerdeJson.compact).bind deserializeBlobs =
          some twoBlobs ∧
        ∀ manifest, newestManifest SerdeJson.compact
            (twoContents (emptyManifest "other")) searchedServer twoBlobs =
              some manifest →
          (searchedServer.fetchManifest SerdeJson.compact
            (frozenSite (respond twoBlobsJson)
              (twoContents (emptyManifest "other"))) ()).1 = .ok (some manifest) := by
  have hstatus : (respond twoBlobsJson).status ≠ 404 := by decide
  have hreadable : ∀ blob ∈ twoBlobs, (manifestOf SerdeJson.compact
      (twoContents (emptyManifest "other")) blob).isSome = true := by
    intro blob hblob
    rcases List.mem_cons.mp hblob with rfl | hblob
    · rw [manifestOf_newer (by decide)]
      rfl
    · rw [List.mem_singleton.mp hblob, manifestOf_older]
      rfl
  have hcut : ∀ blob ∈ twoBlobs, HasPrefix blob.sha256 := by decide
  refine ⟨hstatus, blobs_twoBlobsJson, (fetchManifest_newest_iff SerdeJson.compact
    (twoContents (emptyManifest "other")) searchedServer (respond twoBlobsJson) twoBlobs
    hstatus blobs_twoBlobsJson).mpr ?_⟩
  intro before blob after hsplit _ _
  rw [candidates_twoBlobs] at hsplit
  refine ⟨fun earlier hearlier => hreadable earlier ?_, hcut blob ?_⟩
  · rw [hsplit]
    exact List.mem_append_left _ hearlier
  · rw [hsplit]
    exact List.mem_append_right _ List.mem_cons_self

end Demo

end BlossomRemote

end GitHelpers

end Gnostr
