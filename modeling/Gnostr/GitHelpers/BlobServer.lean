/-
A Blossom server that keeps its word: it stores blobs under their hashes, lists the
blobs of a key in some order, and serves them by their URLs.  The time it notes for an
upload is left open, and so is whether bytes that it knows are listed once more.
-/
import Gnostr.GitHelpers.Blossom
import Gnostr.GitHelpers.Store

namespace Gnostr

namespace GitHelpers

open Gnostr.Types

structure Blob where
  data : Bytes
  contentType : Option String
  created : Option UInt64
deriving DecidableEq

/-- How the server takes an upload. -/
structure Stamp where
  created : Option UInt64
  relist : Bool

/-- The blobs in the order they are listed in, no two of one hash, and the stamps of
the uploads to come. -/
structure BlobServer (name : Bytes → String) where
  blobs : List Blob
  stamps : ℕ → Stamp
  unique : ∀ blob ∈ blobs, ∀ other ∈ blobs, name blob.data = name other.data →
    blob.data = other.data

namespace BlobServer

variable {name : Bytes → String}

def blobUrl (name : Bytes → String) (base : String) (data : Bytes) : String :=
  base ++ "/" ++ name data

def describe (name : Bytes → String) (base : String) (blob : Blob) : BlobDescriptor where
  sha256 := name blob.data
  url := blobUrl name base blob.data
  contentType := blob.contentType
  created := blob.created

/-- The bytes behind a URL. -/
def lookup (base : String) (server : BlobServer name) (url : String) : Option Bytes :=
  (server.blobs.find? fun blob => blobUrl name base blob.data == url).map Blob.data

/-- Other bytes are there under the hash. -/
def clashes (server : BlobServer name) (data : Bytes) : Bool :=
  server.blobs.any fun blob => name blob.data == name data && blob.data != data

def knows (server : BlobServer name) (data : Bytes) : Bool :=
  server.blobs.any fun blob => blob.data == data

/-- The next upload is listed anew: its bytes are not known, or listed once more. -/
def relists (server : BlobServer name) (data : Bytes) : Bool :=
  !server.knows data || (server.stamps 0).relist

/-- The blob the next upload is listed as. -/
def nextBlob (server : BlobServer name) (data : Bytes) (contentType : String) : Blob :=
  ⟨data, some contentType, (server.stamps 0).created⟩

theorem unique_cons {server : BlobServer name} {data : Bytes} {blob : Blob}
    (hdata : blob.data = data) (hclash : server.clashes data = false) :
    ∀ first ∈ blob :: server.blobs, ∀ second ∈ blob :: server.blobs,
      name first.data = name second.data → first.data = second.data := by
  have hnew : ∀ other ∈ server.blobs, name other.data = name data →
      other.data = data := by
    intro other hother hname
    by_contra hne
    have hany : server.clashes data = true :=
      List.any_eq_true.mpr ⟨other, hother, by simp [hname, hne]⟩
    rw [hclash] at hany
    cases hany
  intro first hfirst second hsecond hname
  rcases List.mem_cons.mp hfirst with hfirst' | hfirst'
  · rcases List.mem_cons.mp hsecond with hsecond' | hsecond'
    · rw [hfirst', hsecond']
    · rw [hfirst', hdata] at hname ⊢
      exact (hnew second hsecond' hname.symm).symm
  · rcases List.mem_cons.mp hsecond with hsecond' | hsecond'
    · rw [hsecond', hdata] at hname ⊢
      exact hnew first hfirst' hname
    · exact server.unique first hfirst' second hsecond' hname

/-- The server after an upload: bytes it knows may stay listed as they are. -/
def put (server : BlobServer name) (data : Bytes) (contentType : String)
    (hclash : server.clashes data = false) : BlobServer name where
  blobs :=
    if server.relists data then server.nextBlob data contentType :: server.blobs
    else server.blobs
  stamps n := server.stamps (n + 1)
  unique := by
    split
    · exact unique_cons rfl hclash
    · exact server.unique

@[simp] theorem mem_put {server : BlobServer name} {data : Bytes} {contentType : String}
    {hclash : server.clashes data = false} {blob : Blob} :
    blob ∈ (server.put data contentType hclash).blobs ↔
      server.relists data = true ∧ blob = server.nextBlob data contentType ∨
        blob ∈ server.blobs := by
  show blob ∈ (if server.relists data then server.nextBlob data contentType :: server.blobs
    else server.blobs) ↔ _
  split_ifs with hrelists
  · simp [hrelists]
  · simp [hrelists]

/-- What is uploaded is there afterwards. -/
theorem exists_mem_put (server : BlobServer name) (data : Bytes) (contentType : String)
    (hclash : server.clashes data = false) :
    ∃ blob ∈ (server.put data contentType hclash).blobs, blob.data = data := by
  cases hrelists : server.relists data with
  | true => exact ⟨_, mem_put.mpr (Or.inl ⟨hrelists, rfl⟩), rfl⟩
  | false =>
      have hknown : server.knows data = true := by
        unfold relists at hrelists
        simp only [Bool.or_eq_false_iff, Bool.not_eq_false'] at hrelists
        exact hrelists.1
      obtain ⟨blob, hblob, hdata⟩ := List.any_eq_true.mp hknown
      exact ⟨blob, mem_put.mpr (Or.inr hblob), beq_iff_eq.mp hdata⟩

section Site

def descriptorMembers (descriptor : BlobDescriptor) : List (String × Json) :=
  [("url", .str descriptor.url), ("sha256", .str descriptor.sha256)] ++
    optionalMember "type" (descriptor.contentType.map .str) ++
    optionalMember "created" (descriptor.created.map serializeUsize)

def serializeDescriptor (descriptor : BlobDescriptor) : Json :=
  .obj (descriptorMembers descriptor)

def listBody (serde : SerdeJson) (base : String) (server : BlobServer name) : Bytes :=
  serde.toVecPretty (.arr ((server.blobs.map (describe name base)).map serializeDescriptor))

/-- The answers of the server. -/
def site (name : Bytes → String) (serde : SerdeJson) (base : String) :
    Site (BlobServer name) where
  list _ server :=
    if server.blobs.isEmpty then (some ⟨404, none⟩, server)
    else (some ⟨200, some (server.listBody serde base)⟩, server)
  get url server :=
    match server.lookup base url with
    | some data => (some ⟨200, some data⟩, server)
    | none => (some ⟨404, none⟩, server)
  put _ contentType data server :=
    if hclash : server.clashes data = false then
      (some ⟨200, some (serde.toVecPretty (.obj [("sha256", .str (name data))]))⟩,
        server.put data contentType hclash)
    else (some ⟨409, none⟩, server)

end Site

section Answers

variable {serde : SerdeJson} {base : String} {server : BlobServer name}

/-- A stored blob is behind its URL. -/
theorem lookup_blobUrl (base : String) {blob : Blob} (hblob : blob ∈ server.blobs) :
    server.lookup base (blobUrl name base blob.data) = some blob.data := by
  have hsome : (server.blobs.find? fun other =>
      blobUrl name base other.data == blobUrl name base blob.data).isSome = true :=
    List.find?_isSome.mpr ⟨blob, hblob, beq_self_eq_true _⟩
  obtain ⟨other, hother⟩ := Option.isSome_iff_exists.mp hsome
  have hurl : blobUrl name base other.data = blobUrl name base blob.data := by
    simpa using List.find?_some hother
  have hname : name other.data = name blob.data := by
    unfold blobUrl at hurl
    simpa using hurl
  rw [lookup, hother, Option.map_some,
    server.unique other (List.mem_of_find?_eq_some hother) blob hblob hname]

theorem ofJson_serializeDescriptor (descriptor : BlobDescriptor) :
    BlobDescriptor.ofJson (serializeDescriptor descriptor) = some descriptor := by
  have hfilter : ∀ name, ((descriptorMembers descriptor).filter fun m => m.1 == name) =
      ([("url", Json.str descriptor.url), ("sha256", Json.str descriptor.sha256)].filter
        fun m => m.1 == name) ++
        (if ("type" == name) = true then
          optionalMember "type" (descriptor.contentType.map .str) else []) ++
        (if ("created" == name) = true then
          optionalMember "created" (descriptor.created.map serializeUsize) else []) := by
    intro name
    unfold descriptorMembers
    rw [List.filter_append, List.filter_append, filter_optionalMember fun n => n == name,
      filter_optionalMember fun n => n == name]
  have hurl : Json.member (descriptorMembers descriptor) "url" =
      some (.str descriptor.url) := by
    rw [Json.member, hfilter]
    simp
  have hsha256 : Json.member (descriptorMembers descriptor) "sha256" =
      some (.str descriptor.sha256) := by
    rw [Json.member, hfilter]
    simp
  have htype : deserializeField (descriptorMembers descriptor) "type" none
      (deserializeOption deserializeString) = some descriptor.contentType :=
    (deserializeField_of_filter_eq ((hfilter "type").trans (by simp))).trans
      (elim_optionString _)
  have hcreated : deserializeField (descriptorMembers descriptor) "created" none
      (deserializeOption deserializeUsize) = some descriptor.created :=
    (deserializeField_of_filter_eq ((hfilter "created").trans (by simp))).trans
      (elim_option deserializeOption_serializeUsize _)
  unfold serializeDescriptor BlobDescriptor.ofJson
  simp only [hurl, hsha256, htype, hcreated, Option.bind_some, deserializeString,
    Option.bind_eq_bind, Option.pure_def]

/-- A list of blobs is not nested too deeply. -/
theorem fits_serializeDescriptor (descriptor : BlobDescriptor) (depth : ℕ) :
    (serializeDescriptor descriptor).fits (depth + 1) = true := by
  have hstring : ∀ value' ∈ descriptor.contentType.map Json.str,
      value'.fits depth = true := by
    intro value' hvalue
    obtain ⟨text, _, rfl⟩ := Option.map_eq_some_iff.mp hvalue
    exact fits_str depth text
  have hnumber : ∀ value' ∈ descriptor.created.map serializeUsize,
      value'.fits depth = true := by
    intro value' hvalue
    obtain ⟨number, _, rfl⟩ := Option.map_eq_some_iff.mp hvalue
    have hlt := number.toNat_lt
    rw [serializeUsize, Json.fits]
    exact decide_eq_true ⟨by omega, by omega⟩
  rw [serializeDescriptor, Json.fits]
  simp only [descriptorMembers, List.all_append, List.all_cons, List.all_nil, fits_str,
    Bool.and_eq_true, Bool.and_true]
  exact ⟨⟨trivial, fits_optionalMember hstring⟩, fits_optionalMember hnumber⟩

/-- The list of the blobs is read back. -/
theorem deserializeBlobs_list (serde : SerdeJson) (descriptors : List BlobDescriptor) :
    (serde.fromSlice (serde.toVecPretty
      (.arr (descriptors.map serializeDescriptor)))).bind deserializeBlobs =
        some descriptors := by
  have hfits : (Json.arr (descriptors.map serializeDescriptor)).fits 127 = true := by
    rw [Json.fits, List.all_map, List.all_eq_true]
    exact fun descriptor _ => fits_serializeDescriptor descriptor 125
  rw [serde.fromSlice_toVecPretty hfits, Option.bind_some, deserializeBlobs, List.mapM_map]
  simp only [Function.comp_def, ofJson_serializeDescriptor]
  exact List.mapM_pure.trans (congrArg some (List.map_id _))

end Answers

section Search

variable (serde : SerdeJson) (remote : BlossomRemote)

/-- Listed as a manifest. -/
def isManifest (blob : Blob) : Bool := blob.contentType == some ctManifest

def createdAt (blob : Blob) : UInt64 := blob.created.getD 0

/-- A manifest of another repository. -/
def Foreign (blob : Blob) : Prop :=
  ∃ manifest, RefsManifest.fromSlice serde blob.data = some manifest ∧
    manifest.repo ≠ remote.repo

/-- A manifest of this repository. -/
def Own (blob : Blob) (manifest : RefsManifest) : Prop :=
  RefsManifest.fromSlice serde blob.data = some manifest ∧ manifest.repo = remote.repo

/-- The manifest blobs, newest first. -/
def newestFirst (blobs : List Blob) : List Blob :=
  (blobs.filter isManifest).mergeSort fun a b => decide (createdAt b ≤ createdAt a)

/-- What `fetch_manifest` does with the candidates once they are all served. -/
def search (name : Bytes → String) : List Blob → Outcome String (Option RefsManifest)
  | [] => .ok none
  | blob :: rest => do
      let manifest ← Outcome.okOr "parse manifest JSON"
        (RefsManifest.fromSlice serde blob.data)
      if manifest.repo = remote.repo then do
        let _ ← shortSha (name blob.data)
        return some manifest
      else search name rest

theorem mem_newestFirst {blobs : List Blob} {blob : Blob} :
    blob ∈ newestFirst blobs ↔ blob ∈ blobs ∧ isManifest blob = true := by
  rw [newestFirst, List.mem_mergeSort, List.mem_filter]

/-- No blob stands before a newer one. -/
theorem pairwise_newestFirst (blobs : List Blob) :
    (newestFirst blobs).Pairwise fun a b => createdAt b ≤ createdAt a := by
  let newer : Blob → Blob → Bool := fun a b => decide (createdAt b ≤ createdAt a)
  have htrans : ∀ a b c, newer a b = true → newer b c = true → newer a c = true :=
    fun a b c hab hbc => decide_eq_true
      (UInt64.le_trans (of_decide_eq_true hbc) (of_decide_eq_true hab))
  have htotal : ∀ a b, (newer a b || newer b a) = true := fun a b => by
    simpa [newer] using UInt64.le_total (createdAt b) (createdAt a)
  exact (List.pairwise_mergeSort htrans htotal (blobs.filter isManifest)).imp
    of_decide_eq_true

theorem candidates_map_describe (name : Bytes → String) (base : String)
    (blobs : List Blob) :
    candidates (blobs.map (describe name base)) =
      (newestFirst blobs).map (describe name base) := by
  rw [candidates, List.filter_map, newestFirst, List.map_mergeSort]
  · rfl
  · intro a _ b _
    rfl

/-- The loop over served candidates is the search. -/
theorem firstManifest_eq_search {server : BlobServer name} {blobs : List Blob}
    (hblobs : ∀ blob ∈ blobs, blob ∈ server.blobs) :
    remote.firstManifest serde (site name serde remote.server)
        (blobs.map (describe name remote.server)) server =
      (search serde remote name blobs, server) := by
  induction blobs with
  | nil => rfl
  | cons blob rest ih =>
      obtain ⟨hblob, hrest⟩ := List.forall_mem_cons.mp hblobs
      have hget : (site name serde remote.server).get
          (describe name remote.server blob).url server =
            (some ⟨200, some blob.data⟩, server) := by
        simp only [site, describe, lookup_blobUrl _ hblob]
      have hrequest : ∀ error : String, Session.request error
          ((site name serde remote.server).get (describe name remote.server blob).url)
            server = (.ok ⟨200, some blob.data⟩, server) := fun error =>
        Session.request_eq_ok_iff.mpr hget
      rw [List.map_cons, BlossomRemote.firstManifest, Session.bind_of_ok (hrequest _), search]
      show (Session.lift (Outcome.okOr "parse manifest JSON"
        (RefsManifest.fromSlice serde blob.data)) >>= _) server = _
      cases hmanifest : RefsManifest.fromSlice serde blob.data with
      | none => rfl
      | some manifest =>
          rw [Outcome.okOr_some, Session.lift_ok_bind, Outcome.ok_bind]
          by_cases hrepo : manifest.repo = remote.repo
          · rw [if_pos hrepo, if_pos hrepo]
            show (Session.lift (shortSha (name blob.data)) >>= _) server = _
            cases shortSha (name blob.data) <;> rfl
          · rw [if_neg hrepo, if_neg hrepo]
            exact ih hrest

/-- The server is searched newest first. -/
theorem fetchManifest_eq_search (server : BlobServer name) :
    remote.fetchManifest serde (site name serde remote.server) server =
      (search serde remote name (newestFirst server.blobs), server) := by
  unfold BlossomRemote.fetchManifest
  cases hempty : server.blobs.isEmpty with
  | true =>
      have hlist : ∀ url, (site name serde remote.server).list url server =
          (some ⟨404, none⟩, server) := fun url => if_pos hempty
      rw [Session.bind_of_ok (Session.request_eq_ok_iff.mpr (hlist _))]
      rw [List.isEmpty_iff.mp hempty]
      simp [newestFirst, search]
  | false =>
      have hlist : ∀ url, (site name serde remote.server).list url server =
          (some ⟨200, some (server.listBody serde remote.server)⟩, server) :=
        fun url => if_neg (by simp [hempty])
      rw [Session.bind_of_ok (Session.request_eq_ok_iff.mpr (hlist _))]
      have hblobs : ((⟨200, some (server.listBody serde remote.server)⟩ :
          Response).json serde).bind deserializeBlobs =
            some (server.blobs.map (describe name remote.server)) :=
        deserializeBlobs_list serde _
      rw [if_neg (show 200 ≠ 404 by decide), hblobs, Outcome.okOr_some, Session.lift_ok_bind,
        candidates_map_describe, firstManifest_eq_search]
      exact fun blob hblob => (mem_newestFirst.mp hblob).1

/-- The first of the blobs is found, or it is of another repository and the search
goes on. -/
theorem of_search_cons_eq_ok {name : Bytes → String} {blob : Blob} {rest : List Blob}
    {found : Option RefsManifest}
    (hsearch : search serde remote name (blob :: rest) = .ok found) :
    (∃ manifest, found = some manifest ∧ Own serde remote blob manifest) ∨
      Foreign serde remote blob ∧ search serde remote name rest = .ok found := by
  rw [search, Outcome.bind_eq_ok_iff] at hsearch
  obtain ⟨read, hread, hsearch⟩ := hsearch
  rw [Outcome.okOr_eq_ok_iff] at hread
  split_ifs at hsearch with hrepo
  · obtain ⟨_, _, hpure⟩ := Outcome.bind_eq_ok_iff.mp hsearch
    cases hpure
    exact .inl ⟨read, rfl, hread, hrepo⟩
  · exact .inr ⟨⟨read, hread, hrepo⟩, hsearch⟩

/-- The search ends at the first manifest of the repository; all before it are of
others. -/
theorem search_eq_ok_some {name : Bytes → String} {blobs : List Blob}
    {manifest : RefsManifest}
    (hsearch : search serde remote name blobs = .ok (some manifest)) :
    ∃ before blob after, blobs = before ++ blob :: after ∧
      (∀ other ∈ before, Foreign serde remote other) ∧ Own serde remote blob manifest := by
  induction blobs with
  | nil => cases hsearch
  | cons blob rest ih =>
      rcases of_search_cons_eq_ok serde remote hsearch with
        ⟨_, hfound, hown⟩ | ⟨hforeign, hrest⟩
      · cases hfound
        exact ⟨[], blob, rest, rfl, List.forall_mem_nil _, hown⟩
      · obtain ⟨before, found, after, rfl, hbefore, hown⟩ := ih hrest
        exact ⟨blob :: before, found, after, rfl,
          List.forall_mem_cons.mpr ⟨hforeign, hbefore⟩, hown⟩

/-- Where nothing is found, all are of others. -/
theorem search_eq_ok_none {name : Bytes → String} {blobs : List Blob}
    (hsearch : search serde remote name blobs = .ok none) :
    ∀ blob ∈ blobs, Foreign serde remote blob := by
  induction blobs with
  | nil => exact List.forall_mem_nil _
  | cons blob rest ih =>
      rcases of_search_cons_eq_ok serde remote hsearch with
        ⟨_, hfound, _⟩ | ⟨hforeign, hrest⟩
      · cases hfound
      · exact List.forall_mem_cons.mpr ⟨hforeign, ih hrest⟩

/-- A manifest of the repository behind those of others is found. -/
theorem search_of_foreign {name : Bytes → String} {before after : List Blob} {blob : Blob}
    {manifest : RefsManifest} (hbefore : ∀ other ∈ before, Foreign serde remote other)
    (hown : Own serde remote blob manifest) {short : String}
    (hshort : shortSha (name blob.data) = .ok short) :
    search serde remote name (before ++ blob :: after) = .ok (some manifest) := by
  induction before with
  | nil =>
      rw [List.nil_append, search, hown.1, Outcome.okOr_some, Outcome.ok_bind,
        if_pos hown.2, hshort]
      rfl
  | cons other before ih =>
      obtain ⟨⟨read, hread, hrepo⟩, hrest⟩ := List.forall_mem_cons.mp hbefore
      rw [List.cons_append, search, hread, Outcome.okOr_some, Outcome.ok_bind,
        if_neg hrepo]
      exact ih hrest

end Search

end BlobServer

end GitHelpers

end Gnostr
