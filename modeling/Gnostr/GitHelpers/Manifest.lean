/-
The refs manifest of `git-helpers/src/blossom_backend.rs` and `ipfs_backend.rs`, the
blob descriptors a server lists, and the JSON of both.
-/
import Gnostr.Lib.HashMap
import Gnostr.Types.FilterJson

namespace Gnostr

/-- `serde_json::from_slice` and `to_vec_pretty`.  Of the bytes that were not written
from a value, nothing is said. -/
structure SerdeJson where
  fromSlice : Bytes → Option Json
  toVecPretty : Json → Bytes
  fromSlice_toVecPretty : ∀ {value : Json}, value.fits 127 = true →
    fromSlice (toVecPretty value) = some value

/-- JSON without the spaces. -/
def SerdeJson.compact : SerdeJson where
  fromSlice bytes := (fromUtf8 bytes).bind JsonReader.compact.read
  toVecPretty value := utf8 (String.ofList value.render)
  fromSlice_toVecPretty hfits := by
    rw [fromUtf8_utf8, Option.bind_some]
    exact JsonReader.compact.read_render hfits

namespace GitHelpers

open Gnostr.Types

/-- Reference names with their object ids. -/
abbrev RefMap := Finmap fun _ : String => String

/-- JSON refs manifest. -/
structure RefsManifest where
  repo : String
  refs : RefMap
  head : Option String
  bundles : List String
  prevManifest : Option String

/-- A blob as the server lists it. -/
structure BlobDescriptor where
  sha256 : String
  url : String
  contentType : Option String
  created : Option UInt64
deriving DecidableEq

section Json

def serializeRefs (order : IterOrder String) (refs : RefMap) : Json :=
  .obj ((iterEntries order refs).map fun entry => (entry.1, .str entry.2))

def deserializeRefs : Json → Option RefMap
  | .obj members => (members.mapM fun member =>
      (deserializeString member.2).map fun oid => (member.1, oid)).map (insertEntries ∅)
  | _ => none

/-- The members of a manifest; what is missing or empty is left out. -/
def RefsManifest.members (order : IterOrder String) (manifest : RefsManifest) :
    List (String × Json) :=
  [("repo", .str manifest.repo), ("refs", serializeRefs order manifest.refs)] ++
    optionalMember "head" (manifest.head.map .str) ++
    optionalMember "bundles" (nonEmptyArr .str manifest.bundles) ++
    optionalMember "prev_manifest" (manifest.prevManifest.map .str)

def RefsManifest.toJson (order : IterOrder String) (manifest : RefsManifest) : Json :=
  .obj (manifest.members order)

/-- The manifest that is read from a value: from an object by the names of the fields,
from an array by their order. -/
def RefsManifest.ofJson : Json → Option RefsManifest
  | .obj members => do
      let repo ← (Json.member members "repo").bind deserializeString
      let refs ← (Json.member members "refs").bind deserializeRefs
      let head ← deserializeField members "head" none (deserializeOption deserializeString)
      let bundles ← deserializeField members "bundles" []
        (deserializeList deserializeString)
      let prevManifest ← deserializeField members "prev_manifest" none
        (deserializeOption deserializeString)
      return ⟨repo, refs, head, bundles, prevManifest⟩
  | .arr [repo, refs, head, bundles, prevManifest] => do
      let repo ← deserializeString repo
      let refs ← deserializeRefs refs
      let head ← deserializeOption deserializeString head
      let bundles ← deserializeList deserializeString bundles
      let prevManifest ← deserializeOption deserializeString prevManifest
      return ⟨repo, refs, head, bundles, prevManifest⟩
  | _ => none

def BlobDescriptor.ofJson : Json → Option BlobDescriptor
  | .obj members => do
      let sha256 ← (Json.member members "sha256").bind deserializeString
      let url ← (Json.member members "url").bind deserializeString
      let contentType ← deserializeField members "type" none
        (deserializeOption deserializeString)
      let created ← deserializeField members "created" none
        (deserializeOption deserializeUsize)
      return ⟨sha256, url, contentType, created⟩
  | .arr [sha256, url, contentType, created] => do
      let sha256 ← deserializeString sha256
      let url ← deserializeString url
      let contentType ← deserializeOption deserializeString contentType
      let created ← deserializeOption deserializeUsize created
      return ⟨sha256, url, contentType, created⟩
  | _ => none

/-- `resp["sha256"].as_str()`: the last member of the name counts. -/
def indexString (name : String) : Json → Option String
  | .obj members => (members.reverse.find? fun member => member.1 == name).bind
      fun member => deserializeString member.2
  | _ => none

/-- The bytes a manifest is stored as. -/
def RefsManifest.toVec (serde : SerdeJson) (order : IterOrder String)
    (manifest : RefsManifest) : Bytes :=
  serde.toVecPretty (manifest.toJson order)

/-- The manifest that bytes hold. -/
def RefsManifest.fromSlice (serde : SerdeJson) (bytes : Bytes) : Option RefsManifest :=
  (serde.fromSlice bytes).bind RefsManifest.ofJson

end Json

section RoundTrip

theorem deserializeRefs_serializeRefs (order : IterOrder String) (refs : RefMap) :
    deserializeRefs (serializeRefs order refs) = some refs := by
  have hmap : ((iterEntries order refs).map fun entry => (entry.1, Json.str entry.2)).mapM
      (fun member => (deserializeString member.2).map fun oid => (member.1, oid)) =
        some (iterEntries order refs) := by
    rw [List.mapM_map]
    exact List.mapM_pure.trans (congrArg some (List.map_id _))
  rw [serializeRefs, deserializeRefs, hmap, Option.map_some, insertEntries_iterEntries]

theorem elim_optionString (value : Option String) :
    (value.map Json.str).elim (some none) (deserializeOption deserializeString) =
      some value := by
  cases value <;> rfl

theorem elim_strings (values : List String) :
    (nonEmptyArr Json.str values).elim (some []) (deserializeList deserializeString) =
      some values := by
  rw [elim_nonEmptyArr]
  exact List.mapM_pure.trans (congrArg some (List.map_id _))

/-- The members of a name that a manifest has. -/
theorem RefsManifest.filter_members (order : IterOrder String) (manifest : RefsManifest)
    (name : String) :
    ((manifest.members order).filter fun member => member.1 == name) =
      (if ("repo" == name) = true then [("repo", .str manifest.repo)] else []) ++
        (if ("refs" == name) = true then [("refs", serializeRefs order manifest.refs)]
          else []) ++
        (if ("head" == name) = true then optionalMember "head" (manifest.head.map .str)
          else []) ++
        (if ("bundles" == name) = true then
          optionalMember "bundles" (nonEmptyArr .str manifest.bundles) else []) ++
        (if ("prev_manifest" == name) = true then
          optionalMember "prev_manifest" (manifest.prevManifest.map .str) else []) := by
  have hfirst : ([("repo", Json.str manifest.repo),
      ("refs", serializeRefs order manifest.refs)].filter fun member => member.1 == name) =
        (if ("repo" == name) = true then [("repo", .str manifest.repo)] else []) ++
          (if ("refs" == name) = true then [("refs", serializeRefs order manifest.refs)]
            else []) := by
    cases hrepo : "repo" == name <;> cases hrefs : "refs" == name <;> simp [hrepo, hrefs]
  unfold RefsManifest.members
  rw [List.filter_append, List.filter_append, List.filter_append, hfirst,
    filter_optionalMember fun n => n == name, filter_optionalMember fun n => n == name,
    filter_optionalMember fun n => n == name]

/-- A manifest is read back as it was written. -/
theorem RefsManifest.ofJson_toJson (order : IterOrder String) (manifest : RefsManifest) :
    RefsManifest.ofJson (manifest.toJson order) = some manifest := by
  have hrepo : Json.member (manifest.members order) "repo" = some (.str manifest.repo) := by
    rw [Json.member, manifest.filter_members]
    simp
  have hrefs : Json.member (manifest.members order) "refs" =
      some (serializeRefs order manifest.refs) := by
    rw [Json.member, manifest.filter_members]
    simp
  have hhead : deserializeField (manifest.members order) "head" none
      (deserializeOption deserializeString) = some manifest.head :=
    (deserializeField_of_filter_eq
      ((manifest.filter_members order "head").trans (by simp))).trans (elim_optionString _)
  have hbundles : deserializeField (manifest.members order) "bundles" []
      (deserializeList deserializeString) = some manifest.bundles :=
    (deserializeField_of_filter_eq
      ((manifest.filter_members order "bundles").trans (by simp))).trans (elim_strings _)
  have hprev : deserializeField (manifest.members order) "prev_manifest" none
      (deserializeOption deserializeString) = some manifest.prevManifest :=
    (deserializeField_of_filter_eq
      ((manifest.filter_members order "prev_manifest").trans (by simp))).trans
        (elim_optionString _)
  unfold RefsManifest.toJson RefsManifest.ofJson
  simp only [hrepo, hrefs, hhead, hbundles, hprev, Option.bind_some, deserializeString,
    deserializeRefs_serializeRefs, Option.bind_eq_bind, Option.pure_def]

/-- A manifest is not nested too deeply. -/
theorem RefsManifest.fits_toJson (order : IterOrder String) (manifest : RefsManifest)
    (depth : ℕ) : (manifest.toJson order).fits (depth + 2) = true := by
  have hrefs : (serializeRefs order manifest.refs).fits (depth + 1) = true := by
    rw [serializeRefs, Json.fits, List.all_map, List.all_eq_true]
    exact fun entry _ => fits_str depth entry.2
  have hstring : ∀ value : Option String,
      ∀ value' ∈ value.map Json.str, value'.fits (depth + 1) = true := by
    intro value value' hvalue
    obtain ⟨text, _, rfl⟩ := Option.map_eq_some_iff.mp hvalue
    exact fits_str (depth + 1) text
  rw [RefsManifest.toJson, Json.fits]
  simp only [RefsManifest.members, List.all_append, List.all_cons, List.all_nil, hrefs,
    fits_str, Bool.and_eq_true, Bool.and_true]
  exact ⟨⟨⟨trivial, fits_optionalMember (hstring _)⟩,
    fits_optionalMember (fits_nonEmptyArr (fits_str depth) _)⟩,
    fits_optionalMember (hstring _)⟩

/-- The bytes of a manifest hold it. -/
@[simp] theorem RefsManifest.fromSlice_toVec (serde : SerdeJson) (order : IterOrder String)
    (manifest : RefsManifest) :
    RefsManifest.fromSlice serde (manifest.toVec serde order) = some manifest := by
  rw [RefsManifest.fromSlice, RefsManifest.toVec,
    serde.fromSlice_toVecPretty (manifest.fits_toJson order 125), Option.bind_some,
    ofJson_toJson]

end RoundTrip

end GitHelpers

end Gnostr
