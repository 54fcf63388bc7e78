/-
The endpoints of the crawler that serve files from its configuration directory:
`get_bucket_entries`, `get_bucket_file` and `get_nip_relay_json` of `crawler/src/api.rs`.
-/
import Gnostr.Lib.Paths
import Gnostr.Crawler.QueryPages

namespace Gnostr

namespace Crawler

open Gnostr.UnixPath

section Handlers

inductive FileType
  | dir
  | file
  | other
deriving DecidableEq

/-- The length of a file, and the second of its last change, if it is known. -/
structure Metadata where
  len : UInt64
  modified : Option UInt64

/-- What the file system tells of an entry of a directory. -/
structure DirEntry where
  fileName : String
  fileType : Option FileType
  metadata : Option Metadata

/-- What the handlers read, and how a name is put into lower case. -/
structure Files where
  readDir : UnixPath → Except String (List DirEntry)
  readToString : UnixPath → Except String String
  toLowercase : String → String

structure CrawlerBucketEntry where
  path : String
  name : String
  isDirectory : Bool
  sizeBytes : Option UInt64
  modifiedAtUnix : Option UInt64

def CrawlerBucketEntry.toJson (entry : CrawlerBucketEntry) : Json :=
  let number (value : Option UInt64) : Json :=
    value.elim .null fun value => .int value.toNat
  .obj [("path", .str entry.path), ("name", .str entry.name),
    ("is_directory", .bool entry.isDirectory), ("size_bytes", number entry.sizeBytes),
    ("modified_at_unix", number entry.modifiedAtUnix)]

def sanitizeBucketPath (path : UnixPath) : Option UnixPath :=
  path.components.foldlM
    (fun relative component =>
      match component with
      | .normal part => some (relative.join part)
      | .curDir => some relative
      | _ => none)
    []

/-- The item of an entry.  A hidden file has none. -/
def bucketItem (relative : UnixPath) (entry : DirEntry) : Option CrawlerBucketEntry := do
  if entry.fileName.startsWith "." then none
  let fileType ← entry.fileType
  return {
    path :=
      if relative = [] then entry.fileName
      else String.ofList relative ++ "/" ++ entry.fileName
    name := entry.fileName
    isDirectory := fileType = .dir
    sizeBytes := (entry.metadata.map Metadata.len).filter fun _ => fileType = .file
    modifiedAtUnix := entry.metadata.bind Metadata.modified }

/-- Directories come first, and then the names in their order. -/
def bucketItemLe (files : Files) (a b : CrawlerBucketEntry) : Bool :=
  if a.isDirectory ≠ b.isDirectory then a.isDirectory
  else files.toLowercase a.name ≤ files.toLowercase b.name

variable (files : Files) (root : UnixPath)

/-- An answer, and the path that was opened for it. -/
def getBucketEntries (params : Params) : Response × List UnixPath :=
  let relativePath := (nonEmptyParam params "path").getD ""
  match sanitizeBucketPath relativePath.toList with
  | none => (⟨400, "", "invalid bucket path"⟩, [])
  | some relative =>
      let directory := root.join relative
      match files.readDir directory with
      | .error e => (⟨404, "", "Failed to read bucket directory: " ++ e⟩, [directory])
      | .ok entries =>
          let items :=
            (entries.filterMap (bucketItem relative)).mergeSort (bucketItemLe files)
          (⟨200, "application/json",
            String.ofList (Json.arr (items.map CrawlerBucketEntry.toJson)).render⟩,
            [directory])

def getBucketFile (params : Params) : Response × List UnixPath :=
  let relativePath := (nonEmptyParam params "path").getD ""
  match sanitizeBucketPath relativePath.toList with
  | none => (⟨400, "", "invalid bucket path"⟩, [])
  | some relative =>
      let filePath := root.join relative
      match files.readToString filePath with
      | .error e => (⟨404, "", "Failed to read bucket file: " ++ e⟩, [filePath])
      | .ok content => (⟨200, "text/plain; charset=utf-8", content⟩, [filePath])

/-- The segment of the request is decoded, so that it may hold any character. -/
def getNipRelayJson (nipLower : Int32) (relayFile : String) : Response × List UnixPath :=
  let configDir := root.join (toString nipLower).toList
  let filePath := configDir.join relayFile.toList
  if ¬ ".json".toList <:+ relayFile.toList then
    (⟨400, "", "Expected a .json relay file"⟩, [])
  else
    match files.readToString filePath with
    | .error e => (⟨404, "", "Failed to read nip relay json: " ++ e⟩, [filePath])
    | .ok content => (⟨200, "application/json", content⟩, [filePath])

end Handlers

section Sanitize

theorem isName_of_mem_components {path : UnixPath} {name : List Char}
    (hmem : .normal name ∈ path.components) : IsName name := by
  have hbody : Component.normal name ∈ path.body := by
    unfold components at hmem
    split_ifs at hmem
    · exact (List.mem_cons.mp hmem).resolve_left Component.noConfusion
    · exact (List.mem_cons.mp hmem).resolve_left Component.noConfusion
    · exact hmem
  obtain ⟨part, hpart, hcomponent⟩ := List.mem_filterMap.mp hbody
  have hname : part = name := by
    unfold component? at hcomponent
    split_ifs at hcomponent
    · exact Component.noConfusion (Option.some.inj hcomponent)
    · exact Component.normal.inj (Option.some.inj hcomponent)
  subst hname
  exact ⟨hcomponent, not_mem_of_mem_splitOn hpart⟩

/-- What the sanitizer lets through is relative and has names only. -/
structure IsSanitized (relative : UnixPath) : Prop where
  not_isAbsolute : ¬ relative.IsAbsolute
  names : ∀ component ∈ relative.body, ∃ name, component = .normal name

theorem isSanitized_nil : IsSanitized [] where
  not_isAbsolute habsolute := Option.some_ne_none '/' habsolute.symm
  names _ hcomponent := absurd hcomponent List.not_mem_nil

theorem IsSanitized.join {relative : UnixPath} {name : List Char}
    (hrelative : IsSanitized relative) (hname : IsName name) :
    IsSanitized (relative.join name) where
  not_isAbsolute := not_isAbsolute_join hrelative.not_isAbsolute hname.not_isAbsolute
  names := by
    rw [body_join hname.not_isAbsolute, hname.body]
    intro component hcomponent
    rcases List.mem_append.mp hcomponent with hbefore | hlast
    · exact hrelative.names component hbefore
    · exact ⟨name, List.mem_singleton.mp hlast⟩

theorem isSanitized_of_sanitizeBucketPath {path relative : UnixPath}
    (hsanitize : sanitizeBucketPath path = some relative) : IsSanitized relative := by
  have hnames : ∀ name, .normal name ∈ path.components → IsName name :=
    fun _ => isName_of_mem_components
  unfold sanitizeBucketPath at hsanitize
  generalize path.components = components at hsanitize hnames
  generalize hstart : ([] : UnixPath) = start at hsanitize
  have hsanitized : IsSanitized start := hstart ▸ isSanitized_nil
  clear hstart
  induction components generalizing start with
  | nil =>
      cases hsanitize
      exact hsanitized
  | cons component components ih =>
      have hrest name (hname : .normal name ∈ components) : IsName name :=
        hnames name (List.mem_cons_of_mem _ hname)
      rw [List.foldlM_cons] at hsanitize
      cases component with
      | rootDir => cases hsanitize
      | parentDir => cases hsanitize
      | curDir => exact ih hrest start hsanitize hsanitized
      | normal name =>
          exact ih hrest _ hsanitize (hsanitized.join (hnames name List.mem_cons_self))

theorem IsSanitized.inside {relative : UnixPath} (hrelative : IsSanitized relative)
    (root : UnixPath) : Inside root (root.join relative) :=
  (inside_join_iff hrelative.not_isAbsolute).mpr
    (isSome_descend_of_normal hrelative.names 0)

end Sanitize

section Confined

variable {files : Files} {root : UnixPath}

theorem inside_of_sanitizeBucketPath {path opened relative : UnixPath}
    (hsanitize : sanitizeBucketPath path = some relative)
    (hopened : opened ∈ [root.join relative]) : Inside root opened := by
  rw [List.mem_singleton.mp hopened]
  exact (isSanitized_of_sanitizeBucketPath hsanitize).inside root

theorem inside_of_mem_getBucketEntries {params : Params} {path : UnixPath}
    (hpath : path ∈ (getBucketEntries files root params).2) : Inside root path := by
  unfold getBucketEntries at hpath
  dsimp only at hpath
  split at hpath
  · exact absurd hpath List.not_mem_nil
  · rename_i relative hsanitize
    split at hpath
    · exact inside_of_sanitizeBucketPath hsanitize hpath
    · exact inside_of_sanitizeBucketPath hsanitize hpath

theorem inside_of_mem_getBucketFile {params : Params} {path : UnixPath}
    (hpath : path ∈ (getBucketFile files root params).2) : Inside root path := by
  unfold getBucketFile at hpath
  dsimp only at hpath
  split at hpath
  · exact absurd hpath List.not_mem_nil
  · rename_i relative hsanitize
    split at hpath
    · exact inside_of_sanitizeBucketPath hsanitize hpath
    · exact inside_of_sanitizeBucketPath hsanitize hpath

theorem toList_toString (nipLower : Int32) :
    (toString nipLower).toList = decimalInt nipLower.toInt := by
  change (nipLower.toInt.repr).toList = _
  cases nipLower.toInt with
  | ofNat number => exact Nat.toList_repr
  | negSucc number =>
      change ("-" ++ (number + 1).repr).toList = _
      rw [String.toList_append, Nat.toList_repr]
      rfl

/-- The directory of a NIP has a name for a component. -/
theorem isName_toString (nipLower : Int32) : IsName (toString nipLower).toList := by
  rw [toList_toString]
  have hdot := @not_mem_decimalInt '.' (by decide) (by decide) nipLower.toInt
  have hslash := @not_mem_decimalInt '/' (by decide) (by decide) nipLower.toInt
  generalize hname : decimalInt nipLower.toInt = name at hdot hslash
  have hnil : name ≠ [] := hname ▸ decimalInt_ne_nil nipLower.toInt
  refine ⟨?_, hslash⟩
  have hcurrent : name ≠ ['.'] := fun heq => hdot (heq ▸ List.mem_cons_self)
  have hparent : name ≠ ['.', '.'] := fun heq => hdot (heq ▸ List.mem_cons_self)
  rw [component?, if_neg (not_or_intro hnil hcurrent), if_neg hparent]

/-- The name of a relay file leads nowhere outside, from the directory of a NIP. -/
def RelayFileStays (root relayFile : UnixPath) : Prop :=
  if relayFile.IsAbsolute then Inside root relayFile
  else (descend relayFile.body 1).isSome

theorem inside_relayFile_iff (root : UnixPath) (nipLower : Int32) (relayFile : UnixPath) :
    Inside root ((root.join (toString nipLower).toList).join relayFile) ↔
      RelayFileStays root relayFile := by
  have hname := isName_toString nipLower
  generalize (toString nipLower).toList = name at hname
  rw [RelayFileStays]
  split_ifs with habsolute
  · rw [join, if_pos habsolute]
  · have hcomponents : ((root.join name).join relayFile).components =
        root.components ++ ([.normal name] ++ relayFile.body) := by
      rw [components_join (hname.join_ne_nil root) habsolute, hname.components_join,
        List.append_assoc]
    rw [inside_iff_of_components_eq hcomponents]
    rfl

/-- A path is opened for the name of a JSON file. -/
theorem mem_getNipRelayJson_iff {nipLower : Int32} {relayFile : String} {path : UnixPath} :
    path ∈ (getNipRelayJson files root nipLower relayFile).2 ↔
      ".json".toList <:+ relayFile.toList ∧
        path = (root.join (toString nipLower).toList).join relayFile.toList := by
  unfold getNipRelayJson
  dsimp only
  split_ifs with hjson
  · rw [and_iff_right hjson]
    split <;> exact List.mem_singleton
  · exact iff_of_false List.not_mem_nil fun hpath => hjson hpath.1

/-- Whatever the three endpoints open is inside the configuration directory. -/
structure EndpointsConfined (files : Files) (root : UnixPath) (params : Params)
    (nipLower : Int32) (relayFile : String) : Prop where
  bucket_entries : ∀ path ∈ (getBucketEntries files root params).2, Inside root path
  bucket_file : ∀ path ∈ (getBucketFile files root params).2, Inside root path
  nip_relay_json : ∀ path ∈ (getNipRelayJson files root nipLower relayFile).2,
    Inside root path

theorem endpointsConfined_iff (files : Files) (root : UnixPath) (params : Params)
    (nipLower : Int32) (relayFile : String) :
    EndpointsConfined files root params nipLower relayFile ↔
      (".json".toList <:+ relayFile.toList → RelayFileStays root relayFile.toList) := by
  constructor
  · intro hconfined hjson
    rw [← inside_relayFile_iff root nipLower]
    exact hconfined.nip_relay_json _ (mem_getNipRelayJson_iff.mpr ⟨hjson, rfl⟩)
  · intro hstays
    refine ⟨fun _ => inside_of_mem_getBucketEntries, fun _ => inside_of_mem_getBucketFile,
      fun path hpath => ?_⟩
    obtain ⟨hjson, rfl⟩ := mem_getNipRelayJson_iff.mp hpath
    exact (inside_relayFile_iff root nipLower relayFile.toList).mpr (hstays hjson)

/-- `GET /1/..%2F..%2Fsecret.json`. -/
theorem not_endpointsConfined_parent :
    ¬ ∀ (files : Files) (root : UnixPath) (params : Params) (nipLower : Int32)
      (relayFile : String), EndpointsConfined files root params nipLower relayFile := by
  intro hall
  have hconfined := hall ⟨fun _ => .ok [], fun _ => .ok "", id⟩ "/etc/gnostr".toList
    (fun _ => none) 1 "../../secret.json"
  have hpath : "/etc/gnostr/1/../../secret.json".toList ∈
      (getNipRelayJson ⟨fun _ => .ok [], fun _ => .ok "", id⟩ "/etc/gnostr".toList 1
        "../../secret.json").2 := mem_getNipRelayJson_iff.mpr (by decide +kernel)
  have hinside := hconfined.nip_relay_json _ hpath
  have hcomponents : components "/etc/gnostr/1/../../secret.json".toList =
      components "/etc/gnostr".toList ++
        [.normal ['1'], .parentDir, .parentDir, .normal "secret.json".toList] := by
    decide +kernel
  rw [inside_iff_of_components_eq hcomponents] at hinside
  exact absurd hinside (by decide)

end Confined

end Crawler

end Gnostr
