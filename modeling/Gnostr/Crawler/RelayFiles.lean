/-
The relay files of the crawler, `crawler/src/relays.rs`: the three files of a bucket, and
those of the directory of all buckets, which are made of what the files of the buckets and
the directory's own YAML file list.
-/
import Gnostr.Chat.Msg
import Gnostr.Crawler.QueryPages
import Gnostr.Crawler.RelayEntries
import Gnostr.Lib.DirTree
import Gnostr.Lib.Firsts
import Gnostr.Lib.Session
import Gnostr.Lib.SortDedup
import Gnostr.P2p.RelayBucket

namespace Gnostr

namespace Crawler

open Gnostr.Chat (strLines)
open Gnostr.P2p (wsSchemes)
open Gnostr.Types (isWhiteSpace)

/-- The libraries: URLs, and lists of texts as YAML and as JSON. -/
structure RelayCrate extends P2p.RelayTexts where
  parser : RelayUrlParser
  readYaml_writeYaml : ∀ relays, readYaml (writeYaml relays) = some relays

section Source

/-- `Path::extension`, of the name of a file. -/
def fileExtension (name : String) : Option String :=
  let extension := name.toList.rtakeWhile (· != '.')
  if name.toList.length ≤ extension.length + 1 then none
  else some (String.ofList extension)

variable (crate : RelayCrate)

/-- The entries that are relays. -/
def normalizeRelays (values : List String) : List String :=
  values.filterMap (normalizeRelayEntry crate.parser)

def parseRelayEntries (content : String) : List String :=
  match crate.readYaml content with
  | some values => normalizeRelays crate values
  | none => normalizeRelays crate (strLines content)

/-- The relays of the build and those of the root file when the program began, each once. -/
def loadBootstrapRelays (embedded : String) (relaysYaml : Option String) : List String :=
  (parseRelayEntries crate embedded ++
    relaysYaml.elim [] (parseRelayEntries crate)).foldl pushNew []

/-- What does not parse as its extension says is read line by line. -/
def collectRelaysFromContent (name content : String) : List String :=
  let lines := normalizeRelays crate (strLines content)
  match fileExtension name with
  | some "json" => (crate.readJson content).elim lines (normalizeRelays crate)
  | some "yaml" => (crate.readYaml content).elim lines (normalizeRelays crate)
  | some "yml" => (crate.readYaml content).elim lines (normalizeRelays crate)
  | some "txt" => normalizeRelays crate (splitWhitespace content)
  | _ => lines

def relayFiles : List String := ["relays.yaml", "relays.json", "relays.txt"]

/-- A file that cannot be read is left out. -/
def contentRelays (name : String) (content : Except String String) : List String :=
  match content with
  | .ok content => collectRelaysFromContent crate name content
  | .error _ => []

/-- The directory that is walked is the root of its own walk. -/
def collectRelaysFromBucketTree (root : List String) :
    DirTree String → Outcome String (List String)
  | .nil => .ok []
  | .unreadable error => .err error
  | .dir name sub rest => do
      let inner ← collectRelaysFromBucketTree (root ++ [name]) sub
      let others ← collectRelaysFromBucketTree root rest
      return inner ++ others
  | .file name content rest => do
      let path := root ++ [name]
      let found :=
        if path.dropLast = root ∧ (name = "relays.json" ∨ name = "relays.txt") then []
        else if name ∈ relayFiles then contentRelays crate name content
        else []
      let others ← collectRelaysFromBucketTree root rest
      return found ++ others

/-- `fs::write`, in the directory at hand. -/
def writeFile (name content : String) : Session (DirTree String) String Unit :=
  fun tree =>
    match tree.writeFile name content with
    | some written => (.ok (), written)
    | none => (.err "Is a directory (os error 21)", tree)

/-- The three files of a list of relays. -/
def writeServeFiles (relays : List String) : Session (DirTree String) String Unit := do
  writeFile "relays.yaml" (crate.writeYaml relays)
  writeFile "relays.json" (crate.writeJson relays)
  writeFile "relays.txt" (" ".intercalate relays)

/-- In the directory of the bucket. -/
def writeBucketServeFiles (relays : List String) : Session (DirTree String) String Unit :=
  writeServeFiles crate relays

/-- The relays that are written to the root, from those that were collected. -/
def aggregateRelays (bootstrap relays : List String) : List String :=
  sortDedup (if relays.isEmpty then bootstrap else relays)

/-- A walk over the directory of all buckets, which leaves it as it is. -/
def collectRelays : Session (DirTree String) String (List String) :=
  fun root => (collectRelaysFromBucketTree crate [] root, root)

/-- In the directory of all buckets. -/
def writeRelaysServeFiles (bootstrap : List String) :
    Session (DirTree String) String Unit := do
  let relays ← collectRelays crate
  writeServeFiles crate (aggregateRelays bootstrap relays)

end Source

section Listed

variable (crate : RelayCrate)

/-- What the three files of a directory and of those within it list. -/
def entries : DirTree String → List String
  | .nil => []
  | .unreadable _ => []
  | .dir _ sub rest => entries sub ++ entries rest
  | .file name content rest =>
      (if name ∈ relayFiles then contentRelays crate name content else []) ++ entries rest

/-- What the YAML files of a directory and of those within it list. -/
def yamlEntries : DirTree String → List String
  | .nil => []
  | .unreadable _ => []
  | .dir _ sub rest => yamlEntries sub ++ yamlEntries rest
  | .file name content rest =>
      (if name = "relays.yaml" then contentRelays crate name content else []) ++
        yamlEntries rest

/-- What the buckets and the YAML file of the root list. -/
def unionEntries : DirTree String → List String
  | .nil => []
  | .unreadable _ => []
  | .dir _ sub rest => entries crate sub ++ unionEntries rest
  | .file name content rest =>
      (if name = "relays.yaml" then contentRelays crate name content else []) ++
        unionEntries rest

variable {crate} {relay : String} {tree : DirTree String}

theorem mem_entries_of_mem_yamlEntries (hrelay : relay ∈ yamlEntries crate tree) :
    relay ∈ entries crate tree := by
  induction tree with
  | nil => exact hrelay
  | unreadable error => exact hrelay
  | file name content rest ih =>
      rw [yamlEntries, List.mem_append] at hrelay
      rw [entries, List.mem_append]
      refine hrelay.imp (fun hrelay => ?_) ih
      split_ifs at hrelay with hyaml
      · have hmem : name ∈ relayFiles := by simp [hyaml, relayFiles]
        rwa [if_pos hmem]
      · cases hrelay
  | dir name sub rest ihsub ih =>
      rw [yamlEntries, List.mem_append] at hrelay
      exact List.mem_append.mpr (hrelay.imp ihsub ih)

theorem mem_unionEntries_of_mem_yamlEntries (hrelay : relay ∈ yamlEntries crate tree) :
    relay ∈ unionEntries crate tree := by
  induction tree with
  | nil => exact hrelay
  | unreadable error => exact hrelay
  | file name content rest ih =>
      rw [yamlEntries, List.mem_append] at hrelay
      exact List.mem_append.mpr (hrelay.imp_right ih)
  | dir name sub rest _ ih =>
      rw [yamlEntries, List.mem_append] at hrelay
      exact List.mem_append.mpr (hrelay.imp mem_entries_of_mem_yamlEntries ih)

end Listed

section Collected

variable {crate : RelayCrate} {tree written : DirTree String} {content : String}

/-- In every directory the walk skips two of the three files. -/
theorem collectRelaysFromBucketTree_of_readable (hreadable : tree.Readable)
    (root : List String) :
    collectRelaysFromBucketTree crate root tree = .ok (yamlEntries crate tree) := by
  induction tree generalizing root with
  | nil => rfl
  | unreadable error => exact hreadable.elim
  | file name found rest ih =>
      have hyaml : (if name = "relays.json" ∨ name = "relays.txt" then []
          else if name ∈ relayFiles then contentRelays crate name found else []) =
            if name = "relays.yaml" then contentRelays crate name found else [] := by
        by_cases hname : name = "relays.yaml"
        · simp [hname, relayFiles]
        · simp only [relayFiles, List.mem_cons, List.not_mem_nil, or_false, hname, false_or,
            if_false]
          split_ifs <;> rfl
      simp only [collectRelaysFromBucketTree, List.dropLast_concat, true_and, hyaml,
        ih hreadable root, Outcome.ok_bind, Outcome.pure_eq]
      rfl
  | dir name sub rest ihsub ih =>
      simp only [collectRelaysFromBucketTree, ihsub hreadable.1, ih hreadable.2,
        Outcome.ok_bind, Outcome.pure_eq]
      rfl

theorem readable_of_collectRelaysFromBucketTree {root : List String} {relays : List String}
    (hcollect : collectRelaysFromBucketTree crate root tree = .ok relays) :
    tree.Readable := by
  induction tree generalizing root relays with
  | nil => exact trivial
  | unreadable error => cases hcollect
  | file name found rest ih =>
      obtain ⟨others, hothers, -⟩ := Outcome.bind_eq_ok_iff.mp hcollect
      exact ih hothers
  | dir name sub rest ihsub ih =>
      obtain ⟨inner, hinner, hrest⟩ := Outcome.bind_eq_ok_iff.mp hcollect
      obtain ⟨others, hothers, -⟩ := Outcome.bind_eq_ok_iff.mp hrest
      exact ⟨ihsub hinner, ih hothers⟩

/-- A file that is written adds its own relays at most. -/
theorem mem_yamlEntries_of_writeFile {name relay : String}
    (hwrite : tree.writeFile name content = some written)
    (hrelay : relay ∈ yamlEntries crate written) :
    relay ∈ yamlEntries crate tree ∨
      name = "relays.yaml" ∧ relay ∈ collectRelaysFromContent crate name content := by
  have hnew : ∀ rest, relay ∈ yamlEntries crate (.file name (.ok content) rest) →
      relay ∈ yamlEntries crate rest ∨
        name = "relays.yaml" ∧ relay ∈ collectRelaysFromContent crate name content := by
    intro rest hmem
    rw [yamlEntries, List.mem_append] at hmem
    split_ifs at hmem with hyaml
    · exact hmem.symm.imp_right fun hmem => ⟨hyaml, hmem⟩
    · exact .inl (hmem.resolve_left List.not_mem_nil)
  induction tree generalizing written with
  | nil =>
      obtain rfl := Option.some.inj hwrite
      exact hnew _ hrelay
  | unreadable error =>
      obtain rfl := Option.some.inj hwrite
      exact hnew _ hrelay
  | file found old rest ih =>
      rw [DirTree.writeFile] at hwrite
      split_ifs at hwrite with heq
      · obtain rfl := Option.some.inj hwrite
        exact (hnew _ hrelay).imp_left (List.mem_append_right _)
      · obtain ⟨rest', hrest, rfl⟩ := Option.map_eq_some_iff.mp hwrite
        rcases List.mem_append.mp hrelay with hrelay | hrelay
        · exact .inl (List.mem_append_left _ hrelay)
        · exact (ih hrest hrelay).imp_left (List.mem_append_right _)
  | dir found sub rest _ ih =>
      rw [DirTree.writeFile] at hwrite
      split_ifs at hwrite with heq
      obtain ⟨rest', hrest, rfl⟩ := Option.map_eq_some_iff.mp hwrite
      rcases List.mem_append.mp hrelay with hrelay | hrelay
      · exact .inl (List.mem_append_left _ hrelay)
      · exact (ih hrest hrelay).imp_left (List.mem_append_right _)

/-- The relays of a file named so are there. -/
theorem mem_yamlEntries_of_readFile {relay : String}
    (hread : tree.readFile "relays.yaml" = some (.ok content))
    (hrelay : relay ∈ collectRelaysFromContent crate "relays.yaml" content) :
    relay ∈ yamlEntries crate tree := by
  induction tree with
  | nil => cases hread
  | unreadable error => cases hread
  | file found old rest ih =>
      rw [DirTree.readFile] at hread
      rw [yamlEntries, List.mem_append]
      split_ifs at hread ⊢ with heq
      · rw [heq, Option.some.inj hread]
        exact .inl hrelay
      · exact .inr (ih hread)
  | dir found sub rest _ ih =>
      rw [DirTree.readFile] at hread
      split_ifs at hread
      exact List.mem_append_right _ (ih hread)

end Collected

section Written

variable {crate : RelayCrate} {relays : List String} {tree written : DirTree String}

/-- The three files list the relays. -/
structure HasServeFiles (crate : RelayCrate) (relays : List String)
    (tree : DirTree String) : Prop where
  yaml : tree.readFile "relays.yaml" = some (.ok (crate.writeYaml relays))
  json : tree.readFile "relays.json" = some (.ok (crate.writeJson relays))
  txt : tree.readFile "relays.txt" = some (.ok (" ".intercalate relays))

theorem writeFile_eq_ok_iff {name content : String} :
    writeFile name content tree = (.ok (), written) ↔
      tree.writeFile name content = some written := by
  unfold writeFile
  cases tree.writeFile name content with
  | none => simp
  | some other => simp

theorem writeServeFiles_eq_ok_iff :
    writeServeFiles crate relays tree = (.ok (), written) ↔
      ∃ first second, tree.writeFile "relays.yaml" (crate.writeYaml relays) = some first ∧
        first.writeFile "relays.json" (crate.writeJson relays) = some second ∧
        second.writeFile "relays.txt" (" ".intercalate relays) = some written := by
  simp only [writeServeFiles, Session.bind_eq_ok_iff]
  constructor
  · rintro ⟨⟨⟩, first, hfirst, ⟨⟩, second, hsecond, hwritten⟩
    exact ⟨first, second, writeFile_eq_ok_iff.mp hfirst, writeFile_eq_ok_iff.mp hsecond,
      writeFile_eq_ok_iff.mp hwritten⟩
  · rintro ⟨first, second, hfirst, hsecond, hwritten⟩
    exact ⟨(), first, writeFile_eq_ok_iff.mpr hfirst, (), second,
      writeFile_eq_ok_iff.mpr hsecond, writeFile_eq_ok_iff.mpr hwritten⟩

theorem hasServeFiles_of_writeServeFiles
    (hwrite : writeServeFiles crate relays tree = (.ok (), written)) :
    HasServeFiles crate relays written := by
  obtain ⟨first, second, hfirst, hsecond, hwritten⟩ := writeServeFiles_eq_ok_iff.mp hwrite
  constructor
  · rw [DirTree.readFile_of_writeFile_of_ne hwritten (by decide),
      DirTree.readFile_of_writeFile_of_ne hsecond (by decide),
      DirTree.readFile_of_writeFile hfirst]
  · rw [DirTree.readFile_of_writeFile_of_ne hwritten (by decide),
      DirTree.readFile_of_writeFile hsecond]
  · exact DirTree.readFile_of_writeFile hwritten

/-- Files that are there are written again, and nothing changes. -/
theorem writeServeFiles_of_hasServeFiles (hfiles : HasServeFiles crate relays tree) :
    writeServeFiles crate relays tree = (.ok (), tree) :=
  writeServeFiles_eq_ok_iff.mpr ⟨tree, tree, DirTree.writeFile_of_readFile hfiles.yaml,
    DirTree.writeFile_of_readFile hfiles.json, DirTree.writeFile_of_readFile hfiles.txt⟩

theorem readable_of_writeServeFiles (hreadable : tree.Readable)
    (hwrite : writeServeFiles crate relays tree = (.ok (), written)) : written.Readable := by
  obtain ⟨first, second, hfirst, hsecond, hwritten⟩ := writeServeFiles_eq_ok_iff.mp hwrite
  exact ((hreadable.of_writeFile hfirst).of_writeFile hsecond).of_writeFile hwritten

theorem mem_yamlEntries_of_writeServeFiles {relay : String}
    (hwrite : writeServeFiles crate relays tree = (.ok (), written))
    (hrelay : relay ∈ yamlEntries crate written) :
    relay ∈ yamlEntries crate tree ∨
      relay ∈ collectRelaysFromContent crate "relays.yaml" (crate.writeYaml relays) := by
  obtain ⟨first, second, hfirst, hsecond, hwritten⟩ := writeServeFiles_eq_ok_iff.mp hwrite
  rcases mem_yamlEntries_of_writeFile hwritten hrelay with hrelay | ⟨hname, -⟩
  · rcases mem_yamlEntries_of_writeFile hsecond hrelay with hrelay | ⟨hname, -⟩
    · exact (mem_yamlEntries_of_writeFile hfirst hrelay).imp_right And.right
    · exact absurd hname (by decide)
  · exact absurd hname (by decide)

end Written

end Crawler

end Gnostr
