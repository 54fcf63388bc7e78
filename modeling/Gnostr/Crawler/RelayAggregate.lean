/-
The relay files of the crawler are read back as they were written, and those of the root
list what the buckets and the root list, as long as each relay is read as itself and what
the JSON and text files of a bucket list is listed as YAML too.
-/
import Gnostr.Crawler.RelayFiles

namespace Gnostr

namespace Crawler

open Gnostr.P2p (wsSchemes)
open Gnostr.Types (isWhiteSpace)

section ReadBack

variable {crate : RelayCrate} {relay line : String} {relays : List String}

theorem isWhiteSpace_of_mem_normalized
    (hrelay : normalizeRelayEntry crate.parser line = some relay) :
    ∀ c ∈ relay.toList, isWhiteSpace c = false := by
  obtain ⟨url, -, rfl, -⟩ := normalizeRelayEntry_eq_some_iff.mp hrelay
  rw [String.toList_ofList]
  exact fun c hc => isWhiteSpace_of_isUrlChar (isUrlChar_of_mem_text hc)

theorem head?_of_normalized (hrelay : normalizeRelayEntry crate.parser line = some relay) :
    relay.toList.head? = some 'w' := by
  obtain ⟨url, hurl, rfl, -⟩ := normalizeRelayEntry_eq_some_iff.mp hrelay
  rw [String.toList_ofList]
  exact head?_text_of_mem (exists_parse_of_entryUrl hurl).1

theorem toList_ne_nil_of_normalized
    (hrelay : normalizeRelayEntry crate.parser line = some relay) : relay.toList ≠ [] := by
  intro hnil
  have hhead := head?_of_normalized hrelay
  rw [hnil] at hhead
  cases hhead

/-- Words that are joined with a space are split as they were. -/
theorem splitWhitespace_intercalate
    (hspace : ∀ relay ∈ relays, ∀ c ∈ relay.toList, isWhiteSpace c = false)
    (hnil : ∀ relay ∈ relays, relay.toList ≠ []) :
    splitWhitespace (" ".intercalate relays) = relays := by
  induction relays with
  | nil => rfl
  | cons first rest ih =>
      rw [List.forall_mem_cons] at hspace hnil
      have hrest := ih hspace.2 hnil.2
      by_cases hend : rest = []
      · subst hend
        rw [splitWhitespace, String.intercalate_singleton,
          List.splitOnP_eq_singleton hspace.1]
        simp [hnil.1]
      · rw [splitWhitespace] at hrest
        have hsplit := List.splitOnP_append_cons_of_forall_mem hspace.1 ' ' rfl
          (" ".intercalate rest).toList
        have htext : (" ".intercalate (first :: rest)).toList =
            first.toList ++ ' ' :: (" ".intercalate rest).toList := by
          rw [String.intercalate_cons_of_ne_nil hend, String.toList_append,
            String.toList_append, List.append_assoc]
          rfl
        rw [splitWhitespace, htext, hsplit, List.filter_cons_of_pos (by simpa using hnil.1),
          List.map_cons, hrest, String.ofList_toList]

theorem collectRelaysFromContent_yaml (content : String) :
    collectRelaysFromContent crate "relays.yaml" content =
      (crate.readYaml content).elim (normalizeRelays crate (Chat.strLines content))
        (normalizeRelays crate) := by
  have hextension : fileExtension "relays.yaml" = some "yaml" := by decide +kernel
  rw [collectRelaysFromContent, hextension]
  rfl

theorem collectRelaysFromContent_json (content : String) :
    collectRelaysFromContent crate "relays.json" content =
      (crate.readJson content).elim (normalizeRelays crate (Chat.strLines content))
        (normalizeRelays crate) := by
  have hextension : fileExtension "relays.json" = some "json" := by decide +kernel
  rw [collectRelaysFromContent, hextension]
  rfl

theorem collectRelaysFromContent_txt (content : String) :
    collectRelaysFromContent crate "relays.txt" content =
      normalizeRelays crate (splitWhitespace content) := by
  have hextension : fileExtension "relays.txt" = some "txt" := by decide +kernel
  rw [collectRelaysFromContent, hextension]
  rfl

/-- The relay is read as itself. -/
def Reread (crate : RelayCrate) (relay : String) : Prop :=
  normalizeRelayEntry crate.parser relay = some relay

theorem normalizeRelays_of_reread (hrelays : ∀ relay ∈ relays, Reread crate relay) :
    normalizeRelays crate relays = relays := by
  rw [normalizeRelays, List.filterMap_congr hrelays, List.filterMap_some]

theorem collectRelaysFromContent_writeYaml (crate : RelayCrate) (relays : List String) :
    collectRelaysFromContent crate "relays.yaml" (crate.writeYaml relays) =
      normalizeRelays crate relays := by
  rw [collectRelaysFromContent_yaml, crate.readYaml_writeYaml, Option.elim_some]

/-- A list that the files have is read back from each of them. -/
theorem collectRelaysFromContent_of_hasServeFiles {tree : DirTree String}
    (hrelays : ∀ relay ∈ relays, Reread crate relay)
    (hfiles : HasServeFiles crate relays tree) :
    ∀ name ∈ relayFiles, ∃ content, tree.readFile name = some (.ok content) ∧
      collectRelaysFromContent crate name content = relays := by
  have hsame := normalizeRelays_of_reread hrelays
  have hsplit : splitWhitespace (" ".intercalate relays) = relays :=
    splitWhitespace_intercalate
      (fun relay hrelay => isWhiteSpace_of_mem_normalized (hrelays relay hrelay))
      (fun relay hrelay => toList_ne_nil_of_normalized (hrelays relay hrelay))
  simp only [relayFiles, List.forall_mem_cons]
  refine ⟨⟨_, hfiles.yaml, ?_⟩, ⟨_, hfiles.json, ?_⟩, ⟨_, hfiles.txt, ?_⟩,
    List.forall_mem_nil _⟩
  · rw [collectRelaysFromContent_writeYaml, hsame]
  · rw [collectRelaysFromContent_json, crate.readJson_writeJson, Option.elim_some, hsame]
  · rw [collectRelaysFromContent_txt, hsplit, hsame]

end ReadBack

section Aggregate

variable (crate : RelayCrate) (bootstrap relays : List String) (root : DirTree String)

/-- The files of a bucket that are written list the relays. -/
def ReadBackSame : Prop :=
  ∀ bucket written, writeBucketServeFiles crate relays bucket = (.ok (), written) →
    ∀ name ∈ relayFiles, ∃ content, written.readFile name = some (.ok content) ∧
      collectRelaysFromContent crate name content = relays

/-- The files of the root that are written list the relays, sorted and each once; writing
them again changes nothing; and no relay is lost. -/
def ServesAll (relays : List String) : Prop :=
  ∀ written, writeRelaysServeFiles crate bootstrap root = (.ok (), written) →
    (∃ listed, listed.Pairwise (· < ·) ∧ (∀ relay, relay ∈ listed ↔ relay ∈ relays) ∧
      HasServeFiles crate listed written) ∧
    writeRelaysServeFiles crate bootstrap written = (.ok (), written) ∧
    ∀ relay ∈ unionEntries crate root, relay ∈ unionEntries crate written

/-- What is listed in a bucket as JSON or as text is listed as YAML too, there or in another
directory. -/
def ListedAsYaml : Prop :=
  ∀ relay ∈ unionEntries crate root, relay ∈ yamlEntries crate root

/-- What is listed, and without any relay the list of the program. -/
def unionOrBootstrap : List String :=
  if unionEntries crate root = [] then bootstrap else unionEntries crate root

variable {crate bootstrap relays root}

theorem writeRelaysServeFiles_eq_ok_iff {written : DirTree String} :
    writeRelaysServeFiles crate bootstrap root = (.ok (), written) ↔
      root.Readable ∧
        writeServeFiles crate (aggregateRelays bootstrap (yamlEntries crate root)) root =
          (.ok (), written) := by
  unfold writeRelaysServeFiles
  rw [Session.bind_eq_ok_iff]
  constructor
  · rintro ⟨collected, tree, hcollect, hwrite⟩
    rw [collectRelays, Prod.mk.injEq] at hcollect
    obtain ⟨hcollect, rfl⟩ := hcollect
    have hreadable := readable_of_collectRelaysFromBucketTree hcollect
    rw [collectRelaysFromBucketTree_of_readable hreadable] at hcollect
    obtain rfl := Outcome.ok.inj hcollect
    exact ⟨hreadable, hwrite⟩
  · rintro ⟨hreadable, hwrite⟩
    refine ⟨_, root, ?_, hwrite⟩
    rw [collectRelays, collectRelaysFromBucketTree_of_readable hreadable]

theorem mem_aggregateRelays {collected : List String} {relay : String} :
    relay ∈ aggregateRelays bootstrap collected ↔
      relay ∈ if collected = [] then bootstrap else collected := by
  simp [aggregateRelays]

/-- What the root lists after a write is what was written. -/
theorem mem_yamlEntries_of_written {collected : List String} {written : DirTree String}
    {relay : String} (hcollected : yamlEntries crate root = collected)
    (hreread : ∀ relay ∈ aggregateRelays bootstrap collected, Reread crate relay)
    (hwrite : writeServeFiles crate (aggregateRelays bootstrap collected) root =
      (.ok (), written)) :
    relay ∈ yamlEntries crate written ↔ relay ∈ aggregateRelays bootstrap collected := by
  have hfiles := hasServeFiles_of_writeServeFiles hwrite
  have hcontent : collectRelaysFromContent crate "relays.yaml"
      (crate.writeYaml (aggregateRelays bootstrap collected)) =
        aggregateRelays bootstrap collected := by
    rw [collectRelaysFromContent_writeYaml, normalizeRelays_of_reread hreread]
  constructor
  · intro hrelay
    rcases mem_yamlEntries_of_writeServeFiles hwrite hrelay with hrelay | hrelay
    · rw [mem_aggregateRelays, if_neg]
      · exact hcollected ▸ hrelay
      · rintro rfl
        rw [hcollected] at hrelay
        cases hrelay
    · rwa [hcontent] at hrelay
  · intro hrelay
    apply mem_yamlEntries_of_readFile hfiles.yaml
    rwa [hcontent]

/-- The same relays are collected the next time. -/
theorem aggregateRelays_of_mem_iff {collected again : List String}
    (hsame : ∀ relay, relay ∈ again ↔ relay ∈ aggregateRelays bootstrap collected) :
    aggregateRelays bootstrap again = aggregateRelays bootstrap collected := by
  have hagain : sortDedup again = aggregateRelays bootstrap collected := by
    rw [sortDedup_congr hsame]
    apply List.Pairwise.eq_of_mem_iff (pairwise_sortDedup _) (pairwise_sortDedup _)
    exact fun relay => mem_sortDedup
  by_cases hnil : again = []
  · subst hnil
    have hnone : aggregateRelays bootstrap collected = [] :=
      hagain.symm.trans (sortDedup_eq_nil_iff.mpr rfl)
    have hbootstrap : bootstrap = [] ∨ collected ≠ [] := by
      by_contra hnot
      rw [not_or, not_not] at hnot
      rw [hnot.2] at hnone
      exact hnot.1 (sortDedup_eq_nil_iff.mp hnone)
    rcases hbootstrap with rfl | hcollected
    · exact (sortDedup_eq_nil_iff.mpr rfl).trans hnone.symm
    · rw [aggregateRelays, sortDedup_eq_nil_iff] at hnone
      simp [hcollected] at hnone
  · simpa [aggregateRelays, hnil] using hagain

/-- Each bucket is read back from its files, and the root lists what there is, or what the
program has when there is nothing. -/
theorem readBackSame_and_servesAll (crate : RelayCrate) (bootstrap : List String) :
    (∀ relays, (∀ relay ∈ relays, Reread crate relay) → ReadBackSame crate relays) ∧
      ∀ root, ListedAsYaml crate root →
        (∀ relay ∈ unionOrBootstrap crate bootstrap root, Reread crate relay) →
        ServesAll crate bootstrap root (unionOrBootstrap crate bootstrap root) := by
  constructor
  · intro relays hrelays bucket written hwrite
    exact collectRelaysFromContent_of_hasServeFiles hrelays
      (hasServeFiles_of_writeServeFiles hwrite)
  · intro root hlisted hreread written hwrite
    obtain ⟨hreadable, hwrite⟩ := writeRelaysServeFiles_eq_ok_iff.mp hwrite
    have hnil : yamlEntries crate root = [] ↔ unionEntries crate root = [] := by
      simp only [List.eq_nil_iff_forall_not_mem]
      exact forall_congr' fun relay => not_congr
        ⟨mem_unionEntries_of_mem_yamlEntries, hlisted relay⟩
    have hmem : ∀ relay, relay ∈ aggregateRelays bootstrap (yamlEntries crate root) ↔
        relay ∈ unionOrBootstrap crate bootstrap root := by
      intro relay
      rw [mem_aggregateRelays, unionOrBootstrap]
      by_cases hnone : unionEntries crate root = []
      · rw [if_pos (hnil.mpr hnone), if_pos hnone]
      · rw [if_neg (hnil.not.mpr hnone), if_neg hnone]
        exact ⟨mem_unionEntries_of_mem_yamlEntries, hlisted relay⟩
    have hreread' : ∀ relay ∈ aggregateRelays bootstrap (yamlEntries crate root),
        Reread crate relay := fun relay hrelay => hreread relay ((hmem relay).mp hrelay)
    have hagain : ∀ relay, relay ∈ yamlEntries crate written ↔
        relay ∈ aggregateRelays bootstrap (yamlEntries crate root) :=
      fun relay => mem_yamlEntries_of_written rfl hreread' hwrite
    have hfiles := hasServeFiles_of_writeServeFiles hwrite
    refine ⟨⟨_, pairwise_sortDedup _, hmem, hfiles⟩, ?_, ?_⟩
    · rw [writeRelaysServeFiles_eq_ok_iff, aggregateRelays_of_mem_iff hagain]
      exact ⟨readable_of_writeServeFiles hreadable hwrite,
        writeServeFiles_of_hasServeFiles hfiles⟩
    · intro relay hrelay
      apply mem_unionEntries_of_mem_yamlEntries
      rw [hagain, hmem, unionOrBootstrap, if_neg (List.ne_nil_of_mem hrelay)]
      exact hrelay

end Aggregate

section Table

/-- Texts of a table are read by it, and all others as before. -/
theorem lookup_or_eq_some {table : List (List String × String)}
    {writeRest : List String → String} {readRest : String → Option (List String)}
    (htable : ∀ entry ∈ table, (table.map Prod.swap).lookup entry.2 = some entry.1)
    (hnone : ∀ entry ∈ table, readRest entry.2 = none)
    (hread : ∀ relays, readRest (writeRest relays) = some relays) (relays : List String) :
    ((table.map Prod.swap).lookup ((table.lookup relays).getD (writeRest relays))).or
      (readRest ((table.lookup relays).getD (writeRest relays))) = some relays := by
  cases hlookup : table.lookup relays with
  | some text =>
      obtain ⟨before, after, hsplit, -⟩ := List.lookup_eq_some_iff.mp hlookup
      have hmem : (relays, text) ∈ table := by simp [hsplit]
      rw [Option.getD_some, htable _ hmem, Option.some_or]
  | none =>
      rw [Option.getD_none]
      cases hother : (table.map Prod.swap).lookup (writeRest relays) with
      | none => rw [Option.none_or, hread]
      | some other =>
          obtain ⟨before, after, hsplit, -⟩ := List.lookup_eq_some_iff.mp hother
          have hmem : (writeRest relays, other) ∈ table.map Prod.swap := by simp [hsplit]
          obtain ⟨entry, hentry, heq⟩ := List.mem_map.mp hmem
          have hrest := hnone entry hentry
          rw [← Prod.swap_swap entry, heq, Prod.swap_prod_mk, hread] at hrest
          cases hrest

/-- The YAML of four lists. -/
def yamlTable : List (List String × String) :=
  [([], "[]\n"), (["wss://a/"], "- wss://a/\n"), (["wss://a,b/"], "- wss://a,b/\n"),
    (["- wss://a/"], "- '- wss://a/'\n")]

/-- The JSON of two lists. -/
def jsonTable : List (List String × String) :=
  [(["wss://a/"], "[\n  \"wss://a/\"\n]"), (["wss://a,b/"], "[\n  \"wss://a,b/\"\n]")]

def readYamlRest (text : String) : Option (List String) :=
  P2p.RelayTexts.compact.readJson (String.ofList (text.toList.drop 2))

def writeYamlRest (relays : List String) : String :=
  "- " ++ P2p.RelayTexts.compact.writeJson relays

def tableCrate : RelayCrate where
  writeJson relays :=
    (jsonTable.lookup relays).getD (P2p.RelayTexts.compact.writeJson relays)
  writeYaml relays := (yamlTable.lookup relays).getD (writeYamlRest relays)
  readJson text :=
    ((jsonTable.map Prod.swap).lookup text).or (P2p.RelayTexts.compact.readJson text)
  readYaml text := ((yamlTable.map Prod.swap).lookup text).or (readYamlRest text)
  readJson_writeJson :=
    lookup_or_eq_some (by decide +kernel) (by decide +kernel)
      P2p.RelayTexts.compact.readJson_writeJson
  parser := tableParser
  readYaml_writeYaml :=
    lookup_or_eq_some (by decide +kernel) (by decide +kernel) fun relays => by
      have hdrop : (writeYamlRest relays).toList.drop 2 =
          (P2p.RelayTexts.compact.writeJson relays).toList := by
        rw [writeYamlRest, String.toList_append]
        rfl
      rw [readYamlRest, hdrop, String.ofList_toList, P2p.RelayTexts.compact.readJson_writeJson]

theorem reread_tableCrate : Reread tableCrate "wss://a/" := by
  unfold Reread
  decide +kernel

/-- A bucket with its three files, in a directory without any files of its own. -/
def bucketRoot : DirTree String :=
  .dir "recent"
    (.file "relays.yaml" (.ok "- wss://a/\n")
      (.file "relays.json" (.ok "[\n  \"wss://a/\"\n]")
        (.file "relays.txt" (.ok "wss://a/") .nil))) .nil

theorem unionEntries_bucketRoot :
    unionEntries tableCrate bucketRoot = ["wss://a/", "wss://a/", "wss://a/"] ∧
      yamlEntries tableCrate bucketRoot = ["wss://a/"] := by
  decide +kernel

theorem readBackSame_and_servesAll_bucketRoot :
    ReadBackSame tableCrate ["wss://a/"] ∧
      ServesAll tableCrate [] bucketRoot (unionOrBootstrap tableCrate [] bucketRoot) := by
  obtain ⟨hunion, hyaml⟩ := unionEntries_bucketRoot
  have hall := readBackSame_and_servesAll tableCrate []
  refine ⟨hall.1 _ ?_, hall.2 _ ?_ ?_⟩
  · exact List.forall_mem_singleton.mpr reread_tableCrate
  · rw [ListedAsYaml, hunion, hyaml]
    decide
  · rw [unionOrBootstrap, hunion]
    simpa using reread_tableCrate

/-- A bucket with its JSON file alone. -/
def jsonRoot : DirTree String :=
  .dir "recent" (.file "relays.json" (.ok "[\n  \"wss://a/\"\n]") .nil) .nil

/-- The list that the YAML file of the root has. -/
theorem readYaml_of_hasServeFiles {crate : RelayCrate} {listed : List String}
    {tree : DirTree String} {text : String} (hfiles : HasServeFiles crate listed tree)
    (hread : tree.readFile "relays.yaml" = some (.ok text)) :
    crate.readYaml text = some listed := by
  have htext := hfiles.yaml.symm.trans hread
  rw [Option.some.injEq, Except.ok.injEq] at htext
  rw [← htext, crate.readYaml_writeYaml]

/-- The YAML file of the root lists what is served. -/
theorem ServesAll.mem_iff {crate : RelayCrate} {bootstrap relays listed : List String}
    {root written : DirTree String} {text : String}
    (hserves : ServesAll crate bootstrap root relays)
    (hwrite : writeRelaysServeFiles crate bootstrap root = (.ok (), written))
    (htext : written.readFile "relays.yaml" = some (.ok text))
    (hread : crate.readYaml text = some listed) (relay : String) :
    relay ∈ listed ↔ relay ∈ relays := by
  obtain ⟨served, -, hmem, hfiles⟩ := (hserves _ hwrite).1
  have hsame : listed = served :=
    Option.some.inj (hread.symm.trans (readYaml_of_hasServeFiles hfiles htext))
  rw [hsame]
  exact hmem relay

/-- Where nothing is listed the list of the program is written; a relay that a bucket lists
as JSON alone is lost; and a host with a comma is not read back. -/
theorem not_served_as_stated :
    ¬ ServesAll tableCrate ["wss://a/"] .nil (unionEntries tableCrate .nil) ∧
      ¬ ServesAll tableCrate [] jsonRoot (unionEntries tableCrate jsonRoot) ∧
      (∃ line, normalizeRelayEntry tableCrate.parser line = some "wss://a,b/") ∧
        ¬ ReadBackSame tableCrate ["wss://a,b/"] := by
  refine ⟨?_, ?_, ⟨_, normalizeRelayEntry_comma.1⟩, ?_⟩
  · intro hserves
    have hwrite : writeRelaysServeFiles tableCrate ["wss://a/"] .nil =
        (.ok (), (writeRelaysServeFiles tableCrate ["wss://a/"] .nil).2) := by
      decide +kernel
    have htext : (writeRelaysServeFiles tableCrate ["wss://a/"] .nil).2.readFile
        "relays.yaml" = some (.ok "- wss://a/\n") := by decide +kernel
    have hread : tableCrate.readYaml "- wss://a/\n" = some ["wss://a/"] := by decide +kernel
    cases (hserves.mem_iff hwrite htext hread "wss://a/").mp List.mem_cons_self
  · intro hserves
    have hwrite : writeRelaysServeFiles tableCrate [] jsonRoot =
        (.ok (), (writeRelaysServeFiles tableCrate [] jsonRoot).2) := by decide +kernel
    have htext : (writeRelaysServeFiles tableCrate [] jsonRoot).2.readFile "relays.yaml" =
        some (.ok "[]\n") := by decide +kernel
    have hread : tableCrate.readYaml "[]\n" = some [] := by decide +kernel
    have hlisted : "wss://a/" ∈ unionEntries tableCrate jsonRoot := by decide +kernel
    cases (hserves.mem_iff hwrite htext hread "wss://a/").mpr hlisted
  · intro hsame
    have hwrite : writeBucketServeFiles tableCrate ["wss://a,b/"] .nil =
        (.ok (), (writeBucketServeFiles tableCrate ["wss://a,b/"] .nil).2) := by
      decide +kernel
    have htext : (writeBucketServeFiles tableCrate ["wss://a,b/"] .nil).2.readFile
        "relays.yaml" = some (.ok "- wss://a,b/\n") := by decide +kernel
    have hcollect : collectRelaysFromContent tableCrate "relays.yaml" "- wss://a,b/\n" =
        ["wss://a/"] := by decide +kernel
    obtain ⟨content, hread, hback⟩ := hsame _ _ hwrite "relays.yaml" (by decide)
    rw [htext, Option.some.injEq, Except.ok.injEq] at hread
    rw [← hread, hcollect] at hback
    exact absurd hback (by decide)

end Table

end Crawler

end Gnostr
