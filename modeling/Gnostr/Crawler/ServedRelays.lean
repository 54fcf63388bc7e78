/-
The relay lists that the crawler serves, `get_relays_yaml`, `get_relays_json` and
`get_relays_txt` of `crawler/src/api.rs`.  The lines of the YAML file are taken for the
relays and written as YAML once more.
-/
import Gnostr.Crawler.RelayAggregate

namespace Gnostr

namespace Crawler

open Gnostr.Chat (strLines)
open Gnostr.Types (isWhiteSpace trim trimChars)

/-- What the YAML library writes for a list, as far as its first character. -/
structure YamlCrate extends RelayCrate where
  writeYaml_nil : writeYaml [] = "[]\n"
  head?_writeYaml : ∀ {relays : List String}, relays ≠ [] →
    (writeYaml relays).toList.head? = some '-'

section Source

variable (crate : RelayCrate) (bootstrap : List String)

/-- `fs::read_to_string`. -/
def readToString (name : String) (root : DirTree String) : Except String String :=
  match root.readFile name with
  | some content => content
  | none =>
      .error (if root.has name then "Is a directory (os error 21)"
        else "No such file or directory (os error 2)")

/-- A file of the root, which is made if it is not there; an error has no content type. -/
def serveFile (name contentType : String) (body : String → String)
    (root : DirTree String) : Response × DirTree String :=
  let root := if root.has name then root else (writeRelaysServeFiles crate bootstrap root).2
  match readToString name root with
  | .ok content => (⟨200, contentType, body content⟩, root)
  | .error e => (⟨500, "", "Failed to read " ++ name ++ ": " ++ e⟩, root)

def getRelaysYaml : DirTree String → Response × DirTree String :=
  serveFile crate bootstrap "relays.yaml" "application/x-yaml" fun content =>
    crate.writeYaml ((strLines content).filter fun line => trim line ≠ "")

def getRelaysJson : DirTree String → Response × DirTree String :=
  serveFile crate bootstrap "relays.json" "application/json" id

def getRelaysTxt : DirTree String → Response × DirTree String :=
  serveFile crate bootstrap "relays.txt" "text/plain" id

/-- What is served is the list, in each of the three encodings. -/
def ServedAsWritten (root : DirTree String) (relays : List String) : Prop :=
  crate.readYaml (getRelaysYaml crate bootstrap root).1.body = some relays ∧
    crate.readJson (getRelaysJson crate bootstrap root).1.body = some relays ∧
    splitWhitespace (getRelaysTxt crate bootstrap root).1.body = relays

end Source

section Normalized

variable {crate : RelayCrate} {bootstrap : List String} {relay : String}

/-- The relay is what some line was read as. -/
def Normalized (crate : RelayCrate) (relay : String) : Prop :=
  ∃ line, normalizeRelayEntry crate.parser line = some relay

theorem normalized_of_mem_normalizeRelays {values : List String}
    (hrelay : relay ∈ normalizeRelays crate values) : Normalized crate relay := by
  obtain ⟨line, -, hline⟩ := List.mem_filterMap.mp hrelay
  exact ⟨line, hline⟩

theorem normalized_of_mem_contentRelays {name : String} {content : Except String String}
    (hrelay : relay ∈ contentRelays crate name content) : Normalized crate relay := by
  cases content with
  | error e => cases hrelay
  | ok content =>
      unfold contentRelays collectRelaysFromContent at hrelay
      dsimp only at hrelay
      split at hrelay
      · cases hread : crate.readJson content <;> rw [hread] at hrelay <;>
          exact normalized_of_mem_normalizeRelays hrelay
      · cases hread : crate.readYaml content <;> rw [hread] at hrelay <;>
          exact normalized_of_mem_normalizeRelays hrelay
      · cases hread : crate.readYaml content <;> rw [hread] at hrelay <;>
          exact normalized_of_mem_normalizeRelays hrelay
      · exact normalized_of_mem_normalizeRelays hrelay
      · exact normalized_of_mem_normalizeRelays hrelay

theorem normalized_of_mem_yamlEntries {tree : DirTree String}
    (hrelay : relay ∈ yamlEntries crate tree) : Normalized crate relay := by
  induction tree with
  | nil => cases hrelay
  | unreadable error => cases hrelay
  | file name content rest ih =>
      rcases List.mem_append.mp hrelay with hrelay | hrelay
      · split_ifs at hrelay
        · exact normalized_of_mem_contentRelays hrelay
        · cases hrelay
      · exact ih hrelay
  | dir name sub rest ihsub ih =>
      rcases List.mem_append.mp hrelay with hrelay | hrelay
      · exact ihsub hrelay
      · exact ih hrelay

theorem normalized_of_mem_loadBootstrapRelays {embedded : String}
    {relaysYaml : Option String}
    (hrelay : relay ∈ loadBootstrapRelays crate embedded relaysYaml) :
    Normalized crate relay := by
  have hparse : ∀ content, relay ∈ parseRelayEntries crate content →
      Normalized crate relay := by
    intro content hmem
    unfold parseRelayEntries at hmem
    split at hmem
    · exact normalized_of_mem_normalizeRelays hmem
    · exact normalized_of_mem_normalizeRelays hmem
  rw [loadBootstrapRelays, mem_foldl_pushNew, or_iff_right List.not_mem_nil,
    List.mem_append] at hrelay
  rcases hrelay with hrelay | hrelay
  · exact hparse _ hrelay
  · cases relaysYaml with
    | none => cases hrelay
    | some content => exact hparse _ hrelay

/-- What is written to the root are relays that were read. -/
theorem normalized_of_mem_aggregateRelays {embedded : String} {relaysYaml : Option String}
    {root : DirTree String}
    (hrelay : relay ∈ aggregateRelays (loadBootstrapRelays crate embedded relaysYaml)
      (yamlEntries crate root)) : Normalized crate relay := by
  rw [mem_aggregateRelays] at hrelay
  split_ifs at hrelay
  · exact normalized_of_mem_loadBootstrapRelays hrelay
  · exact normalized_of_mem_yamlEntries hrelay

end Normalized

section Lines

theorem head?_of_cons_eq_append {c : Char} {more front ending : List Char}
    (happend : c :: more = front ++ ending) (hending : ending.head? ≠ some c) :
    front.head? = some c := by
  cases front with
  | nil => exact absurd (congrArg List.head? happend.symm) hending
  | cons d front => rw [List.head?_cons, (List.cons.inj happend).1]

/-- The first line has the first character, unless that ends it. -/
theorem exists_strLines_eq_cons {text : String} {c : Char} {rest : List Char}
    (htext : text.toList = c :: rest) (hc : isWhiteSpace c = false) :
    ∃ line lines, strLines text = line :: lines ∧ line.toList.head? = some c := by
  have hnewline : c ≠ '\n' := by
    rintro rfl
    cases hc
  have hreturn : c ≠ '\r' := by
    rintro rfl
    cases hc
  have hread : ∃ more pieces, readLines '\n' text.toList = (c :: more) :: pieces := by
    rw [htext, readLines, if_neg hnewline]
    cases readLines '\n' rest with
    | nil => exact ⟨[], [], rfl⟩
    | cons first pieces => exact ⟨first, pieces, rfl⟩
  obtain ⟨more, pieces, hread⟩ := hread
  unfold strLines
  rw [hread, List.map_cons]
  refine ⟨_, _, rfl, ?_⟩
  split
  · rename_i ending hreverse
    have hpiece := List.reverse_eq_iff.mp hreverse
    rw [List.reverse_cons, List.reverse_cons, List.append_assoc] at hpiece
    rw [String.toList_ofList]
    exact head?_of_cons_eq_append hpiece fun heq => hreturn (Option.some.inj heq).symm
  · rename_i ending _ hreverse
    have hpiece := List.reverse_eq_iff.mp hreverse
    rw [List.reverse_cons] at hpiece
    rw [String.toList_ofList]
    exact head?_of_cons_eq_append hpiece fun heq => hnewline (Option.some.inj heq).symm
  · rw [String.toList_ofList]
    rfl

/-- A line that begins so is not blank. -/
theorem trim_ne_empty {line : String} {c : Char} (hhead : line.toList.head? = some c)
    (hc : isWhiteSpace c = false) : trim line ≠ "" := by
  intro hblank
  have htrim : trimChars line.toList = [] := by
    simpa [trim] using congrArg String.toList hblank
  have hspace := isWhiteSpace_of_trimChars_eq_nil htrim c (List.mem_of_head? hhead)
  rw [hc] at hspace
  cases hspace

/-- The lines of a YAML file are not the relays that it lists. -/
theorem filter_strLines_ne (crate : YamlCrate) {relays : List String}
    (hrelays : ∀ relay ∈ relays, Normalized crate.toRelayCrate relay) :
    ((strLines (crate.writeYaml relays)).filter fun line => trim line ≠ "") ≠ relays := by
  intro hsame
  by_cases hnil : relays = []
  · rw [hnil, crate.writeYaml_nil] at hsame
    exact absurd hsame (by decide +kernel)
  · have hhead := crate.head?_writeYaml hnil
    obtain ⟨rest, htext⟩ := List.head?_eq_some_iff.mp hhead
    obtain ⟨line, lines, hlines, hline⟩ := exists_strLines_eq_cons htext (by decide)
    rw [hlines, List.filter_cons_of_pos (by simpa using trim_ne_empty hline (by decide))]
      at hsame
    obtain ⟨entry, hentry⟩ := hrelays line (hsame ▸ List.mem_cons_self)
    rw [head?_of_normalized hentry] at hline
    cases hline

end Lines

section Served

variable {crate : RelayCrate} {bootstrap relays : List String} {root : DirTree String}
  {name contentType content : String} {body : String → String}

theorem body_serveFile (hread : root.readFile name = some (.ok content)) :
    (serveFile crate bootstrap name contentType body root).1.body = body content := by
  rw [serveFile, DirTree.has_of_readFile hread, if_pos rfl, readToString, hread]

theorem readYaml_getRelaysYaml (hfiles : HasServeFiles crate relays root) :
    crate.readYaml (getRelaysYaml crate bootstrap root).1.body =
      some ((strLines (crate.writeYaml relays)).filter fun line => trim line ≠ "") := by
  rw [getRelaysYaml, body_serveFile hfiles.yaml, crate.readYaml_writeYaml]

theorem readJson_getRelaysJson (hfiles : HasServeFiles crate relays root) :
    crate.readJson (getRelaysJson crate bootstrap root).1.body = some relays := by
  rw [getRelaysJson, body_serveFile hfiles.json, id, crate.readJson_writeJson]

theorem splitWhitespace_getRelaysTxt (hfiles : HasServeFiles crate relays root)
    (hrelays : ∀ relay ∈ relays, Normalized crate relay) :
    splitWhitespace (getRelaysTxt crate bootstrap root).1.body = relays := by
  rw [getRelaysTxt, body_serveFile hfiles.txt, id]
  apply splitWhitespace_intercalate
  · intro relay hrelay
    obtain ⟨line, hline⟩ := hrelays relay hrelay
    exact isWhiteSpace_of_mem_normalized hline
  · intro relay hrelay
    obtain ⟨line, hline⟩ := hrelays relay hrelay
    exact toList_ne_nil_of_normalized hline

/-- The relays of the files are those that were collected. -/
theorem eq_aggregateRelays_of_hasServeFiles {written : DirTree String}
    (hwrite : writeRelaysServeFiles crate bootstrap root = (.ok (), written))
    (hfiles : HasServeFiles crate relays written) :
    relays = aggregateRelays bootstrap (yamlEntries crate root) := by
  obtain ⟨-, hwrite⟩ := writeRelaysServeFiles_eq_ok_iff.mp hwrite
  have hwritten := hasServeFiles_of_writeServeFiles hwrite
  have hread := readYaml_of_hasServeFiles hfiles hwritten.yaml
  rw [crate.readYaml_writeYaml] at hread
  exact (Option.some.inj hread).symm

end Served

/-- Whatever list is written to the root, the JSON and the text that are served are that
list, and the YAML is another one. -/
theorem not_servedAsWritten (crate : YamlCrate) (embedded : String)
    (relaysYaml : Option String) {root written : DirTree String} {relays : List String}
    (hwrite : writeRelaysServeFiles crate.toRelayCrate
      (loadBootstrapRelays crate.toRelayCrate embedded relaysYaml) root = (.ok (), written))
    (hfiles : HasServeFiles crate.toRelayCrate relays written) (bootstrap : List String) :
    ¬ ServedAsWritten crate.toRelayCrate bootstrap written relays ∧
      crate.readJson (getRelaysJson crate.toRelayCrate bootstrap written).1.body =
        some relays ∧
      splitWhitespace (getRelaysTxt crate.toRelayCrate bootstrap written).1.body = relays := by
  have hrelays : ∀ relay ∈ relays, Normalized crate.toRelayCrate relay := by
    rw [eq_aggregateRelays_of_hasServeFiles hwrite hfiles]
    exact fun relay hrelay => normalized_of_mem_aggregateRelays hrelay
  refine ⟨?_, readJson_getRelaysJson hfiles, splitWhitespace_getRelaysTxt hfiles hrelays⟩
  rintro ⟨hyaml, -⟩
  rw [readYaml_getRelaysYaml hfiles, Option.some.injEq] at hyaml
  exact filter_strLines_ne crate hrelays hyaml

section Table

def tableYaml : YamlCrate where
  toRelayCrate := tableCrate
  writeYaml_nil := by decide +kernel
  head?_writeYaml := by
    intro relays hne
    have htable : ∀ entry ∈ yamlTable, entry.1 ≠ [] → entry.2.toList.head? = some '-' := by
      decide +kernel
    change ((yamlTable.lookup relays).getD (writeYamlRest relays)).toList.head? = some '-'
    cases hlookup : yamlTable.lookup relays with
    | none =>
        rw [Option.getD_none, writeYamlRest, String.toList_append]
        rfl
    | some text =>
        obtain ⟨before, after, hsplit, -⟩ := List.lookup_eq_some_iff.mp hlookup
        exact htable (relays, text) (by simp [hsplit]) hne

/-- A directory that had nothing in it, with the files of one relay. -/
def oneRelayRoot : DirTree String :=
  .file "relays.yaml" (.ok "- wss://a/\n")
    (.file "relays.json" (.ok "[\n  \"wss://a/\"\n]")
      (.file "relays.txt" (.ok "wss://a/") .nil))

theorem hasServeFiles_oneRelayRoot : HasServeFiles tableCrate ["wss://a/"] oneRelayRoot := by
  constructor <;> decide +kernel

theorem not_servedAsWritten_oneRelayRoot :
    ¬ ServedAsWritten tableCrate [] oneRelayRoot ["wss://a/"] ∧
      tableCrate.readJson (getRelaysJson tableCrate [] oneRelayRoot).1.body =
        some ["wss://a/"] ∧
      splitWhitespace (getRelaysTxt tableCrate [] oneRelayRoot).1.body = ["wss://a/"] := by
  have hwrite : writeRelaysServeFiles tableCrate
      (loadBootstrapRelays tableCrate "- wss://a/\n" none) .nil = (.ok (), oneRelayRoot) := by
    decide +kernel
  exact not_servedAsWritten tableYaml "- wss://a/\n" none hwrite hasServeFiles_oneRelayRoot []

/-- The item of the list is the line of the file with its dash. -/
theorem getRelaysYaml_oneRelayRoot :
    writeRelaysServeFiles tableCrate ["wss://a/"] .nil = (.ok (), oneRelayRoot) ∧
      (getRelaysYaml tableCrate ["wss://a/"] oneRelayRoot).1.body = "- '- wss://a/'\n" ∧
      ¬ ServedAsWritten tableCrate ["wss://a/"] oneRelayRoot ["wss://a/"] := by
  have hbody : (getRelaysYaml tableCrate ["wss://a/"] oneRelayRoot).1.body =
      "- '- wss://a/'\n" := by decide +kernel
  refine ⟨by decide +kernel, hbody, ?_⟩
  rintro ⟨hyaml, -⟩
  rw [hbody] at hyaml
  revert hyaml
  decide +kernel

end Table

end Crawler

end Gnostr
