/-
The relays of each NIP in a directory of its own: `prime_all_nip_relays_files` of
`crawler/src/api.rs` and `write_nip_relays_serve_files_from_dir` of
`crawler/src/relays.rs`.
-/
import Gnostr.Lib.HashMap
import Gnostr.Lib.SortDedup

namespace Gnostr

namespace Crawler

/-- What is asked of a parsed URL. -/
structure HostUrl where
  serialization : String
  scheme : String
  host : Option String
deriving DecidableEq

/-- The scheme is `ws` or `wss`. -/
def HostUrl.IsWebSocket (url : HostUrl) : Prop := url.scheme = "ws" ∨ url.scheme = "wss"

/-- The URL parser in use.  A serialization is parsed to what it is the serialization of.
A relay's URL has a host, which is parsed again when it stands alone. -/
structure HostUrlParser where
  parse : String → Option HostUrl
  parse_serialization : ∀ {text : String} {url : HostUrl},
    parse text = some url → parse url.serialization = some url
  parse_host : ∀ {text : String} {url : HostUrl}, parse text = some url →
    url.IsWebSocket → ∃ host, url.host = some host ∧
      parse ("wss://" ++ host) = some ⟨"wss://" ++ host ++ "/", "wss", some host⟩

/-- What a relay says of itself, with the text it is kept as once its ping is known. -/
structure RelayMetadata where
  supportedNips : Option (List Int32)
  toStringPretty : UInt64 → String

/-- What is written to a file, before it is made a text. -/
inductive FileContent
  | metadata (text : String)
  | yaml (relays : List String)
  | jsonPretty (relays : List String)
  | text (joined : String)
deriving DecidableEq

/-- A directory: the contents of its files. -/
abbrev Directory := Finmap fun _ : String => FileContent

/-- The libraries, and the orders in which a directory and a map are read. -/
structure Sniper where
  parser : HostUrlParser
  parseRelayMetadata : String → Option RelayMetadata
  readDir : IterOrder String
  nips : IterOrder Int32

section Prime

variable (sniper : Sniper)

/-- What has been read so far: the directories of the NIPs, and the relays of each. -/
structure Primed where
  dirs : Int32 → Directory
  nipRelays : Finmap fun _ : Int32 => Finset String

/-- The answer of a relay: its URL, the body and the ping. -/
abbrev Answer := Except String (String × String × UInt64)

/-- A relay and a NIP that it supports. -/
structure Report where
  url : String
  metadata : RelayMetadata
  pingMs : UInt64
  nip : Int32

/-- The NIPs that a relay reports. -/
def reports : Answer → List Report
  | .error _ => []
  | .ok (url, jsonString, pingMs) =>
      if jsonString = "" then []
      else
        match sniper.parseRelayMetadata jsonString with
        | none => []
        | some relayInfo =>
            (relayInfo.supportedNips.getD []).map fun nip => ⟨url, relayInfo, pingMs, nip⟩

/-- The file of a relay, which is named after its host. -/
def relayFileName (url : HostUrl) : String := url.host.getD "unknown" ++ ".json"

/-- The body of the loop over the NIPs of a relay. -/
def recordReport (primed : Primed) (report : Report) : Primed where
  dirs :=
    match sniper.parser.parse report.url with
    | some parsedUrl =>
        Function.update primed.dirs report.nip
          ((primed.dirs report.nip).insert (relayFileName parsedUrl)
            (.metadata (report.metadata.toStringPretty report.pingMs)))
    | none => primed.dirs
  nipRelays :=
    primed.nipRelays.insert report.nip
      (insert report.url ((primed.nipRelays.lookup report.nip).getD ∅))

/-- `strip_suffix`. -/
def stripJson (name : String) : Option String :=
  if ".json".toList <:+ name.toList then
    some (String.ofList (name.toList.take (name.toList.length - 5)))
  else none

/-- The relay that a file of a directory stands for. -/
def relayOfFile (name : String) : Option String :=
  if name = "relays.json" then none
  else do
    let host ← stripJson name
    let url ← sniper.parser.parse ("wss://" ++ host)
    return url.serialization

/-- The relays of a directory, sorted and each once. -/
def relaysOfDir (dir : Directory) : List String :=
  (((sniper.readDir.list dir.keys).filterMap (relayOfFile sniper)).mergeSort
    fun a b => decide (a ≤ b)).destutter (· ≠ ·)

/-- `write_nip_relays_serve_files_from_dir`, of one directory. -/
def writeNipRelaysServeFilesFromDir (dir : Directory) : Directory :=
  let relays := relaysOfDir sniper dir
  ((dir.insert "relays.yaml" (.yaml relays)).insert "relays.json"
    (.jsonPretty relays)).insert "relays.txt" (.text (String.intercalate " " relays))

/-- The first loop, over the answers of the relays. -/
def readAnswers (bodies : List Answer) (primed : Primed) : Primed :=
  bodies.foldl (fun primed item => (reports sniper item).foldl (recordReport sniper) primed)
    primed

/-- The directories of the NIPs after a pass. -/
def primeAllNipRelaysFiles (bodies : List Answer) (dirs : Int32 → Directory) :
    Int32 → Directory :=
  let primed := readAnswers sniper bodies ⟨dirs, ∅⟩
  (sniper.nips.list primed.nipRelays.keys).foldl
    (fun dirs nip =>
      Function.update dirs nip (writeNipRelaysServeFilesFromDir sniper (dirs nip)))
    primed.dirs

end Prime

section Listed

variable {sniper : Sniper}

theorem mem_relaysOfDir_iff {dir : Directory} {url : String} :
    url ∈ relaysOfDir sniper dir ↔ ∃ name ∈ dir, relayOfFile sniper name = some url := by
  rw [relaysOfDir, mem_destutter_ne_iff, List.mem_mergeSort, List.mem_filterMap]
  simp only [sniper.readDir.mem_list, Finmap.mem_keys]

end Listed

section Recorded

variable {sniper : Sniper}

/-- The directories have the files of the relays that reported, and the map the NIPs that
were reported. -/
structure Primed.Holds (sniper : Sniper) (primed : Primed)
    (reported : Int32 → String → Prop) : Prop where
  files : ∀ nip name, name ∈ primed.dirs nip ↔
    ∃ url, reported nip url ∧ (sniper.parser.parse url).map relayFileName = some name
  nips : ∀ nip, nip ∈ primed.nipRelays ↔ ∃ url, reported nip url

/-- A report adds the file of its relay to the directory of its NIP. -/
theorem mem_dirs_recordReport_iff {primed : Primed} {report : Report} {nip : Int32}
    {name : String} :
    name ∈ (recordReport sniper primed report).dirs nip ↔
      name ∈ primed.dirs nip ∨ report.nip = nip ∧
        (sniper.parser.parse report.url).map relayFileName = some name := by
  unfold recordReport
  cases hparse : sniper.parser.parse report.url with
  | none => exact (or_iff_left fun hnew => Option.some_ne_none name hnew.2.symm).symm
  | some url =>
      dsimp only
      rw [Option.map_some, Option.some.injEq]
      by_cases hnip : nip = report.nip
      · subst hnip
        rw [Function.update_self, Finmap.mem_insert, and_iff_right rfl, or_comm,
          eq_comm (a := name)]
      · rw [Function.update_of_ne hnip]
        exact (or_iff_left fun hnew => hnip hnew.1.symm).symm

theorem mem_nipRelays_recordReport_iff {primed : Primed} {report : Report} {nip : Int32} :
    nip ∈ (recordReport sniper primed report).nipRelays ↔
      nip ∈ primed.nipRelays ∨ report.nip = nip := by
  rw [recordReport, Finmap.mem_insert, or_comm, eq_comm (a := nip)]

theorem Primed.Holds.recordReport {primed : Primed} {reported : Int32 → String → Prop}
    (hholds : primed.Holds sniper reported) (report : Report) :
    (recordReport sniper primed report).Holds sniper
      fun nip url => reported nip url ∨ report.nip = nip ∧ report.url = url where
  files nip name := by
    rw [mem_dirs_recordReport_iff, hholds.files]
    constructor
    · rintro (⟨url, hreported, hname⟩ | ⟨hnip, hname⟩)
      · exact ⟨url, .inl hreported, hname⟩
      · exact ⟨report.url, .inr ⟨hnip, rfl⟩, hname⟩
    · rintro ⟨url, hreported | ⟨hnip, rfl⟩, hname⟩
      · exact .inl ⟨url, hreported, hname⟩
      · exact .inr ⟨hnip, hname⟩
  nips nip := by
    rw [mem_nipRelays_recordReport_iff, hholds.nips, exists_or]
    exact or_congr_right ⟨fun hnip => ⟨report.url, hnip, rfl⟩, fun ⟨_, hnip, _⟩ => hnip⟩

theorem Primed.Holds.foldl {primed : Primed} {reported : Int32 → String → Prop}
    (hholds : primed.Holds sniper reported) (reports : List Report) :
    (reports.foldl (Crawler.recordReport sniper) primed).Holds sniper fun nip url =>
      reported nip url ∨ ∃ report ∈ reports, report.nip = nip ∧ report.url = url := by
  induction reports generalizing primed reported with
  | nil =>
      have hsame : (fun nip url => reported nip url ∨
          ∃ report ∈ ([] : List Report), report.nip = nip ∧ report.url = url) =
            reported := by
        funext nip url
        exact propext (or_iff_left fun ⟨_, hmem, _⟩ => List.not_mem_nil hmem)
      rw [hsame]
      exact hholds
  | cons first reports ih =>
      have hrest := ih (hholds.recordReport first)
      have hsame : (fun nip url => reported nip url ∨
          ∃ report ∈ first :: reports, report.nip = nip ∧ report.url = url) =
          fun nip url => (reported nip url ∨ first.nip = nip ∧ first.url = url) ∨
            ∃ report ∈ reports, report.nip = nip ∧ report.url = url := by
        funext nip url
        simp only [List.exists_mem_cons_iff, or_assoc]
      rw [hsame]
      exact hrest

/-- A relay reported a NIP in one of the answers. -/
def Reported (sniper : Sniper) (bodies : List Answer) (nip : Int32) (url : String) : Prop :=
  ∃ item ∈ bodies, ∃ report ∈ reports sniper item, report.nip = nip ∧ report.url = url

/-- After the first loop, from empty directories. -/
theorem holds_readAnswers (sniper : Sniper) (bodies : List Answer) :
    (readAnswers sniper bodies ⟨fun _ => ∅, ∅⟩).Holds sniper (Reported sniper bodies) := by
  have hempty : Primed.Holds sniper ⟨fun _ => ∅, ∅⟩ fun _ _ => False := by
    constructor
    · exact fun _ name =>
        iff_of_false (Finmap.notMem_empty) fun ⟨_, hfalse, _⟩ => hfalse
    · exact fun nip => iff_of_false (Finmap.notMem_empty) fun ⟨_, hfalse⟩ => hfalse
  have hholds := hempty.foldl (bodies.flatMap (reports sniper))
  rw [List.foldl_flatMap] at hholds
  have hsame : Reported sniper bodies = fun nip url => False ∨
      ∃ report ∈ bodies.flatMap (reports sniper), report.nip = nip ∧ report.url = url := by
    funext nip url
    rw [Reported, false_or]
    simp only [List.mem_flatMap]
    apply propext
    constructor
    · rintro ⟨item, hitem, report, hreport, hsame⟩
      exact ⟨report, ⟨item, hitem, hreport⟩, hsame⟩
    · rintro ⟨report, ⟨item, hitem, hreport⟩, hsame⟩
      exact ⟨item, hitem, report, hreport, hsame⟩
  rw [hsame]
  exact hholds

end Recorded

section Rebuilt

variable {sniper : Sniper}

/-- Each directory is rebuilt on its own, and once. -/
theorem foldl_update_apply {β : Type*} (rebuild : β → β) {nips : List Int32}
    (hnodup : nips.Nodup) (dirs : Int32 → β) (nip : Int32) :
    nips.foldl (fun dirs nip => Function.update dirs nip (rebuild (dirs nip))) dirs nip =
      if nip ∈ nips then rebuild (dirs nip) else dirs nip := by
  induction nips generalizing dirs with
  | nil => rfl
  | cons first nips ih =>
      obtain ⟨hfirst, hnodup⟩ := List.nodup_cons.mp hnodup
      rw [List.foldl_cons, ih hnodup]
      by_cases hnip : nip = first
      · subst hnip
        rw [if_neg hfirst, if_pos List.mem_cons_self, Function.update_self]
      · rw [Function.update_of_ne hnip]
        simp only [List.mem_cons, hnip, false_or]

theorem stripJson_append (host : String) : stripJson (host ++ ".json") = some host := by
  have htoList : (host ++ ".json").toList = host.toList ++ ".json".toList :=
    String.toList_append
  rw [stripJson, htoList, if_pos (List.suffix_append _ _), List.length_append]
  have hlength : host.toList.length + ".json".toList.length - 5 = host.toList.length :=
    Nat.add_sub_cancel host.toList.length 5
  rw [hlength, List.take_left, String.ofList_toList]

/-- The relay that a file stands for has the host in its name, and nothing else of the
relay that it was written for. -/
theorem relayOfFile_of_host {host : String}
    (hparse : sniper.parser.parse ("wss://" ++ host) =
      some ⟨"wss://" ++ host ++ "/", "wss", some host⟩) (hhost : host ≠ "relays") :
    relayOfFile sniper (host ++ ".json") = some ("wss://" ++ host ++ "/") := by
  have hname : host ++ ".json" ≠ "relays.json" := by
    intro heq
    have hsame : host ++ ".json" = "relays" ++ ".json" := heq
    exact hhost (String.append_left_inj ".json" |>.mp hsame)
  rw [relayOfFile, if_neg hname, stripJson_append]
  change (sniper.parser.parse ("wss://" ++ host)).bind _ = _
  rw [hparse]
  rfl

end Rebuilt

section Complete

variable (sniper : Sniper) (bodies : List Answer) (nip : Int32)

/-- The files of a directory list these relays.  Where there is none there are no
files. -/
structure Directory.Lists (dir : Directory) (relays : List String) : Prop where
  empty : relays = [] → dir = ∅
  txt : relays ≠ [] → dir.lookup "relays.txt" = some (.text (String.intercalate " " relays))
  json : relays ≠ [] → dir.lookup "relays.json" = some (.jsonPretty relays)
  yaml : relays ≠ [] → dir.lookup "relays.yaml" = some (.yaml relays)

/-- The relays that reported the NIP, in their normal form. -/
def IsReportedUrl (url : String) : Prop :=
  ∃ reported parsedUrl, Reported sniper bodies nip reported ∧
    sniper.parser.parse reported = some parsedUrl ∧ parsedUrl.serialization = url

/-- After a pass over empty directories the files of the NIP list the relays that
reported it. -/
def BucketComplete : Prop :=
  ∃ relays, (primeAllNipRelaysFiles sniper bodies (fun _ => ∅) nip).Lists relays ∧
    ∀ url, url ∈ relays ↔ IsReportedUrl sniper bodies nip url

/-- The URL is nothing but a host behind `wss`, and the file of the host is not taken for
the list. -/
def HostUrl.IsPlain (url : HostUrl) : Prop :=
  ∃ host, url.host = some host ∧ url.serialization = "wss://" ++ host ++ "/" ∧
    host ≠ "relays"

variable {sniper bodies nip}

theorem dir_primeAllNipRelaysFiles :
    primeAllNipRelaysFiles sniper bodies (fun _ => ∅) nip =
      let primed := readAnswers sniper bodies ⟨fun _ => ∅, ∅⟩
      if nip ∈ primed.nipRelays then
        writeNipRelaysServeFilesFromDir sniper (primed.dirs nip)
      else primed.dirs nip := by
  unfold primeAllNipRelaysFiles
  dsimp only
  rw [foldl_update_apply _ (sniper.nips.nodup_list _)]
  simp only [sniper.nips.mem_list, Finmap.mem_keys]

/-- The relays of the answers are on web sockets, as those that the crawler knows. -/
def AllWebSockets (sniper : Sniper) (bodies : List Answer) : Prop :=
  ∀ nip url, Reported sniper bodies nip url →
    ∃ parsedUrl, sniper.parser.parse url = some parsedUrl ∧ parsedUrl.IsWebSocket

/-- The rebuilt list has the bare hosts of the relays that reported the NIP. -/
theorem mem_relaysOfDir_readAnswers_iff (hws : AllWebSockets sniper bodies) {url : String} :
    url ∈ relaysOfDir sniper ((readAnswers sniper bodies ⟨fun _ => ∅, ∅⟩).dirs nip) ↔
      ∃ reported parsedUrl host, Reported sniper bodies nip reported ∧
        sniper.parser.parse reported = some parsedUrl ∧ parsedUrl.host = some host ∧
        host ≠ "relays" ∧ url = "wss://" ++ host ++ "/" := by
  have hholds := holds_readAnswers sniper bodies
  rw [mem_relaysOfDir_iff]
  constructor
  · rintro ⟨name, hname, hurl⟩
    obtain ⟨reported, hreported, hfile⟩ := (hholds.files nip name).mp hname
    obtain ⟨parsedUrl, hparsed, hwebSocket⟩ := hws nip reported hreported
    obtain ⟨host, hhost, hparse⟩ := sniper.parser.parse_host hparsed hwebSocket
    have hname : host ++ ".json" = name := by
      rw [hparsed, Option.map_some, Option.some.injEq, relayFileName, hhost] at hfile
      exact hfile
    subst hname
    have hrelays : host ≠ "relays" := by
      rintro rfl
      rw [relayOfFile, if_pos (by decide)] at hurl
      cases hurl
    rw [relayOfFile_of_host hparse hrelays] at hurl
    exact ⟨reported, parsedUrl, host, hreported, hparsed, hhost, hrelays,
      (Option.some.inj hurl).symm⟩
  · rintro ⟨reported, parsedUrl, host, hreported, hparsed, hhost, hrelays, rfl⟩
    obtain ⟨parsedUrl', hparsed', hwebSocket⟩ := hws nip reported hreported
    obtain rfl := Option.some.inj (hparsed.symm.trans hparsed')
    obtain ⟨host', hhost', hparse⟩ := sniper.parser.parse_host hparsed hwebSocket
    obtain rfl := Option.some.inj (hhost.symm.trans hhost')
    refine ⟨host ++ ".json", (hholds.files nip _).mpr ⟨reported, hreported, ?_⟩,
      relayOfFile_of_host hparse hrelays⟩
    rw [hparsed, Option.map_some, relayFileName, hhost, Option.getD_some]

theorem lists_writeNipRelaysServeFilesFromDir {dir : Directory}
    (hrelays : relaysOfDir sniper dir ≠ []) :
    (writeNipRelaysServeFilesFromDir sniper dir).Lists (relaysOfDir sniper dir) where
  empty hnone := absurd hnone hrelays
  txt _ := Finmap.lookup_insert _
  json _ := by
    rw [writeNipRelaysServeFilesFromDir, Finmap.lookup_insert_of_ne _ (by decide),
      Finmap.lookup_insert]
  yaml _ := by
    rw [writeNipRelaysServeFilesFromDir, Finmap.lookup_insert_of_ne _ (by decide),
      Finmap.lookup_insert_of_ne _ (by decide), Finmap.lookup_insert]

theorem jsonPretty_writeNipRelaysServeFilesFromDir (dir : Directory) :
    (writeNipRelaysServeFilesFromDir sniper dir).lookup "relays.json" =
      some (.jsonPretty (relaysOfDir sniper dir)) := by
  rw [writeNipRelaysServeFilesFromDir, Finmap.lookup_insert_of_ne _ (by decide),
    Finmap.lookup_insert]

/-- Where no relay reported the NIP, its directory stays empty. -/
theorem dirs_readAnswers_of_not_reported (hnone : ∀ url, ¬ Reported sniper bodies nip url) :
    (readAnswers sniper bodies ⟨fun _ => ∅, ∅⟩).dirs nip = ∅ := by
  have hholds := holds_readAnswers sniper bodies
  apply Finmap.ext_lookup
  intro name
  rw [Finmap.lookup_empty, Finmap.lookup_eq_none, hholds.files]
  rintro ⟨url, hreported, -⟩
  exact hnone url hreported

/-- A URL with the text of a bare host is that of the host. -/
theorem isPlain_of_serialization {url hosted : String} {parsedUrl hostUrl : HostUrl}
    {host : String} (hparsed : sniper.parser.parse url = some parsedUrl)
    (hhosted : sniper.parser.parse hosted = some hostUrl) (hwebSocket : hostUrl.IsWebSocket)
    (hhost : hostUrl.host = some host) (hrelays : host ≠ "relays")
    (hserialization : parsedUrl.serialization = "wss://" ++ host ++ "/") :
    parsedUrl.IsPlain := by
  obtain ⟨host', hhost', hparse⟩ := sniper.parser.parse_host hhosted hwebSocket
  obtain rfl := Option.some.inj (hhost.symm.trans hhost')
  have hbare := sniper.parser.parse_serialization hparse
  have hself := sniper.parser.parse_serialization hparsed
  rw [hserialization, hbare, Option.some.injEq] at hself
  subst hself
  exact ⟨host, rfl, rfl, hrelays⟩

theorem isPlain_of_bucketComplete (hws : AllWebSockets sniper bodies)
    (hcomplete : BucketComplete sniper bodies nip) {url : String} {parsedUrl : HostUrl}
    (hreported : Reported sniper bodies nip url)
    (hparsed : sniper.parser.parse url = some parsedUrl) : parsedUrl.IsPlain := by
  have hholds := holds_readAnswers sniper bodies
  obtain ⟨relays, hlists, hrelays⟩ := hcomplete
  have hlisted : parsedUrl.serialization ∈ relays :=
    (hrelays _).mpr ⟨url, parsedUrl, hreported, hparsed, rfl⟩
  have hjson := hlists.json (List.ne_nil_of_mem hlisted)
  have hdir := @dir_primeAllNipRelaysFiles sniper bodies nip
  dsimp only at hdir
  rw [hdir, if_pos ((hholds.nips nip).mpr ⟨url, hreported⟩),
    jsonPretty_writeNipRelaysServeFilesFromDir, Option.some.injEq,
    FileContent.jsonPretty.injEq] at hjson
  rw [← hjson, mem_relaysOfDir_readAnswers_iff hws] at hlisted
  obtain ⟨other, otherUrl, host, hother, hparsed', hhost, hnot, hserialization⟩ := hlisted
  obtain ⟨otherUrl', hparsed'', hwebSocket⟩ := hws nip other hother
  obtain rfl := Option.some.inj (hparsed'.symm.trans hparsed'')
  exact isPlain_of_serialization hparsed hparsed' hwebSocket hhost hnot hserialization

theorem mem_relaysOfDir_iff_isReportedUrl (hws : AllWebSockets sniper bodies)
    (hplain : ∀ url parsedUrl, Reported sniper bodies nip url →
      sniper.parser.parse url = some parsedUrl → parsedUrl.IsPlain) (url : String) :
    url ∈ relaysOfDir sniper ((readAnswers sniper bodies ⟨fun _ => ∅, ∅⟩).dirs nip) ↔
      IsReportedUrl sniper bodies nip url := by
  rw [mem_relaysOfDir_readAnswers_iff hws]
  constructor
  · rintro ⟨reported, parsedUrl, host, hreported, hparsed, hhost, -, rfl⟩
    obtain ⟨host', hhost', hserialization, -⟩ := hplain reported parsedUrl hreported hparsed
    obtain rfl := Option.some.inj (hhost.symm.trans hhost')
    exact ⟨reported, parsedUrl, hreported, hparsed, hserialization⟩
  · rintro ⟨reported, parsedUrl, hreported, hparsed, rfl⟩
    obtain ⟨host, hhost, hserialization, hnot⟩ := hplain reported parsedUrl hreported hparsed
    exact ⟨reported, parsedUrl, host, hreported, hparsed, hhost, hnot, hserialization⟩

theorem bucketComplete_of_isPlain (hws : AllWebSockets sniper bodies)
    (hplain : ∀ url parsedUrl, Reported sniper bodies nip url →
      sniper.parser.parse url = some parsedUrl → parsedUrl.IsPlain) :
    BucketComplete sniper bodies nip := by
  have hholds := holds_readAnswers sniper bodies
  have hsame := mem_relaysOfDir_iff_isReportedUrl hws hplain
  have hdir := @dir_primeAllNipRelaysFiles sniper bodies nip
  dsimp only at hdir
  by_cases hreported : ∃ url, Reported sniper bodies nip url
  · refine ⟨_, ?_, hsame⟩
    rw [hdir, if_pos ((hholds.nips nip).mpr hreported)]
    obtain ⟨url, hreported⟩ := hreported
    obtain ⟨parsedUrl, hparsed, -⟩ := hws nip url hreported
    have hlisted := (hsame _).mpr ⟨url, parsedUrl, hreported, hparsed, rfl⟩
    exact lists_writeNipRelaysServeFilesFromDir (List.ne_nil_of_mem hlisted)
  · have hnone : ∀ url, ¬ Reported sniper bodies nip url := not_exists.mp hreported
    refine ⟨[], ?_, fun url => iff_of_false List.not_mem_nil ?_⟩
    · rw [hdir, if_neg fun hnip => hreported ((hholds.nips nip).mp hnip)]
      exact ⟨fun _ => dirs_readAnswers_of_not_reported hnone, absurd rfl, absurd rfl,
        absurd rfl⟩
    · rintro ⟨reported, -, hreported, -⟩
      exact hnone reported hreported

/-- The lists of a NIP are complete exactly when no relay that reported it has more to its
URL than a host. -/
theorem bucketComplete_iff (hws : AllWebSockets sniper bodies) :
    BucketComplete sniper bodies nip ↔
      ∀ url parsedUrl, Reported sniper bodies nip url →
        sniper.parser.parse url = some parsedUrl → parsedUrl.IsPlain :=
  ⟨fun hcomplete _ _ => isPlain_of_bucketComplete hws hcomplete,
    bucketComplete_of_isPlain hws⟩

/-- Two relays on one host. -/
def twoRelays : HostUrlParser where
  parse text :=
    if text = "wss://relay.example.com" ∨ text = "wss://relay.example.com/" then
      some ⟨"wss://relay.example.com/", "wss", some "relay.example.com"⟩
    else if text = "ws://relay.example.com:8080/" then
      some ⟨"ws://relay.example.com:8080/", "ws", some "relay.example.com"⟩
    else none
  parse_serialization := by
    intro text url hparse
    split_ifs at hparse
    all_goals
      obtain rfl := Option.some.inj hparse
      decide
  parse_host := by
    intro text url hparse _
    split_ifs at hparse
    all_goals
      obtain rfl := Option.some.inj hparse
      exact ⟨"relay.example.com", rfl, by decide⟩

/-- Every relay reports the first NIP. -/
noncomputable def sniperOne : Sniper where
  parser := twoRelays
  parseRelayMetadata _ := some ⟨some [1], fun _ => "\x7b\"supported_nips\":[1]\x7d"⟩
  readDir := IterOrder.some String
  nips := IterOrder.some Int32

def portAnswer : Answer :=
  .ok ("ws://relay.example.com:8080/", "\x7b\"supported_nips\":[1]\x7d", 5)

theorem reported_portAnswer_iff {nip : Int32} {url : String} :
    Reported sniperOne [portAnswer] nip url ↔
      nip = 1 ∧ url = "ws://relay.example.com:8080/" := by
  have hreports : reports sniperOne portAnswer =
      [⟨"ws://relay.example.com:8080/",
        ⟨some [1], fun _ => "\x7b\"supported_nips\":[1]\x7d"⟩, 5, 1⟩] := by
    rw [portAnswer, reports, if_neg (by decide)]
    rfl
  rw [Reported]
  simp only [List.mem_singleton, exists_eq_left, hreports]
  rw [eq_comm, eq_comm (b := url)]

theorem parse_portAnswer : twoRelays.parse "ws://relay.example.com:8080/" =
    some ⟨"ws://relay.example.com:8080/", "ws", some "relay.example.com"⟩ := by
  decide

theorem allWebSockets_portAnswer : AllWebSockets sniperOne [portAnswer] := by
  intro nip url hreported
  obtain ⟨-, rfl⟩ := reported_portAnswer_iff.mp hreported
  exact ⟨_, parse_portAnswer, .inl rfl⟩

theorem bucketComplete_iff_portAnswer :
    BucketComplete sniperOne [portAnswer] 1 ↔
      ∀ url parsedUrl, Reported sniperOne [portAnswer] 1 url →
        sniperOne.parser.parse url = some parsedUrl → parsedUrl.IsPlain :=
  bucketComplete_iff allWebSockets_portAnswer

/-- The list names `wss://relay.example.com/`, which reported nothing. -/
theorem not_bucketComplete_portAnswer :
    ¬ ∀ (sniper : Sniper) (bodies : List Answer), AllWebSockets sniper bodies →
      ∀ nip, BucketComplete sniper bodies nip := by
  intro hall
  have hcomplete := hall sniperOne [portAnswer] allWebSockets_portAnswer 1
  obtain ⟨host, hhost, hserialization, -⟩ :=
    isPlain_of_bucketComplete allWebSockets_portAnswer hcomplete
      (reported_portAnswer_iff.mpr ⟨rfl, rfl⟩) parse_portAnswer
  obtain rfl := Option.some.inj hhost
  exact absurd hserialization (by decide)

end Complete

end Crawler

end Gnostr
