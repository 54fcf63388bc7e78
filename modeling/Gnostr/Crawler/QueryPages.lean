/-
The query pages of the crawler: `get_query` and `get_nip_query` of
`crawler/src/api.rs`, with what they send to relays and what they answer.
-/
import Gnostr.Crawler.Html
import Gnostr.Crawler.Query
import Gnostr.Crawler.Send

namespace Gnostr

namespace Crawler

open Gnostr.Types

/-- What the handlers work with: libraries, the relays the crawler knows, and the relays
on the network. -/
structure Server where
  hex : HexCrate
  reader : JsonReader
  parseUrl : String → Except String Url
  knownRelays : List String
  liveKinds : List String
  nipRelaysTxt : Int32 → Except String String
  network : Network

/-- The parameters of a request. -/
abbrev Params := String → Option String

structure Response where
  status : ℕ
  contentType : String
  body : String

def htmlResponse (status : ℕ) (html : String) : Response := ⟨status, "text/html", html⟩

section Handlers

def nonEmptyParam (params : Params) (key : String) : Option String :=
  (params key).filter fun value => trim value != ""

/-- `parse::<i32>`. -/
def parseI32 (text : String) : Option Int32 :=
  (parseSigned (2 ^ 31) text.toList).map Int32.ofInt

/-- What both handlers ask for, but for the kinds. -/
def queryArgs (params : Params) (kinds : Option String) : QueryArgs where
  authors := nonEmptyParam params "authors"
  ids := nonEmptyParam params "ids"
  limit := (params "limit").bind parseI32
  generic := do
    let tag ← nonEmptyParam params "generic_tag"
    let value ← nonEmptyParam params "generic_value"
    return (tag, value)
  hashtag := nonEmptyParam params "hashtag"
  mentions := nonEmptyParam params "mentions"
  references := nonEmptyParam params "references"
  kinds := kinds

def localhost8080 : String := "ws://127.0.0.1:8080"

variable (server : Server)

def prependLocalRelay (relays : List Url) : List Url :=
  relays.foldl
    (fun withLocal relay => if relay ∈ withLocal then withLocal else withLocal ++ [relay])
    (server.parseUrl localhost8080).toOption.toList

def executeQueryPage (title : String) (nav : List (String × String))
    (formHtml queryString : String) (relays : List Url) (limit : Option Int32)
    (searchTerm : Option String) : Response × List Request :=
  let sent :=
    send server.hex.toHex server.reader server.network queryString relays
      (limit.or (some 100))
  match sent.1 with
  | .error e =>
      (htmlResponse 502
        (renderPageShell title nav (formHtml ++ "<p>Query failed: " ++ e ++ "</p>")), sent.2)
  | .ok results =>
      let results := searchTerm.elim results (filterQueryResults results)
      let resultsHtml :=
        if results = [] then "<p>No results.</p>"
        else "<pre>" ++ String.intercalate "\n" results ++ "</pre>"
      let body :=
        formHtml ++ "<section><h2>Query results</h2><p><code>" ++ queryString ++
          "</code></p>" ++ resultsHtml ++ "</section>"
      (htmlResponse 200 (renderPageShell title nav body), sent.2)

/-- The relays of a query: the one that is asked for, or the ones that are known. -/
def queryRelays (params : Params) : Except String (List Url) :=
  match nonEmptyParam params "relay" with
  | some relay => (server.parseUrl relay).map fun url => [url]
  | none => .ok (server.knownRelays.filterMap fun relay => (server.parseUrl relay).toOption)

def getQuery (params : Params) : Response × List Request :=
  let args := queryArgs params (nonEmptyParam params "kinds")
  let refuse (message : String) : Response × List Request :=
    (htmlResponse 400
      (renderPageShell "gnostr crawler / query" [("/", "gnostr/crawler")] message), [])
  match buildGnostrQuery server.hex args with
  | .error e => refuse ("<p>Failed to build query: " ++ e ++ "</p>")
  | .ok queryString =>
      match queryRelays server params with
      | .error e => refuse ("<p>Invalid relay URL: " ++ e ++ "</p>")
      | .ok relays =>
          let kindsValue := String.intercalate "," server.liveKinds
          executeQueryPage server "gnostr crawler / query"
            [("/", "gnostr/crawler"), ("/query", "query")]
            (genericQueryForm "/query" (some kindsValue)) (escapeHtml queryString)
            (prependLocalRelay server relays) args.limit (nonEmptyParam params "search")

def splitWhitespace (content : String) : List String :=
  ((content.toList.splitOnP isWhiteSpace).filter (· ≠ [])).map String.ofList

def loadNipQueryRelays (nipLower : Int32) (relayOverride : Option String) :
    Except String (List Url) :=
  match relayOverride with
  | some relay => (server.parseUrl relay).map fun url => [url]
  | none => do
      let content ← server.nipRelaysTxt nipLower
      let relays :=
        (splitWhitespace content).filterMap fun relay => (server.parseUrl relay).toOption
      if relays = [] then throw ("no relays available for NIP " ++ toString nipLower)
      return relays

/-- The kinds that are asked for where the request names none. -/
def nipDefaultKinds : String := "4,44,1630,1632,1621,30618,1633,1631,1617,30617"

def getNipQuery (nipLower : Int32) (params : Params) : Response × List Request :=
  let defaultKinds := toString nipLower
  let kinds := (params "kinds").or (some nipDefaultKinds)
  let args := queryArgs params (kinds.or (some defaultKinds))
  let relay := nonEmptyParam params "relay"
  let title := "gnostr crawler / NIP " ++ toString nipLower ++ " query"
  let queryHref := "/" ++ toString nipLower ++ "/query"
  let backHref := "/" ++ toString nipLower ++ "/"
  let refuse (status : ℕ) (message : String) : Response :=
    htmlResponse status
      (renderPageShell title [("/", "gnostr/crawler"), (backHref, "back")] message)
  match buildGnostrQuery server.hex args with
  | .error e => (refuse 400 ("<p>Failed to build query: " ++ escapeHtml e ++ "</p>"), [])
  | .ok queryString =>
      match loadNipQueryRelays server nipLower relay with
      | .error e => (refuse 400 ("<p>Failed to load relays: " ++ escapeHtml e ++ "</p>"), [])
      | .ok relays =>
          let sent :=
            send server.hex.toHex server.reader server.network queryString
              (prependLocalRelay server relays) (args.limit.or (some 100))
          match sent.1 with
          | .error e =>
              (refuse 502 ("<p>Query failed: " ++ escapeHtml e ++ "</p>"), sent.2)
          | .ok results =>
              let queryForm :=
                nipQueryForm nipLower queryHref (relay.getD "") (some defaultKinds)
              let results :=
                (nonEmptyParam params "search").elim results (filterQueryResults results)
              let resultsHtml :=
                if results = [] then "<p>No results.</p>"
                else "<pre>" ++ escapeHtml (String.intercalate "\n" results) ++ "</pre>"
              let body :=
                queryForm ++ "<section><h2>NIP " ++ toString nipLower ++
                  " query results</h2><p><code>" ++ escapeHtml queryString ++
                  "</code></p>" ++ resultsHtml ++ "</section>"
              (htmlResponse 200 (renderPageShell title [("/", "gnostr/crawler"),
                (queryHref, "query"), (backHref, "back")] body), sent.2)

end Handlers

section Requests

variable {server : Server} {params : Params}

theorem requests_executeQueryPage (title : String) (nav : List (String × String))
    (formHtml queryString : String) (relays : List Url) (limit : Option Int32)
    (searchTerm : Option String) :
    (executeQueryPage server title nav formHtml queryString relays limit searchTerm).2 =
      (send server.hex.toHex server.reader server.network queryString relays
        (limit.or (some 100))).2 := by
  unfold executeQueryPage
  dsimp only
  split <;> rfl

/-- The query page sends the query it has built in its escaped form, in which no relay can
read it. -/
theorem requests_getQuery {queryString : String}
    (hbuild : buildGnostrQuery server.hex
      (queryArgs params (nonEmptyParam params "kinds")) = .ok queryString) :
    (getQuery server params).2 =
      match queryRelays server params with
      | .error _ => []
      | .ok relays =>
          (send server.hex.toHex server.reader server.network (escapeHtml queryString)
            (prependLocalRelay server relays)
            (((params "limit").bind parseI32).or (some 100))).2 := by
  unfold getQuery
  dsimp only
  rw [hbuild]
  dsimp only
  split
  · rfl
  · exact requests_executeQueryPage ..

/-- The page of a NIP sends the query it has built. -/
theorem text_of_mem_requests_getNipQuery {nipLower : Int32} {queryString : String}
    (hbuild : buildGnostrQuery server.hex
      (queryArgs params (((params "kinds").or (some nipDefaultKinds)).or
        (some (toString nipLower)))) = .ok queryString)
    {request : Request} (hrequest : request ∈ (getNipQuery server nipLower params).2) :
    request.text = queryString := by
  unfold getNipQuery at hrequest
  dsimp only at hrequest
  rw [hbuild] at hrequest
  dsimp only at hrequest
  split at hrequest
  · exact absurd hrequest List.not_mem_nil
  · split at hrequest <;> exact text_of_mem_requests_send hrequest

/-- With kinds that are asked for, even blank ones, both pages build the same query. -/
theorem buildGnostrQuery_explicit_kinds (hex : HexCrate) (params : Params)
    (nipLower : Int32) (hkinds : (params "kinds").isSome) :
    buildGnostrQuery hex (queryArgs params (((params "kinds").or (some nipDefaultKinds)).or
        (some (toString nipLower)))) =
      buildGnostrQuery hex (queryArgs params (nonEmptyParam params "kinds")) := by
  obtain ⟨kinds, hkinds⟩ := Option.isSome_iff_exists.mp hkinds
  unfold nonEmptyParam
  rw [hkinds, Option.some_or, Option.some_or, Option.filter_some]
  split_ifs with hblank
  · rfl
  · have htrim : trim kinds = "" := by simpa using hblank
    exact buildGnostrQuery_of_blank hex (queryArgs params none) htrim

/-- None of the relays of a query takes a connection and a frame. -/
def NoRelayTakes (server : Server) (params : Params) : Prop :=
  ∀ relays, queryRelays server params = .ok relays →
    ∀ i, ∀ hi : i < (prependLocalRelay server relays).length,
      ¬ (server.network i (prependLocalRelay server relays)[i]).Takes

/-- Every text the query page sends is the query that was built, and the text that the
page of any NIP sends, where kinds are asked for. -/
structure SentAsBuilt (server : Server) (params : Params) (queryString : String) :
    Prop where
  as_built : ∀ request ∈ (getQuery server params).2, request.text = queryString
  as_nip : (params "kinds").isSome → ∀ nipLower, ∀ request ∈ (getQuery server params).2,
    ∀ other ∈ (getNipQuery server nipLower params).2, request.text = other.text

variable {queryString : String}

theorem text_of_mem_requests_getQuery
    (hbuild : buildGnostrQuery server.hex
      (queryArgs params (nonEmptyParam params "kinds")) = .ok queryString)
    {request : Request} (hrequest : request ∈ (getQuery server params).2) :
    request.text = escapeHtml queryString := by
  rw [requests_getQuery hbuild] at hrequest
  split at hrequest
  · exact absurd hrequest List.not_mem_nil
  · exact text_of_mem_requests_send hrequest

theorem requests_getQuery_eq_nil_iff
    (hbuild : buildGnostrQuery server.hex
      (queryArgs params (nonEmptyParam params "kinds")) = .ok queryString) :
    (getQuery server params).2 = [] ↔ NoRelayTakes server params := by
  rw [requests_getQuery hbuild, NoRelayTakes]
  cases hrelays : queryRelays server params with
  | error error => exact iff_of_true rfl nofun
  | ok relays =>
      dsimp only
      rw [requests_send_eq_nil_iff]
      constructor
      · rintro hnone _ ⟨⟩
        exact hnone
      · intro hnone
        exact hnone relays rfl

/-- An escaped query is not the query. -/
theorem not_sentAsBuilt_of_request
    (hbuild : buildGnostrQuery server.hex
      (queryArgs params (nonEmptyParam params "kinds")) = .ok queryString)
    (hrequests : (getQuery server params).2 ≠ []) :
    ¬ SentAsBuilt server params queryString := by
  intro hsent
  obtain ⟨request, hrequest⟩ := List.exists_mem_of_ne_nil _ hrequests
  have hescaped := text_of_mem_requests_getQuery hbuild hrequest
  rw [hsent.as_built request hrequest] at hescaped
  have hquote := quote_mem_of_buildGnostrQuery hbuild
  rw [hescaped] at hquote
  exact quote_not_mem_escapeHtml queryString hquote

/-- The query page sends what it has built only where it sends nothing. -/
theorem sentAsBuilt_iff_noRelayTakes
    (hbuild : buildGnostrQuery server.hex
      (queryArgs params (nonEmptyParam params "kinds")) = .ok queryString) :
    SentAsBuilt server params queryString ↔ NoRelayTakes server params := by
  rw [← requests_getQuery_eq_nil_iff hbuild]
  constructor
  · intro hsent
    by_contra hrequests
    exact not_sentAsBuilt_of_request hbuild hrequests hsent
  · intro hnone
    have hnot {request : Request} : request ∉ (getQuery server params).2 := by
      rw [hnone]
      exact List.not_mem_nil
    exact ⟨fun _ hrequest => absurd hrequest hnot,
      fun _ _ _ hrequest => absurd hrequest hnot⟩

/-- A server with a local relay that takes every frame and answers nothing. -/
def localServer : Server where
  hex := ⟨Hex.reference, fun _ => ""⟩
  reader := JsonReader.compact
  parseUrl text := .ok ⟨text⟩
  knownRelays := []
  liveKinds := []
  nipRelaysTxt _ := .ok ""
  network _ _ := ⟨.connected, .ok (), fun _ => []⟩

def kindOneParams : Params := fun key => if key = "kinds" then some "1" else none

def kindOneQuery : String :=
  "[\"REQ\",\"gnostr-query\",\x7b\"kinds\":[1]\x7d]"

theorem sentAsBuilt_iff_noRelayTakes_kindOne :
    SentAsBuilt localServer kindOneParams kindOneQuery ↔
      NoRelayTakes localServer kindOneParams :=
  sentAsBuilt_iff_noRelayTakes (by decide +kernel)

/-- The local relay is sent `[&quot;REQ&quot;,…`. -/
theorem not_sentAsBuilt_kindOne :
    ¬ ∀ (server : Server) (params : Params) (queryString : String),
      buildGnostrQuery server.hex (queryArgs params (nonEmptyParam params "kinds")) =
          .ok queryString →
        SentAsBuilt server params queryString := by
  intro hall
  have hbuild : buildGnostrQuery localServer.hex
      (queryArgs kindOneParams (nonEmptyParam kindOneParams "kinds")) =
        .ok kindOneQuery := by decide +kernel
  have hrequests : (getQuery localServer kindOneParams).2 ≠ [] := by
    rw [Ne, requests_getQuery_eq_nil_iff hbuild]
    intro hnone
    exact hnone [] rfl 0 (Nat.succ_pos 0) ⟨rfl, rfl⟩
  exact not_sentAsBuilt_of_request hbuild hrequests
    (hall localServer kindOneParams kindOneQuery hbuild)

end Requests

end Crawler

end Gnostr
