/-
What the query pages show of the texts from outside: the parameters of the request, the
frames of the relays and the messages of errors.
-/
import Gnostr.Crawler.QueryPages

namespace Gnostr

namespace Crawler

open Gnostr.Types

section Entities

/-- What stands on a page for a character. -/
def entity : Char → List Char
  | '&' => "&amp;".toList
  | '<' => "&lt;".toList
  | '>' => "&gt;".toList
  | '"' => "&quot;".toList
  | '\'' => "&#39;".toList
  | c => [c]

theorem replaceChar_flatMap (pattern : Char) (replacement : String) (text : List Char)
    (f : Char → List Char) :
    replaceChar pattern replacement (text.flatMap f) =
      text.flatMap fun c => replaceChar pattern replacement (f c) :=
  List.flatMap_assoc

theorem replaceChar_eq_flatMap (pattern : Char) (replacement : String) (text : List Char) :
    replaceChar pattern replacement text =
      text.flatMap fun c => replaceChar pattern replacement [c] := by
  unfold replaceChar
  congr 1
  funext c
  exact (List.append_nil _).symm

theorem replaceChar_of_ne {pattern c : Char} (hne : c ≠ pattern) (replacement : String) :
    replaceChar pattern replacement [c] = [c] := by
  rw [replaceChar, List.flatMap_singleton, if_neg hne]

/-- The five replacements, of which the ampersand is the first, escape each character
once. -/
theorem toList_escapeHtml (input : String) :
    (escapeHtml input).toList = input.toList.flatMap entity := by
  rw [escapeHtml, String.toList_ofList, replaceChar_eq_flatMap '&', replaceChar_flatMap,
    replaceChar_flatMap, replaceChar_flatMap, replaceChar_flatMap]
  congr 1
  funext c
  unfold entity
  split
  case h_6 hamp hlt hgt hquot hapos =>
    rw [replaceChar_of_ne hamp, replaceChar_of_ne hlt, replaceChar_of_ne hgt,
      replaceChar_of_ne hquot, replaceChar_of_ne hapos]
  all_goals decide +kernel

/-- A text that stands on a page as it is. -/
def NeedsNoEscape (text : String) : Prop := ∀ c ∈ text.toList, entity c = [c]

instance (text : String) : Decidable (NeedsNoEscape text) :=
  inferInstanceAs (Decidable (∀ c ∈ text.toList, entity c = [c]))

/-- What stands for a character is the character, or longer. -/
theorem entity_eq_or_lt (c : Char) : entity c = [c] ∨ 1 < (entity c).length := by
  unfold entity
  split
  case h_6 => exact .inl rfl
  all_goals exact .inr (by decide)

theorem length_le_length_flatMap_entity (text : List Char) :
    text.length ≤ (text.flatMap entity).length := by
  induction text with
  | nil => exact Nat.le_refl 0
  | cons c text ih =>
      rw [List.flatMap_cons, List.length_append, List.length_cons]
      rcases entity_eq_or_lt c with hsame | hlonger
      · rw [hsame, List.length_singleton]
        omega
      · omega

theorem eq_flatMap_entity_iff (text : List Char) :
    text = text.flatMap entity ↔ ∀ c ∈ text, entity c = [c] := by
  induction text with
  | nil => exact iff_of_true rfl fun _ hc => absurd hc List.not_mem_nil
  | cons c text ih =>
      rw [List.flatMap_cons, List.forall_mem_cons, ← ih]
      rcases entity_eq_or_lt c with hsame | hlonger
      · rw [hsame, List.singleton_append, List.cons_inj_right, and_iff_right rfl]
      · have hrest := length_le_length_flatMap_entity text
        apply iff_of_false
        · intro heq
          have hlength := congrArg List.length heq
          rw [List.length_cons, List.length_append] at hlength
          omega
        · rintro ⟨hsame, -⟩
          rw [hsame] at hlonger
          exact absurd hlonger (Nat.lt_irrefl 1)

end Entities

section Pages

/-- A piece of a page: a text of the program, or what is shown for a text from
outside. -/
inductive Piece
  | own (text : String)
  | foreign (source shown : String)

def Piece.text : Piece → String
  | .own text => text
  | .foreign _ shown => shown

def piecesText : List Piece → String
  | [] => ""
  | piece :: pieces => piece.text ++ piecesText pieces

/-- A page with its body in pieces.  The number of a NIP is a number, and no text from
outside. -/
structure Page where
  title : String
  nav : List (String × String)
  body : List Piece

def Page.html (page : Page) : String :=
  renderPageShell page.title page.nav (piecesText page.body)

/-- Each character of a text from outside is escaped once. -/
def Piece.EscapedOnce : Piece → Prop
  | .own _ => True
  | .foreign source shown => shown.toList = source.toList.flatMap entity

def Page.EscapedOnce (page : Page) : Prop := ∀ piece ∈ page.body, piece.EscapedOnce

/-- The page is what a response shows, and it is escaped. -/
structure Response.ShowsEscaped (response : Response) (page : Page) : Prop where
  body_eq : response.body = page.html
  escaped : page.EscapedOnce

/-- How a request for a query ends, with the texts from outside that are to be shown. -/
inductive Ending
  | notBuilt (error : String)
  | noRelays (error : String)
  | failed (error : String)
  | answered (queryString : String) (results : List String)

variable (server : Server) (params : Params)

/-- How `getQuery` ends. -/
def queryEnding : Ending :=
  let args := queryArgs params (nonEmptyParam params "kinds")
  match buildGnostrQuery server.hex args with
  | .error e => .notBuilt e
  | .ok queryString =>
      match queryRelays server params with
      | .error e => .noRelays e
      | .ok relays =>
          let sent :=
            send server.hex.toHex server.reader server.network (escapeHtml queryString)
              (prependLocalRelay server relays) (args.limit.or (some 100))
          match sent.1 with
          | .error e => .failed e
          | .ok results =>
              .answered queryString
                ((nonEmptyParam params "search").elim results (filterQueryResults results))

/-- How `getNipQuery` ends. -/
def nipQueryEnding (nipLower : Int32) : Ending :=
  let args :=
    queryArgs params (((params "kinds").or (some nipDefaultKinds)).or
      (some (toString nipLower)))
  match buildGnostrQuery server.hex args with
  | .error e => .notBuilt e
  | .ok queryString =>
      match loadNipQueryRelays server nipLower (nonEmptyParam params "relay") with
      | .error e => .noRelays e
      | .ok relays =>
          let sent :=
            send server.hex.toHex server.reader server.network queryString
              (prependLocalRelay server relays) (args.limit.or (some 100))
          match sent.1 with
          | .error e => .failed e
          | .ok results =>
              .answered queryString
                ((nonEmptyParam params "search").elim results (filterQueryResults results))

/-- A message with a text from outside in it. -/
def messagePieces (before source shown : String) : List Piece :=
  [.own before, .foreign source shown, .own "</p>"]

/-- The results, as the function shows a text. -/
def resultPieces (showText : String → String) (results : List String) : List Piece :=
  if results = [] then [.own "<p>No results.</p>"]
  else
    let joined := String.intercalate "\n" results
    [.own "<pre>", .foreign joined (showText joined), .own "</pre>"]

/-- The page of a request that is refused. -/
def refusedPage (body : List Piece) : Page :=
  ⟨"gnostr crawler / query", [("/", "gnostr/crawler")], body⟩

/-- The page of `executeQueryPage`, with its form. -/
def formPage (body : List Piece) : Page where
  title := "gnostr crawler / query"
  nav := [("/", "gnostr/crawler"), ("/query", "query")]
  body :=
    .own (genericQueryForm "/query" (some (String.intercalate "," server.liveKinds))) ::
      body

def answeredPieces (queryString : String) (results : List String) : List Piece :=
  .own "<section><h2>Query results</h2><p><code>" ::
    .foreign queryString (escapeHtml queryString) :: .own "</code></p>" ::
    (resultPieces id results ++ [.own "</section>"])

/-- The page of `getQuery` for an ending. -/
def queryPage : Ending → Page
  | .notBuilt e => refusedPage (messagePieces "<p>Failed to build query: " e e)
  | .noRelays e => refusedPage (messagePieces "<p>Invalid relay URL: " e e)
  | .failed e => formPage server (messagePieces "<p>Query failed: " e e)
  | .answered queryString results => formPage server (answeredPieces queryString results)

/-- The input for a relay, up to its value. -/
def relayInput : String :=
  "<label>Relay <input name=\"relay\" type=\"text\" " ++
    "placeholder=\"wss://relay.example.com\" value=\""

/-- What follows the input for a relay. -/
def formFields (kindsValue : String) : List String :=
  [labelledInput "Authors" "authors" "text" "placeholder" "pubkey1,pubkey2",
    labelledInput "IDs" "ids" "text" "placeholder" "id1,id2",
    labelledInput "Generic tag" "generic_tag" "text" "placeholder" "e",
    labelledInput "Generic value" "generic_value" "text" "placeholder" "value",
    labelledInput "Hashtag" "hashtag" "text" "placeholder" "root,reply",
    labelledInput "Mentions" "mentions" "text" "placeholder" "pubkey1,pubkey2",
    labelledInput "References" "references" "text" "placeholder" "event1,event2",
    labelledInput "NIP/Kind" "kinds" "text" "value" kindsValue,
    labelledInput "Limit" "limit" "number" "value=\"100\" min" "1",
    labelledInput "Search" "search" "text" "placeholder" "keyword",
    "<button type=\"submit\">Search</button></form></section>"]

/-- The form of a NIP, with the relay that was asked for. -/
def nipQueryFormPieces (nipLower : Int32) (action relayValue kindsValue : String) :
    List Piece :=
  [.own ("<section><h2>" ++ ("NIP " ++ toString nipLower ++ " query") ++
      "</h2><form action=\"" ++ action ++ "\" method=\"get\">" ++ relayInput),
    .foreign relayValue (escapeHtml relayValue),
    .own ((formFields kindsValue).foldl (· ++ ·) "\"></label><br>")]

def nipRefusedPage (nipLower : Int32) (before e : String) : Page where
  title := "gnostr crawler / NIP " ++ toString nipLower ++ " query"
  nav := [("/", "gnostr/crawler"), ("/" ++ toString nipLower ++ "/", "back")]
  body := messagePieces before e (escapeHtml e)

def nipAnsweredPieces (nipLower : Int32) (queryString : String) (results : List String) :
    List Piece :=
  nipQueryFormPieces nipLower ("/" ++ toString nipLower ++ "/query")
      ((nonEmptyParam params "relay").getD "") (toString nipLower) ++
    .own ("<section><h2>NIP " ++ toString nipLower ++ " query results</h2><p><code>") ::
    .foreign queryString (escapeHtml queryString) :: .own "</code></p>" ::
    (resultPieces escapeHtml results ++ [.own "</section>"])

def nipAnsweredPage (nipLower : Int32) (queryString : String) (results : List String) :
    Page where
  title := "gnostr crawler / NIP " ++ toString nipLower ++ " query"
  nav := [("/", "gnostr/crawler"), ("/" ++ toString nipLower ++ "/query", "query"),
    ("/" ++ toString nipLower ++ "/", "back")]
  body := nipAnsweredPieces params nipLower queryString results

/-- The page of `getNipQuery` for an ending. -/
def nipQueryPage (nipLower : Int32) : Ending → Page
  | .notBuilt e => nipRefusedPage nipLower "<p>Failed to build query: " e
  | .noRelays e => nipRefusedPage nipLower "<p>Failed to load relays: " e
  | .failed e => nipRefusedPage nipLower "<p>Query failed: " e
  | .answered queryString results => nipAnsweredPage params nipLower queryString results

end Pages

section Bodies

theorem piecesText_append (first second : List Piece) :
    piecesText (first ++ second) = piecesText first ++ piecesText second := by
  induction first with
  | nil => exact String.empty_append.symm
  | cons piece first ih =>
      rw [List.cons_append, piecesText, ih, piecesText, String.append_assoc]

theorem piecesText_messagePieces (before source shown : String) :
    piecesText (messagePieces before source shown) = before ++ shown ++ "</p>" := by
  simp only [messagePieces, piecesText, Piece.text, String.append_empty,
    String.append_assoc]

theorem piecesText_resultPieces (showText : String → String) (results : List String) :
    piecesText (resultPieces showText results) =
      if results = [] then "<p>No results.</p>"
      else "<pre>" ++ showText (String.intercalate "\n" results) ++ "</pre>" := by
  unfold resultPieces
  split_ifs
  · exact String.append_empty
  · simp only [piecesText, Piece.text, String.append_empty, String.append_assoc]

theorem labelledInput_relay (shown : String) :
    labelledInput "Relay" "relay" "text" "placeholder=\"wss://relay.example.com\" value"
        shown =
      relayInput ++ shown ++ "\"></label><br>" := by
  have hopening : "<label>" ++ "Relay" ++ " <input name=\"" ++ "relay" ++ "\" type=\"" ++
      "text" ++ "\" " ++ "placeholder=\"wss://relay.example.com\" value" ++ "=\"" =
        relayInput := by decide +kernel
  exact congrArg (· ++ shown ++ "\"></label><br>") hopening

theorem foldl_append (fields : List String) (first second : String) :
    fields.foldl (· ++ ·) (first ++ second) = first ++ fields.foldl (· ++ ·) second := by
  induction fields generalizing second with
  | nil => rfl
  | cons field fields ih => rw [List.foldl_cons, List.foldl_cons, String.append_assoc, ih]

theorem piecesText_nipQueryFormPieces (nipLower : Int32)
    (action relayValue kindsValue : String) :
    piecesText (nipQueryFormPieces nipLower action relayValue kindsValue) =
      nipQueryForm nipLower action relayValue (some kindsValue) := by
  have hform : nipQueryForm nipLower action relayValue (some kindsValue) =
      (formFields kindsValue).foldl (· ++ ·)
        ("<section><h2>" ++ ("NIP " ++ toString nipLower ++ " query") ++
          "</h2><form action=\"" ++ action ++ "\" method=\"get\">" ++
          labelledInput "Relay" "relay" "text"
            "placeholder=\"wss://relay.example.com\" value" (escapeHtml relayValue)) := rfl
  rw [hform, labelledInput_relay, foldl_append, foldl_append, nipQueryFormPieces]
  simp only [piecesText, Piece.text, String.append_empty, String.append_assoc]

theorem html_refusedPage (before e : String) :
    (refusedPage (messagePieces before e e)).html =
      renderPageShell "gnostr crawler / query" [("/", "gnostr/crawler")]
        (before ++ e ++ "</p>") :=
  congrArg (renderPageShell _ _) (piecesText_messagePieces before e e)

theorem html_formPage (server : Server) (body : List Piece) :
    (formPage server body).html =
      renderPageShell "gnostr crawler / query" [("/", "gnostr/crawler"), ("/query", "query")]
        (genericQueryForm "/query" (some (String.intercalate "," server.liveKinds)) ++
          piecesText body) := rfl

theorem html_nipRefusedPage (nipLower : Int32) (before e : String) :
    (nipRefusedPage nipLower before e).html =
      renderPageShell ("gnostr crawler / NIP " ++ toString nipLower ++ " query")
        [("/", "gnostr/crawler"), ("/" ++ toString nipLower ++ "/", "back")]
        (before ++ escapeHtml e ++ "</p>") :=
  congrArg (renderPageShell _ _) (piecesText_messagePieces before e (escapeHtml e))

theorem piecesText_answeredPieces (queryString : String) (results : List String) :
    piecesText (answeredPieces queryString results) =
      "<section><h2>Query results</h2><p><code>" ++ escapeHtml queryString ++
        "</code></p>" ++
        (if results = [] then "<p>No results.</p>"
        else "<pre>" ++ String.intercalate "\n" results ++ "</pre>") ++ "</section>" := by
  simp only [answeredPieces, piecesText, piecesText_append, piecesText_resultPieces,
    Piece.text, String.append_empty, String.append_assoc, id]

theorem piecesText_nipAnsweredPieces (params : Params) (nipLower : Int32)
    (queryString : String) (results : List String) :
    piecesText (nipAnsweredPieces params nipLower queryString results) =
      nipQueryForm nipLower ("/" ++ toString nipLower ++ "/query")
          ((nonEmptyParam params "relay").getD "") (some (toString nipLower)) ++
        "<section><h2>NIP " ++ toString nipLower ++ " query results</h2><p><code>" ++
        escapeHtml queryString ++ "</code></p>" ++
        (if results = [] then "<p>No results.</p>"
        else "<pre>" ++ escapeHtml (String.intercalate "\n" results) ++ "</pre>") ++
        "</section>" := by
  unfold nipAnsweredPieces
  rw [piecesText_append, piecesText_nipQueryFormPieces]
  simp only [piecesText, piecesText_append, piecesText_resultPieces, Piece.text,
    String.append_empty, String.append_assoc]

variable {server : Server} {params : Params}

theorem body_getQuery :
    (getQuery server params).1.body =
      (queryPage server (queryEnding server params)).html := by
  unfold getQuery queryEnding
  dsimp only
  cases buildGnostrQuery server.hex (queryArgs params (nonEmptyParam params "kinds")) with
  | error e =>
      dsimp only [htmlResponse, queryPage]
      rw [html_refusedPage]
  | ok queryString =>
      dsimp only
      cases queryRelays server params with
      | error e =>
          dsimp only [htmlResponse, queryPage]
          rw [html_refusedPage]
      | ok relays =>
          dsimp only [executeQueryPage]
          cases (send server.hex.toHex server.reader server.network (escapeHtml queryString)
              (prependLocalRelay server relays)
              ((queryArgs params (nonEmptyParam params "kinds")).limit.or (some 100))).1 with
          | error e =>
              dsimp only [htmlResponse, queryPage]
              rw [html_formPage, piecesText_messagePieces]
              simp only [String.append_assoc]
          | ok results =>
              dsimp only [htmlResponse, queryPage]
              rw [html_formPage, piecesText_answeredPieces]
              simp only [String.append_assoc]

theorem body_getNipQuery (nipLower : Int32) :
    (getNipQuery server nipLower params).1.body =
      (nipQueryPage params nipLower (nipQueryEnding server params nipLower)).html := by
  unfold getNipQuery nipQueryEnding
  dsimp only
  cases buildGnostrQuery server.hex
      (queryArgs params (((params "kinds").or (some nipDefaultKinds)).or
        (some (toString nipLower)))) with
  | error e =>
      dsimp only [htmlResponse, nipQueryPage]
      rw [html_nipRefusedPage]
  | ok queryString =>
      dsimp only
      cases loadNipQueryRelays server nipLower (nonEmptyParam params "relay") with
      | error e =>
          dsimp only [htmlResponse, nipQueryPage]
          rw [html_nipRefusedPage]
      | ok relays =>
          dsimp only
          cases (send server.hex.toHex server.reader server.network queryString
              (prependLocalRelay server relays)
              ((queryArgs params (((params "kinds").or (some nipDefaultKinds)).or
                (some (toString nipLower)))).limit.or (some 100))).1 with
          | error e =>
              dsimp only [htmlResponse, nipQueryPage]
              rw [html_nipRefusedPage]
          | ok results =>
              exact congrArg (renderPageShell _ _)
                (piecesText_nipAnsweredPieces params nipLower queryString _).symm

end Bodies

section EscapedOnce

theorem escapedOnce_messagePieces_iff (before source shown : String) :
    (∀ piece ∈ messagePieces before source shown, piece.EscapedOnce) ↔
      shown.toList = source.toList.flatMap entity := by
  rw [messagePieces, List.forall_mem_cons, List.forall_mem_cons, List.forall_mem_singleton]
  exact ⟨fun hpieces => hpieces.2.1, fun hshown => ⟨trivial, hshown, trivial⟩⟩

theorem needsNoEscape_intercalate_iff (results : List String) :
    NeedsNoEscape (String.intercalate "\n" results) ↔
      ∀ result ∈ results, NeedsNoEscape result := by
  have hentity : entity '\n' = ['\n'] := rfl
  have hnewline : ∀ c ∈ "\n".toList, entity c = [c] := List.forall_mem_singleton.mpr hentity
  induction results with
  | nil =>
      exact iff_of_true (fun _ hc => absurd hc List.not_mem_nil)
        fun _ hresult => absurd hresult List.not_mem_nil
  | cons first rest ih =>
      rw [List.forall_mem_cons]
      by_cases hrest : rest = []
      · subst hrest
        rw [String.intercalate_singleton]
        exact (and_iff_left fun _ hresult => absurd hresult List.not_mem_nil).symm
      · refine Iff.trans ?_ (and_congr_right fun _ => ih)
        rw [String.intercalate_cons_of_ne_nil hrest, NeedsNoEscape, String.toList_append,
          String.toList_append, List.forall_mem_append, List.forall_mem_append,
          and_iff_left hnewline]
        rfl

/-- What is shown as it is stands on the page as it should exactly where it needs no
escape. -/
theorem escapedOnce_resultPieces_id_iff (results : List String) :
    (∀ piece ∈ resultPieces id results, piece.EscapedOnce) ↔
      ∀ result ∈ results, NeedsNoEscape result := by
  rw [resultPieces]
  split_ifs with hnone
  · subst hnone
    rw [List.forall_mem_singleton]
    exact iff_of_true trivial fun _ hresult => absurd hresult List.not_mem_nil
  · rw [← needsNoEscape_intercalate_iff, List.forall_mem_cons, List.forall_mem_cons,
      List.forall_mem_singleton, NeedsNoEscape, ← eq_flatMap_entity_iff]
    exact ⟨fun hpieces => hpieces.2.1, fun hshown => ⟨trivial, hshown, trivial⟩⟩

theorem escapedOnce_resultPieces_escapeHtml (results : List String) :
    ∀ piece ∈ resultPieces escapeHtml results, piece.EscapedOnce := by
  rw [resultPieces]
  split_ifs
  · exact List.forall_mem_singleton.mpr trivial
  · rw [List.forall_mem_cons, List.forall_mem_cons, List.forall_mem_singleton]
    exact ⟨trivial, toList_escapeHtml _, trivial⟩

/-- What the query page shows as it is needs no escape. -/
def Ending.NeedsNoEscape : Ending → Prop
  | .notBuilt e | .noRelays e | .failed e => Crawler.NeedsNoEscape e
  | .answered _ results => ∀ result ∈ results, Crawler.NeedsNoEscape result

theorem escapedOnce_formPage_iff (server : Server) (body : List Piece) :
    (formPage server body).EscapedOnce ↔ ∀ piece ∈ body, piece.EscapedOnce :=
  List.forall_mem_cons.trans (and_iff_right trivial)

theorem Ending.needsNoEscape_answered_iff (queryString : String) (results : List String) :
    (answered queryString results).NeedsNoEscape ↔
      ∀ result ∈ results, Crawler.NeedsNoEscape result :=
  Iff.rfl

theorem escapedOnce_queryPage_iff (server : Server) (ending : Ending) :
    (queryPage server ending).EscapedOnce ↔ ending.NeedsNoEscape := by
  cases ending with
  | notBuilt e =>
      exact (escapedOnce_messagePieces_iff _ e e).trans (eq_flatMap_entity_iff _)
  | noRelays e =>
      exact (escapedOnce_messagePieces_iff _ e e).trans (eq_flatMap_entity_iff _)
  | failed e =>
      refine (escapedOnce_formPage_iff server _).trans ?_
      exact (escapedOnce_messagePieces_iff _ e e).trans (eq_flatMap_entity_iff _)
  | answered queryString results =>
      refine (escapedOnce_formPage_iff server _).trans ?_
      rw [answeredPieces, List.forall_mem_cons, List.forall_mem_cons,
        List.forall_mem_cons, List.forall_mem_append, escapedOnce_resultPieces_id_iff,
        List.forall_mem_singleton]
      constructor
      · rintro ⟨-, -, -, hresults, -⟩
        exact hresults
      · intro hresults
        exact ⟨trivial, toList_escapeHtml queryString, trivial, hresults, trivial⟩

theorem escapedOnce_nipQueryFormPieces (nipLower : Int32)
    (action relayValue kindsValue : String) :
    ∀ piece ∈ nipQueryFormPieces nipLower action relayValue kindsValue,
      piece.EscapedOnce :=
  List.forall_mem_cons.mpr ⟨trivial, List.forall_mem_cons.mpr
    ⟨toList_escapeHtml relayValue, List.forall_mem_singleton.mpr trivial⟩⟩

/-- The pages of the NIPs escape every text from outside, however a request ends. -/
theorem escapedOnce_nipQueryPage (params : Params) (nipLower : Int32) (ending : Ending) :
    (nipQueryPage params nipLower ending).EscapedOnce := by
  cases ending with
  | notBuilt e => exact (escapedOnce_messagePieces_iff _ e _).mpr (toList_escapeHtml e)
  | noRelays e => exact (escapedOnce_messagePieces_iff _ e _).mpr (toList_escapeHtml e)
  | failed e => exact (escapedOnce_messagePieces_iff _ e _).mpr (toList_escapeHtml e)
  | answered queryString results =>
      refine List.forall_mem_append.mpr ⟨escapedOnce_nipQueryFormPieces _ _ _ _, ?_⟩
      rw [List.forall_mem_cons, List.forall_mem_cons, List.forall_mem_cons,
        List.forall_mem_append, List.forall_mem_singleton]
      exact ⟨trivial, toList_escapeHtml queryString, trivial,
        escapedOnce_resultPieces_escapeHtml results, trivial⟩

end EscapedOnce

section Claim

/-- Both pages show the texts from outside in escaped form, whatever comes of a
request. -/
structure PagesEscape (server : Server) (params : Params) : Prop where
  query : (getQuery server params).1.ShowsEscaped
    (queryPage server (queryEnding server params))
  nip_query : ∀ nipLower, (getNipQuery server nipLower params).1.ShowsEscaped
    (nipQueryPage params nipLower (nipQueryEnding server params nipLower))

theorem pagesEscape_iff (server : Server) (params : Params) :
    PagesEscape server params ↔ (queryEnding server params).NeedsNoEscape := by
  constructor
  · intro hescape
    exact (escapedOnce_queryPage_iff _ _).mp hescape.query.escaped
  · intro hplain
    exact ⟨⟨body_getQuery, (escapedOnce_queryPage_iff _ _).mpr hplain⟩,
      fun nipLower => ⟨body_getNipQuery nipLower, escapedOnce_nipQueryPage _ _ _⟩⟩

/-- A note with markup in it. -/
def markupNote : EventV3 where
  id := ⟨Vector.replicate 32 1⟩
  pubkey := ⟨Vector.replicate 32 2⟩
  createdAt := 1700000000
  kind := .wellKnown .textNote
  sig := ⟨Vector.replicate 64 0⟩
  content := "<script>alert(1)</script>"
  tags := []

def markupFrame : String :=
  (RelayMessageV5.event ⟨"gnostr-query"⟩ markupNote).toJsonString Hex.reference

/-- A server with a local relay that answers with the note. -/
def markupServer : Server :=
  { localServer with
    network := fun _ _ => ⟨.connected, .ok (), fun _ => [.text markupFrame]⟩ }

theorem queryEnding_of_results {server : Server} {params : Params} {queryString : String}
    {relays : List Url} {results : List String}
    (hbuild : buildGnostrQuery server.hex
      (queryArgs params (nonEmptyParam params "kinds")) = .ok queryString)
    (hrelays : queryRelays server params = .ok relays)
    (hresults : (send server.hex.toHex server.reader server.network (escapeHtml queryString)
      (prependLocalRelay server relays)
      (((params "limit").bind parseI32).or (some 100))).1 = .ok results) :
    queryEnding server params =
      .answered queryString
        ((nonEmptyParam params "search").elim results (filterQueryResults results)) := by
  have hlimit : (queryArgs params (nonEmptyParam params "kinds")).limit =
      (params "limit").bind parseI32 := rfl
  rw [queryEnding, hbuild]
  dsimp only
  rw [hrelays]
  dsimp only
  rw [hlimit, hresults]

theorem readResults_markupFrame :
    readResults Hex.reference JsonReader.compact 100 [.text markupFrame] [] =
      .ok [markupFrame] := by
  have hread : RelayMessageV5.fromJsonString Hex.reference JsonReader.compact markupFrame =
      .ok (.event ⟨"gnostr-query"⟩ markupNote) := by
    rw [markupFrame, RelayMessageV5.fromJsonString_toJsonString_iff]
    rfl
  rw [readResults, hread]
  rfl

/-- A relay with results ends the search. -/
theorem send_of_results {hex : Hex} {reader : JsonReader} {network : Network} {relay : Url}
    {queryString : String} {limit : Option Int32} {first : String} {rest : List String}
    (htakes : (network 0 relay).Takes)
    (hresults : readResults hex reader (limit.getD Int32.maxValue)
      ((network 0 relay).answers queryString) [] = .ok (first :: rest)) :
    (send hex reader network queryString [relay] limit).1 = .ok (first :: rest) := by
  rw [send, if_neg (List.cons_ne_nil _ _), sendFrom, sendToRelay, htakes.1]
  dsimp only
  rw [htakes.2]
  dsimp only
  rw [hresults]

theorem queryEnding_markupServer :
    queryEnding markupServer kindOneParams = .answered kindOneQuery [markupFrame] := by
  have hbuild : buildGnostrQuery markupServer.hex
      (queryArgs kindOneParams (nonEmptyParam kindOneParams "kinds")) =
        .ok kindOneQuery := by decide +kernel
  have hrelays : queryRelays markupServer kindOneParams = .ok [] := by decide +kernel
  have hlimit : ((kindOneParams "limit").bind parseI32).or (some 100) = some 100 := by
    decide +kernel
  have hsearch : nonEmptyParam kindOneParams "search" = none := by decide +kernel
  have hlocal : prependLocalRelay markupServer [] = [⟨localhost8080⟩] := rfl
  have hsend : (send markupServer.hex.toHex markupServer.reader markupServer.network
      (escapeHtml kindOneQuery) [⟨localhost8080⟩] (some 100)).1 = .ok [markupFrame] :=
    send_of_results ⟨rfl, rfl⟩ readResults_markupFrame
  rw [← hlocal, ← hlimit] at hsend
  have hending := queryEnding_of_results hbuild hrelays hsend
  rw [hsearch] at hending
  exact hending

theorem quote_mem_markupFrame : '"' ∈ markupFrame.toList := by
  rw [markupFrame, RelayMessageV5.toJsonString, String.toList_ofList, RelayMessageV5.toJson,
    Json.render_arr_cons, Json.render]
  exact List.mem_cons_of_mem _ List.mem_cons_self

theorem entity_quote : entity '"' ≠ ['"'] := by decide +kernel

/-- The page shows `<script>` as a relay sent it. -/
theorem not_pagesEscape_markup :
    ¬ ∀ (server : Server) (params : Params), PagesEscape server params := by
  intro hall
  have hescaped := (hall markupServer kindOneParams).query.escaped
  rw [queryEnding_markupServer] at hescaped
  have hplain := (escapedOnce_queryPage_iff markupServer _).mp hescaped
  rw [Ending.needsNoEscape_answered_iff, List.forall_mem_singleton] at hplain
  have hquote : entity '"' = ['"'] := hplain '"' quote_mem_markupFrame
  exact absurd hquote entity_quote

end Claim

end Crawler

end Gnostr
