/-
The pages of the crawler: what is escaped, the shell of a page, the query forms, of
`crawler/src/relays_html.rs`, `query/forms.rs` and `api.rs`.
-/
import Gnostr.Types.Url

namespace Gnostr

namespace Crawler

open Gnostr.Types

section Escape

/-- `replace` of a character. -/
def replaceChar (pattern : Char) (replacement : String) (text : List Char) : List Char :=
  text.flatMap fun c => if c = pattern then replacement.toList else [c]

/-- `escape_html`. -/
def escapeHtml (input : String) : String :=
  let text := replaceChar '&' "&amp;" input.toList
  let text := replaceChar '<' "&lt;" text
  let text := replaceChar '>' "&gt;" text
  let text := replaceChar '"' "&quot;" text
  let text := replaceChar '\'' "&#39;" text
  String.ofList text

theorem not_mem_replaceChar {pattern : Char} {replacement : String}
    (hclean : pattern ∉ replacement.toList) (text : List Char) :
    pattern ∉ replaceChar pattern replacement text := by
  intro hmem
  obtain ⟨c, -, hc⟩ := List.mem_flatMap.mp hmem
  split_ifs at hc with hpattern
  · exact hclean hc
  · exact hpattern (List.mem_singleton.mp hc).symm

/-- A replacement brings in no character that is not in it. -/
theorem not_mem_replaceChar_of_not_mem {pattern c : Char} {replacement : String}
    {text : List Char} (hclean : c ∉ replacement.toList) (htext : c ∉ text) :
    c ∉ replaceChar pattern replacement text := by
  intro hmem
  obtain ⟨d, hd, hc⟩ := List.mem_flatMap.mp hmem
  split_ifs at hc
  · exact hclean hc
  · exact htext (List.mem_singleton.mp hc ▸ hd)

/-- No quotation mark is left in an escaped text. -/
theorem quote_not_mem_escapeHtml (input : String) : '"' ∉ (escapeHtml input).toList := by
  rw [escapeHtml, String.toList_ofList]
  have hquote (text : List Char) : '"' ∉ replaceChar '"' "&quot;" text :=
    not_mem_replaceChar (by decide) text
  exact not_mem_replaceChar_of_not_mem (by decide) (hquote _)

end Escape

section Page

def navLink (link : String × String) : String :=
  "<a href=\"" ++ link.1 ++ "\">" ++ link.2 ++ "</a>"

/-- The rules of the style sheet. -/
def styleRules : List (String × String) :=
  [(":root", "color-scheme:dark light;"),
    ("body", "font-family:system-ui,-apple-system,BlinkMacSystemFont,\"Segoe UI\"," ++
      "sans-serif;margin:0;line-height:1.5;"),
    (".site-header", "position:sticky;top:0;z-index:10;background:#111;" ++
      "border-bottom:1px solid #333;padding:0.9rem 1rem;display:flex;" ++
      "align-items:flex-start;justify-content:space-between;gap:1rem;"),
    (".site-header-main", "min-width:0;flex:1 1 auto;"),
    (".site-title", "margin:0;font-size:1.1rem;"),
    (".site-nav", "margin-top:0.35rem;display:flex;flex-wrap:wrap;gap:0.5rem;" ++
      "align-items:center;"),
    (".site-nav a", "color:inherit;text-decoration:none;padding:0.2rem 0.4rem;" ++
      "border-radius:0.35rem;background:rgba(255,255,255,0.06);"),
    (".nav-sep", "opacity:0.4;"),
    (".site-header-right", "display:flex;align-items:center;justify-content:flex-end;" ++
      "flex:0 0 auto;"),
    (".header-search", "display:flex;align-items:center;gap:0.35rem;"),
    (".header-search input", "min-width:12rem;max-width:18rem;"),
    ("main", "padding:1rem;max-width:1100px;"),
    ("section", "margin-bottom:1.5rem;"),
    ("ul", "padding-left:1.2rem;"),
    (".relay-favorite-card", "outline:none;"),
    (".relay-favorite-card:focus-within", "box-shadow:0 0 0 2px #60a5fa;" ++
      "border-radius:0.35rem;"),
    (".relay-favorite-heart", "margin-right:0.35rem;min-width:1em;" ++
      "display:inline-block;color:#ef4444;"),
    (".relay-favorite-card.is-favorite .relay-favorite-heart", "opacity:1;"),
    ("code", "background:rgba(255,255,255,0.08);padding:0.1rem 0.25rem;" ++
      "border-radius:0.25rem;")]

def pageStyle : String :=
  String.join (styleRules.map fun rule => rule.1 ++ "\x7b" ++ rule.2 ++ "\x7d")

def renderPageShellWithHeaderRight (title : String) (nav : List (String × String))
    (body headerRight : String) : String :=
  let navHtml := String.intercalate "<span class=\"nav-sep\">/</span>" (nav.map navLink)
  "<!doctype html><html><head><meta charset=\"utf-8\">" ++
    "<meta name=\"viewport\" content=\"width=device-width, initial-scale=1\">" ++
    "<title>" ++ title ++ "</title><style>" ++ pageStyle ++ "</style></head><body>" ++
    "<header class=\"site-header\"><div class=\"site-header-main\">" ++
    "<nav class=\"site-nav\">" ++ navHtml ++ "</nav></div>" ++
    "<div class=\"site-header-right\">" ++ headerRight ++ "</div></header>" ++
    "<main>" ++ body ++ "</main></body></html>"

def renderPageShell (title : String) (nav : List (String × String)) (body : String) :
    String :=
  renderPageShellWithHeaderRight title nav body ""

end Page

section Forms

/-- An input with its label; its last attribute has the value given. -/
def labelledInput (label name kind last value : String) : String :=
  "<label>" ++ label ++ " <input name=\"" ++ name ++ "\" type=\"" ++ kind ++ "\" " ++
    last ++ "=\"" ++ value ++ "\"></label><br>"

def queryFormHtml (title action relayValue kindsValue : String) : String :=
  "<section><h2>" ++ title ++ "</h2><form action=\"" ++ action ++ "\" method=\"get\">" ++
    labelledInput "Relay" "relay" "text"
      "placeholder=\"wss://relay.example.com\" value" (escapeHtml relayValue) ++
    labelledInput "Authors" "authors" "text" "placeholder" "pubkey1,pubkey2" ++
    labelledInput "IDs" "ids" "text" "placeholder" "id1,id2" ++
    labelledInput "Generic tag" "generic_tag" "text" "placeholder" "e" ++
    labelledInput "Generic value" "generic_value" "text" "placeholder" "value" ++
    labelledInput "Hashtag" "hashtag" "text" "placeholder" "root,reply" ++
    labelledInput "Mentions" "mentions" "text" "placeholder" "pubkey1,pubkey2" ++
    labelledInput "References" "references" "text" "placeholder" "event1,event2" ++
    labelledInput "NIP/Kind" "kinds" "text" "value" kindsValue ++
    labelledInput "Limit" "limit" "number" "value=\"100\" min" "1" ++
    labelledInput "Search" "search" "text" "placeholder" "keyword" ++
    "<button type=\"submit\">Search</button></form></section>"

def genericQueryForm (action : String) (kindsValue : Option String) : String :=
  queryFormHtml "Generic query" action "" (kindsValue.getD "")

def nipQueryForm (nipLower : Int32) (action relayValue : String)
    (kindsValue : Option String) : String :=
  queryFormHtml ("NIP " ++ toString nipLower ++ " query") action relayValue
    (kindsValue.getD "")

end Forms

section Search

/-- The words of a search term, in lower case. -/
def searchNeedles (searchTerm : String) : List (List Char) :=
  let terms := searchTerm.toList.splitOnP fun c => isWhiteSpace c || c == ','
  ((terms.map trimChars).filter (· ≠ [])).map (·.map Char.toLower)

def filterQueryResults (results : List String) (searchTerm : String) : List String :=
  let needles := searchNeedles searchTerm
  if needles = [] then results
  else
    results.filter fun result =>
      let haystack := result.toList.map Char.toLower
      needles.all fun needle => decide (needle <:+: haystack)

end Search

end Crawler

end Gnostr
