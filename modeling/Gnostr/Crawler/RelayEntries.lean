/-
The entries of relay lists as the crawler reads them, `crawler/src/relay_io.rs`.  An entry
is cut at its first comma, which a host may have in its serialised URL.
-/
import Gnostr.Lib.Lines
import Gnostr.Lib.WebUrl
import Gnostr.P2p.RelayHost

namespace Gnostr

namespace Crawler

open Gnostr.Types
open Gnostr.P2p (relayHost isLoopbackRelay isPrivateIpv4Relay wsSchemes)

abbrev RelayUrlParser := WebUrlParser wsSchemes

section Source

/-- The line without the marker of a list item. -/
def stripMarker (trimmedLine : List Char) : List Char :=
  match trimmedLine.dropPrefix? "- ".toList with
  | some stripped => trimChars stripped
  | none =>
      match trimmedLine.dropPrefix? "-".toList with
      | some stripped => trimChars stripped
      | none => trimmedLine

def preprocessLine (line : List Char) : List Char :=
  let trimmedLine := stripMarker (trimChars line)
  if ',' ∈ trimmedLine then trimChars (trimmedLine.takeWhile (· != ',')) else trimmedLine

/-- The entry with `wss://` before it if it has no scheme and is a URL so; the host is cut
out of the URL as the broadcaster of the network does, with the same functions. -/
def normalizeRelayEntry (parser : RelayUrlParser) (line : String) : Option String :=
  let finalLine := preprocessLine line.toList
  if finalLine = [] then none
  else
    let finalLine :=
      if "://".toList <:+: finalLine then finalLine
      else
        match parser.parse ("wss://".toList ++ finalLine) with
        | some url => url.text
        | none => finalLine
    if ¬ "wss://".toList <+: finalLine ∧ ¬ "ws://".toList <+: finalLine then none
    else
      match parser.parse finalLine with
      | some url =>
          let normalized := String.ofList url.text
          if isLoopbackRelay normalized then some normalized
          else if (relayHost normalized).any fun host => host.head? = some '-' then none
          else if isPrivateIpv4Relay normalized then none
          else some normalized
      | none => none

end Source

section Specification

/-- The URL an entry is taken for. -/
def entryUrl (parser : RelayUrlParser) (line : String) : Option WebUrl :=
  let finalLine := preprocessLine line.toList
  if finalLine = [] then none
  else if "://".toList <:+: finalLine then
    if "wss://".toList <+: finalLine ∨ "ws://".toList <+: finalLine then
      parser.parse finalLine
    else none
  else parser.parse ("wss://".toList ++ finalLine)

/-- A relay whose host begins with a hyphen or has the first two octets of a private
address is refused. -/
def Refused (relay : String) : Prop :=
  isLoopbackRelay relay = false ∧
    ((∃ host, relayHost relay = some host ∧ host.head? = some '-') ∨
      isPrivateIpv4Relay relay = true)

/-- The text is the URL of a WebSocket, and its host is no private address. -/
def IsPublicRelay (parser : RelayUrlParser) (relay : String) : Prop :=
  ∃ url, parser.parse relay.toList = some url ∧ url.text = relay.toList ∧
    url.scheme ∈ wsSchemes ∧
      ∀ address, url.host = .ipv4 address → ¬ P2p.IsPrivate address

end Specification

section Entry

variable {parser : RelayUrlParser} {line : String}

theorem isPrefix_of_mem {scheme : List Char} (hscheme : scheme ∈ wsSchemes)
    (rest : List Char) :
    "wss://".toList <+: scheme ++ ("://".toList ++ rest) ∨
      "ws://".toList <+: scheme ++ ("://".toList ++ rest) := by
  rcases List.mem_cons.mp hscheme with rfl | hwss
  · exact .inr ⟨rest, rfl⟩
  · rw [List.mem_singleton.mp hwss]
    exact .inl ⟨rest, rfl⟩

theorem isPrefix_text_of_mem {url : WebUrl} (hscheme : url.scheme ∈ wsSchemes) :
    "wss://".toList <+: url.text ∨ "ws://".toList <+: url.text :=
  isPrefix_of_mem hscheme _

theorem isInfix_separator (scheme rest : List Char) :
    "://".toList <:+: scheme ++ ("://".toList ++ rest) :=
  ⟨scheme, rest, List.append_assoc ..⟩

/-- The scheme of a URL that is parsed from a text of a WebSocket. -/
theorem scheme_mem_of_parse {text : List Char} {url : WebUrl}
    (hbegins : "wss://".toList <+: text ∨ "ws://".toList <+: text)
    (hparse : parser.parse text = some url) : url.scheme ∈ wsSchemes := by
  rcases hbegins with ⟨rest, rfl⟩ | ⟨rest, rfl⟩
  · rw [@WebUrlParser.scheme_eq _ parser "wss".toList rest url (by decide) hparse]
    decide
  · rw [@WebUrlParser.scheme_eq _ parser "ws".toList rest url (by decide) hparse]
    decide

end Entry

section Lines

/-- The entry has lost its comma. -/
theorem notMem_preprocessLine (line : List Char) : ',' ∉ preprocessLine line := by
  unfold preprocessLine
  generalize stripMarker (trimChars line) = trimmedLine
  dsimp only
  split_ifs with hcomma
  · intro hmem
    have hne := List.mem_takeWhile_imp (mem_of_mem_trimChars hmem)
    exact absurd rfl (bne_iff_ne.mp hne)
  · exact hcomma

theorem isWhiteSpace_of_isUrlChar {c : Char} (hc : isUrlChar c = true) :
    isWhiteSpace c = false := by
  simp only [isUrlChar, Bool.and_eq_true, decide_eq_true_eq] at hc
  exact isWhiteSpace_eq_false hc.1 (hc.2.trans (by decide))

theorem trimChars_of_isUrlChar {text : List Char} (htext : ∀ c ∈ text, isUrlChar c = true) :
    trimChars text = text :=
  trimChars_of_forall fun c hc => isWhiteSpace_of_isUrlChar (htext c hc)

/-- Of a text without spaces that is no list item only a comma is taken, and what is
behind it. -/
theorem preprocessLine_of_isUrlChar {text : List Char}
    (htext : ∀ c ∈ text, isUrlChar c = true) (hitem : text.head? ≠ some '-') :
    preprocessLine text = text.takeWhile (· != ',') := by
  have hmarker : stripMarker text = text := by
    cases text with
    | nil => rfl
    | cons c text =>
        have hne : c ≠ '-' := fun heq => hitem (congrArg some heq)
        have hdash : (c :: text).dropPrefix? "-".toList = none :=
          dropPrefix?_cons_of_ne hne _ _
        have hdashSpace : (c :: text).dropPrefix? "- ".toList = none :=
          dropPrefix?_cons_of_ne hne _ _
        rw [stripMarker, hdashSpace, hdash]
  have htaken : ∀ c ∈ text.takeWhile (· != ','), isUrlChar c = true :=
    fun c hc => htext c ((List.takeWhile_prefix _).subset hc)
  unfold preprocessLine
  rw [trimChars_of_isUrlChar htext, hmarker]
  dsimp only
  split_ifs with hcomma
  · exact trimChars_of_isUrlChar htaken
  · refine (List.takeWhile_eq_self_iff.mpr fun c hc => bne_iff_ne.mpr ?_).symm
    rintro rfl
    exact hcomma hc

theorem head?_text_of_mem {url : WebUrl} (hscheme : url.scheme ∈ wsSchemes) :
    url.text.head? = some 'w' := by
  rcases isPrefix_text_of_mem hscheme with ⟨rest, hrest⟩ | ⟨rest, hrest⟩
  · rw [← hrest]
    rfl
  · rw [← hrest]
    rfl

theorem preprocessLine_text {url : WebUrl} (hscheme : url.scheme ∈ wsSchemes) :
    preprocessLine url.text = url.text.takeWhile (· != ',') := by
  refine preprocessLine_of_isUrlChar (fun c hc => isUrlChar_of_mem_text hc) ?_
  rw [head?_text_of_mem hscheme]
  decide

end Lines

section Hosts

theorem stripScheme_text {url : WebUrl} (hscheme : url.scheme ∈ wsSchemes) :
    P2p.stripScheme url.text = some (url.authority ++ url.tail) := by
  rw [WebUrl.text]
  rcases List.mem_cons.mp hscheme with hws | hwss
  · have hnot : ("ws".toList ++ ("://".toList ++ (url.authority ++ url.tail))).dropPrefix?
        "wss://".toList = none := by
      simp [List.dropPrefix?]
    rw [hws, P2p.stripScheme, hnot, Option.none_or, ← List.append_assoc]
    exact List.dropPrefix?_append_of_beq _ (by decide)
  · rw [List.mem_singleton.mp hwss, P2p.stripScheme, ← List.append_assoc,
      List.dropPrefix?_append_of_beq _ (by decide), Option.some_or]

theorem notMem_host {host : WebHost} {c : Char} (hdomain : isDomainChar c = false)
    (hdigit : c.isDigit = false) (hdot : c ≠ '.')
    (hhost : ∀ address, host ≠ .ipv6 address) : c ∉ host.text := by
  intro hmem
  cases host with
  | domain name =>
      rw [name.isDomainChar_of_mem c hmem] at hdomain
      cases hdomain
  | ipv4 address =>
      rcases Ipv4.isDigit_or_eq_of_mem_text hmem with hc | hc
      · rw [hc] at hdigit
        cases hdigit
      · exact hdot hc
  | ipv6 address => exact hhost address rfl

theorem notMem_authority {url : WebUrl} (hhost : ∀ address, url.host ≠ .ipv6 address) :
    '/' ∉ url.authority := by
  simp only [WebUrl.authority, List.mem_append, not_or]
  exact ⟨notMem_userinfo (by decide) (by decide),
    notMem_host (by decide) (by decide) (by decide) hhost,
    notMem_portText (by decide) (by decide)⟩

/-- Behind the user the host is found, and it ends at the port. -/
theorem hostIn_authority {url : WebUrl} (hhost : ∀ address, url.host ≠ .ipv6 address) :
    P2p.hostIn url.authority = url.host.text := by
  have hat : ∀ c ∈ url.host.text ++ url.portText, (c != '@') = true := by
    intro c hc
    rw [bne_iff_ne]
    rintro rfl
    rcases List.mem_append.mp hc with hc | hc
    · exact notMem_host (by decide) (by decide) (by decide) hhost hc
    · exact notMem_portText (by decide) (by decide) hc
  have huser : url.authority.rtakeWhile (· != '@') = url.host.text ++ url.portText := by
    unfold WebUrl.authority userinfo
    cases url.credentials with
    | none => exact List.rtakeWhile_eq_self_iff.mpr hat
    | some credentials =>
        rw [rtakeWhile_append_of_all hat]
        simp
  have hopen : (url.host.text ++ url.portText).head? ≠ some '[' := by
    intro hhead
    rcases List.mem_append.mp (List.mem_of_head? hhead) with hc | hc
    · exact notMem_host (by decide) (by decide) (by decide) hhost hc
    · exact notMem_portText (by decide) (by decide) hc
  have hcolon : ∀ c ∈ url.host.text, (c != ':') = true := by
    intro c hc
    rw [bne_iff_ne]
    rintro rfl
    exact notMem_host (by decide) (by decide) (by decide) hhost hc
  have hport : url.portText.takeWhile (· != ':') = [] := by
    unfold WebUrl.portText
    cases url.port with
    | none => rfl
    | some port => exact List.takeWhile_cons_of_neg (by decide)
  unfold P2p.hostIn
  dsimp only
  rw [huser, if_neg hopen, List.takeWhile_append_of_pos hcolon, hport, List.append_nil]

/-- The host that is cut out of a serialised URL is its host, if that has no brackets. -/
theorem relayHost_text {url : WebUrl} (hscheme : url.scheme ∈ wsSchemes)
    (hhost : ∀ address, url.host ≠ .ipv6 address) :
    relayHost (String.ofList url.text) = some url.host.text := by
  have hslash : ∀ c ∈ url.authority, (c != '/') = true := by
    intro c hc
    rw [bne_iff_ne]
    rintro rfl
    exact notMem_authority hhost hc
  have htail : url.tail.takeWhile (· != '/') = [] := by
    have hhead := url.head?_tail
    cases htail : url.tail with
    | nil => rfl
    | cons c tail =>
        rw [htail] at hhead
        obtain rfl := Option.some.inj hhead
        exact List.takeWhile_cons_of_neg (by decide)
  rw [relayHost, String.toList_ofList,
    trimChars_of_isUrlChar fun c hc => isUrlChar_of_mem_text hc, stripScheme_text hscheme,
    Option.map_some, List.takeWhile_append_of_pos hslash, htail, List.append_nil,
    hostIn_authority hhost]

/-- A relay that is not refused is at no private address. -/
theorem not_isPrivate_of_not_refused {url : WebUrl} (hscheme : url.scheme ∈ wsSchemes)
    (haccepted : ¬ Refused (String.ofList url.text)) {address : Ipv4}
    (haddress : url.host = .ipv4 address) : ¬ P2p.IsPrivate address := by
  intro hprivate
  have hhost : relayHost (String.ofList url.text) = some address.text := by
    rw [relayHost_text hscheme (by rw [haddress]; exact nofun), haddress]
    rfl
  have hoctets := P2p.privateOctets_text_append hprivate []
  rw [List.append_nil] at hoctets
  refine haccepted ⟨?_, .inr ?_⟩
  · rw [isLoopbackRelay, hhost, Option.map_some, Option.getD_some, Bool.eq_false_iff]
    intro hloopback
    rw [(P2p.passable_of_isLoopbackHost hloopback).2.2] at hoctets
    cases hoctets
  · rw [isPrivateIpv4Relay, hhost]
    exact hoctets

end Hosts

section Entries

variable {parser : RelayUrlParser} {line : String}

/-- What is returned for a URL. -/
theorem checks_eq_some_iff {normalized relay : String} :
    (if isLoopbackRelay normalized then some normalized
      else if (relayHost normalized).any fun host => host.head? = some '-' then none
      else if isPrivateIpv4Relay normalized then none
      else some normalized) = some relay ↔
    normalized = relay ∧ ¬ Refused relay := by
  have hsame : normalized = relay ∧ ¬ Refused relay ↔
      normalized = relay ∧ ¬ Refused normalized :=
    and_congr_right fun heq => by rw [heq]
  rw [hsame]
  have hany :
      (relayHost normalized).any (fun host => decide (host.head? = some '-')) = true ↔
        ∃ host, relayHost normalized = some host ∧ host.head? = some '-' := by
    simp [Option.any_eq_true]
  unfold Refused
  rw [← hany]
  split_ifs with hloopback hhyphen hprivate
  · simp [hloopback]
  · simp [hloopback, hhyphen]
  · simp [hprivate, hloopback]
  · simp [hhyphen, hprivate]

theorem normalizeRelayEntry_eq_some_iff {relay : String} :
    normalizeRelayEntry parser line = some relay ↔
      ∃ url, entryUrl parser line = some url ∧ String.ofList url.text = relay ∧
        ¬ Refused relay := by
  unfold normalizeRelayEntry entryUrl
  dsimp only
  generalize preprocessLine line.toList = finalLine
  by_cases hnil : finalLine = []
  · rw [if_pos hnil, if_pos hnil]
    simp
  rw [if_neg hnil, if_neg hnil]
  by_cases hscheme : "://".toList <:+: finalLine
  · rw [if_pos hscheme, if_pos hscheme]
    by_cases hws : "wss://".toList <+: finalLine ∨ "ws://".toList <+: finalLine
    · rw [if_neg (by rwa [← not_or, not_not]), if_pos hws]
      cases parser.parse finalLine with
      | none => simp
      | some url =>
          simp only [Option.some.injEq, exists_eq_left']
          exact checks_eq_some_iff
    · rw [if_pos (not_or.mp hws), if_neg hws]
      simp
  · rw [if_neg hscheme, if_neg hscheme]
    cases hparse : parser.parse ("wss://".toList ++ finalLine) with
    | none =>
        have hnot : ¬ "wss://".toList <+: finalLine ∧ ¬ "ws://".toList <+: finalLine := by
          constructor
          · rintro ⟨rest, hrest⟩
            exact hscheme ⟨"wss".toList, rest, hrest⟩
          · rintro ⟨rest, hrest⟩
            exact hscheme ⟨"ws".toList, rest, hrest⟩
        dsimp only
        rw [if_pos hnot]
        simp
    | some url =>
        have hbegins := isPrefix_text_of_mem
          (scheme_mem_of_parse (.inl ⟨finalLine, rfl⟩) hparse)
        dsimp only
        rw [if_neg (by rwa [← not_or, not_not]), parser.parse_text hparse]
        simp only [Option.some.injEq, exists_eq_left']
        exact checks_eq_some_iff

/-- The URL of an entry is one of a WebSocket, parsed from a text without a comma. -/
theorem exists_parse_of_entryUrl {url : WebUrl} (hurl : entryUrl parser line = some url) :
    url.scheme ∈ wsSchemes ∧ ∃ text, ',' ∉ text ∧ parser.parse text = some url := by
  have hcomma := notMem_preprocessLine line.toList
  unfold entryUrl at hurl
  dsimp only at hurl
  generalize preprocessLine line.toList = finalLine at hurl hcomma
  split_ifs at hurl with _ _ hws
  · exact ⟨scheme_mem_of_parse hws hurl, finalLine, hcomma, hurl⟩
  · refine ⟨scheme_mem_of_parse (.inl ⟨finalLine, rfl⟩) hurl, _, ?_, hurl⟩
    rw [List.mem_append, not_or]
    exact ⟨by decide, hcomma⟩

/-- What is read where a serialised URL stands. -/
theorem entryUrl_text {url : WebUrl} (hscheme : url.scheme ∈ wsSchemes) :
    entryUrl parser (String.ofList url.text) =
      let kept := url.text.takeWhile (· != ',')
      if kept = [] then none
      else if "://".toList <:+: kept then
        if "wss://".toList <+: kept ∨ "ws://".toList <+: kept then parser.parse kept
        else none
      else parser.parse ("wss://".toList ++ kept) := by
  rw [entryUrl, String.toList_ofList, preprocessLine_text hscheme]

/-- A URL without a comma is read back. -/
theorem entryUrl_text_of_notMem {url : WebUrl} (hscheme : url.scheme ∈ wsSchemes)
    {text : List Char} (hparse : parser.parse text = some url) (hcomma : ',' ∉ url.text) :
    entryUrl parser (String.ofList url.text) = some url := by
  have hkept : url.text.takeWhile (· != ',') = url.text := by
    refine List.takeWhile_eq_self_iff.mpr fun c hc => bne_iff_ne.mpr ?_
    rintro rfl
    exact hcomma hc
  have hnil : url.text ≠ [] := by
    intro hnil
    have hhead := head?_text_of_mem hscheme
    rw [hnil] at hhead
    cases hhead
  rw [entryUrl_text hscheme, hkept]
  have hseparator : "://".toList <:+: url.text := isInfix_separator _ _
  dsimp only
  rw [if_neg hnil, if_pos hseparator, if_pos (isPrefix_text_of_mem hscheme),
    parser.parse_text hparse]

end Entries

section Commas

variable {parser : RelayUrlParser}

theorem toLower_ne_comma {c : Char} (hc : c ≠ ',') : c.toLower ≠ ',' := by
  unfold Char.toLower
  split_ifs with hupper
  · intro heq
    have hval := congrArg (fun d : Char => d.val.toNat) heq
    have hlow : 65 ≤ c.toNat := hupper.1
    have hhigh : c.toNat ≤ 90 := hupper.2
    simp at hval
    omega
  · exact hc

/-- A host with a comma is a domain, and what stands before the comma is plain. -/
theorem exists_domain_of_mem {host : WebHost} (hcomma : ',' ∈ host.text) :
    ∃ first rest, host.text = first ++ ',' :: rest ∧ ',' ∉ first ∧
      ∀ c ∈ first, isDomainChar c = true := by
  obtain ⟨first, rest, htext, hfirst⟩ := List.eq_append_cons_of_mem hcomma
  refine ⟨first, rest, htext, hfirst, fun c hc => ?_⟩
  cases host with
  | domain name =>
      apply name.isDomainChar_of_mem c
      change c ∈ (WebHost.domain name).text
      rw [htext]
      exact List.mem_append_left _ hc
  | ipv4 address => exact absurd hcomma (notMem_host_of_isSubDelim (by decide) nofun)
  | ipv6 address => exact absurd hcomma (notMem_host_of_isSubDelim (by decide) nofun)

/-- The beginning of a host is parsed to a host without a comma. -/
theorem notMem_host_of_plain {scheme first : List Char} {credentials : Option Credentials}
    {url : WebUrl} (hscheme : scheme ∈ wsSchemes) (hcomma : ',' ∉ first)
    (hplain : ∀ c ∈ first, isDomainChar c = true)
    (hparse : parser.parse (scheme ++ ("://".toList ++ (userinfo credentials ++ first))) =
      some url) : ',' ∉ url.host.text := by
  rcases parser.host_of_plain hscheme hplain hparse with hhost | ⟨address, hhost⟩
  · rw [hhost, List.mem_map]
    rintro ⟨c, hc, hlower⟩
    refine toLower_ne_comma ?_ hlower
    rintro rfl
    exact hcomma hc
  · exact notMem_host_of_isSubDelim (by decide) (by rw [hhost]; exact nofun)

/-- Of a URL with a comma in its host only what stands before the comma is read, and that
is another URL. -/
theorem entryUrl_text_ne_of_mem {url other : WebUrl} (hscheme : url.scheme ∈ wsSchemes)
    {text : List Char} (htext : ',' ∉ text) (hparse : parser.parse text = some url)
    (hcomma : ',' ∈ url.host.text)
    (hother : entryUrl parser (String.ofList url.text) = some other) :
    other.text ≠ url.text := by
  obtain ⟨first, rest, hhost, hfirst, hplain⟩ := exists_domain_of_mem hcomma
  have huser : ',' ∉ userinfo url.credentials := fun hmem =>
    htext (parser.mem_of_isSubDelim hparse ',' (by decide) (.inl hmem))
  have hnot : ',' ∉
      url.scheme ++ ("://".toList ++ (userinfo url.credentials ++ first)) := by
    simp only [List.mem_append, not_or]
    refine ⟨fun hmem => ?_, by decide, huser, hfirst⟩
    exact absurd (url.isLower_of_mem_scheme ',' hmem) (by decide)
  have hkept : url.text.takeWhile (· != ',') =
      url.scheme ++ ("://".toList ++ (userinfo url.credentials ++ first)) := by
    have hsplit : url.text =
        (url.scheme ++ ("://".toList ++ (userinfo url.credentials ++ first))) ++
          ',' :: (rest ++ (url.portText ++ url.tail)) := by
      simp only [WebUrl.text, WebUrl.authority, hhost, List.append_assoc, List.cons_append]
    rw [hsplit, List.takeWhile_append_of_pos, List.takeWhile_cons_of_neg (by decide),
      List.append_nil]
    intro c hc
    rw [bne_iff_ne]
    rintro rfl
    exact hnot hc
  have hread : parser.parse (url.scheme ++
      ("://".toList ++ (userinfo url.credentials ++ first))) = some other := by
    rw [entryUrl_text hscheme, hkept] at hother
    dsimp only at hother
    rwa [if_neg (by simp), if_pos (isInfix_separator _ _),
      if_pos (isPrefix_of_mem hscheme _)] at hother
  have hmem : ',' ∈ url.text := by
    simp only [WebUrl.text, WebUrl.authority, List.mem_append]
    exact .inr (.inr (.inl (.inr (.inl hcomma))))
  intro heq
  rw [← heq] at hmem
  exact notMem_host_of_plain hscheme hfirst hplain hread
    (mem_host_of_mem_text parser hread (by decide) hmem hnot)

end Commas

/-- The entry is a relay that may be used, and it is read as the same relay again. -/
theorem normalizeRelayEntry_iff (parser : RelayUrlParser) (line : String) :
    (∀ relay, normalizeRelayEntry parser line = some relay →
      IsPublicRelay parser relay ∧ normalizeRelayEntry parser relay = some relay) ↔
    ∀ url, entryUrl parser line = some url → ',' ∈ url.host.text →
      Refused (String.ofList url.text) := by
  constructor
  · intro hall url hurl hcomma
    by_contra haccepted
    obtain ⟨hscheme, text, htext, hparse⟩ := exists_parse_of_entryUrl hurl
    obtain ⟨-, hagain⟩ := hall _
      (normalizeRelayEntry_eq_some_iff.mpr ⟨url, hurl, rfl, haccepted⟩)
    obtain ⟨other, hother, hsame, -⟩ := normalizeRelayEntry_eq_some_iff.mp hagain
    exact entryUrl_text_ne_of_mem hscheme htext hparse hcomma hother
      (String.ofList_injective hsame)
  · intro hcondition relay hrelay
    obtain ⟨url, hurl, rfl, haccepted⟩ := normalizeRelayEntry_eq_some_iff.mp hrelay
    obtain ⟨hscheme, text, htext, hparse⟩ := exists_parse_of_entryUrl hurl
    refine ⟨⟨url, ?_, String.toList_ofList.symm, hscheme,
      fun address => not_isPrivate_of_not_refused hscheme haccepted⟩, ?_⟩
    · rw [String.toList_ofList]
      exact parser.parse_text hparse
    · have hcomma : ',' ∉ url.text := fun hmem => haccepted
        (hcondition url hurl (mem_host_of_mem_text parser hparse (by decide) hmem htext))
      exact normalizeRelayEntry_eq_some_iff.mpr
        ⟨url, entryUrl_text_of_notMem hscheme hparse hcomma, rfl, haccepted⟩

section Table

/-- The URL of a host that is a domain, without anything else. -/
def plainUrl (domain : Domain) : WebUrl where
  scheme := "wss".toList
  credentials := none
  host := .domain domain
  port := none
  tail := ['/']
  isLower_of_mem_scheme := List.all_eq_true.mp (by decide)
  scheme_ne_nil := by decide
  head?_tail := rfl
  isUrlChar_of_mem_tail := List.all_eq_true.mp (by decide)

def domainA : Domain := ⟨"a".toList, by decide, List.all_eq_true.mp (by decide)⟩

def domainComma : Domain := ⟨"a,b".toList, by decide, List.all_eq_true.mp (by decide)⟩

/-- A plain host takes no slash to a URL. -/
theorem count_slash_of_plain {scheme host : List Char} (credentials : Option Credentials)
    (hscheme : scheme ∈ wsSchemes) (hplain : ∀ c ∈ host, isDomainChar c = true) :
    (scheme ++ ("://".toList ++ (userinfo credentials ++ host))).count '/' = 2 := by
  have hhost : '/' ∉ host := fun hmem => nomatch hplain '/' hmem
  have huser : '/' ∉ userinfo credentials := notMem_userinfo (by decide) (by decide)
  have hschemes : ∀ scheme ∈ wsSchemes, scheme.count '/' = 0 := by decide
  rw [List.count_append, List.count_append, List.count_append, hschemes scheme hscheme,
    List.count_eq_zero.mpr huser, List.count_eq_zero.mpr hhost]
  rfl

/-- A parser of the URLs of two hosts. -/
def tableParser : RelayUrlParser where
  parse text :=
    if text = "wss://a%2Cb/".toList ∨ text = "wss://a,b/".toList then
      some (plainUrl domainComma)
    else if text = "wss://a".toList ∨ text = "wss://a/".toList then some (plainUrl domainA)
    else none
  parse_text := by
    intro text url hparse
    split_ifs at hparse
    · obtain rfl := Option.some.inj hparse
      rfl
    · obtain rfl := Option.some.inj hparse
      rfl
  scheme_eq := by
    intro scheme rest url hscheme hparse
    have hwss : scheme = "wss".toList := by
      rcases List.mem_cons.mp hscheme with rfl | hwss
      · simp at hparse
      · exact List.mem_singleton.mp hwss
    split_ifs at hparse
    · obtain rfl := Option.some.inj hparse
      exact hwss.symm
    · obtain rfl := Option.some.inj hparse
      exact hwss.symm
  mem_of_isSubDelim := by
    intro text url hparse c hc hmem
    have hslash : c = '/' := by
      split_ifs at hparse
      · obtain rfl := Option.some.inj hparse
        exact List.mem_singleton.mp (hmem.resolve_left List.not_mem_nil)
      · obtain rfl := Option.some.inj hparse
        exact List.mem_singleton.mp (hmem.resolve_left List.not_mem_nil)
    rw [hslash] at hc
    cases hc
  host_of_plain := by
    intro scheme host credentials url hscheme hplain hparse
    have hcount := count_slash_of_plain credentials hscheme hplain
    split_ifs at hparse with hcomma ha
    · rcases hcomma with heq | heq
      · rw [heq] at hcount
        cases hcount
      · rw [heq] at hcount
        cases hcount
    · obtain rfl := Option.some.inj hparse
      rcases ha with heq | heq
      · have hnot : '@' ∉ "a".toList := by decide
        rcases List.mem_cons.mp hscheme with rfl | hwss
        · simp at heq
        · rw [List.mem_singleton.mp hwss] at heq
          have hrest : userinfo credentials ++ host = "a".toList :=
            List.append_cancel_left (List.append_cancel_left heq)
          cases credentials with
          | none =>
              rw [userinfo, List.nil_append] at hrest
              exact .inl (by rw [hrest]; rfl)
          | some credentials =>
              refine absurd ?_ hnot
              rw [← hrest]
              simp [userinfo]
      · rw [heq] at hcount
        cases hcount

/-- The encoded comma of a host is decoded, and the entry that is returned is cut at it. -/
theorem normalizeRelayEntry_comma :
    normalizeRelayEntry tableParser "wss://a%2Cb/" = some "wss://a,b/" ∧
      normalizeRelayEntry tableParser "wss://a,b/" = some "wss://a/" := by
  decide +kernel

theorem not_projection_comma :
    ¬ ∀ relay, normalizeRelayEntry tableParser "wss://a%2Cb/" = some relay →
      IsPublicRelay tableParser relay ∧
        normalizeRelayEntry tableParser relay = some relay := by
  intro hall
  obtain ⟨hcomma, hcut⟩ := normalizeRelayEntry_comma
  have hagain := (hall _ hcomma).2
  rw [hcut] at hagain
  exact absurd hagain (by decide)

end Table

end Crawler

end Gnostr
