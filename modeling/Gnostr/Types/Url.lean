/-
URLs of `types/src/nostr/url.rs`: unchecked ones, which are any strings, and
relay URLs, which have been parsed twice and are in canonical form.
-/
import Gnostr.Types.Keys
import Mathlib.Data.List.DropRight
import Mathlib.Data.List.Infix

namespace Gnostr

namespace Types

/-- A string that is supposed to represent a URL but which might be invalid. -/
structure UncheckedUrl where
  text : String
deriving Repr, DecidableEq

/-- The characters of the Unicode property `White_Space`. -/
def isWhiteSpace (c : Char) : Bool :=
  let n := c.toNat
  (9 ≤ n && n ≤ 13) || n == 0x20 || n == 0x85 || n == 0xA0 || n == 0x1680 ||
    (0x2000 ≤ n && n ≤ 0x200A) || n == 0x2028 || n == 0x2029 || n == 0x202F ||
    n == 0x205F || n == 0x3000

def trimChars (chars : List Char) : List Char :=
  (chars.dropWhile isWhiteSpace).rdropWhile isWhiteSpace

/-- `trim`. -/
def trim (text : String) : String := String.ofList (trimChars text.toList)

theorem isWhiteSpace_eq_false {c : Char} (hc : 0x20 < c.toNat) (hlt : c.toNat < 0x80) :
    isWhiteSpace c = false := by
  unfold isWhiteSpace
  simp only [Bool.or_eq_false_iff, Bool.and_eq_false_iff, decide_eq_false_iff_not,
    beq_eq_false_iff_ne, ne_eq]
  omega

theorem trimChars_of_forall {chars : List Char}
    (hchars : ∀ c ∈ chars, isWhiteSpace c = false) : trimChars chars = chars := by
  unfold trimChars
  have hfirst : chars.dropWhile isWhiteSpace = chars :=
    List.dropWhile_eq_self_iff.mpr fun hne =>
      ne_true_of_eq_false (hchars _ (List.getElem_mem hne))
  rw [hfirst, List.rdropWhile_eq_self_iff]
  exact fun hne => ne_true_of_eq_false (hchars _ (List.getLast_mem hne))

theorem mem_of_mem_trimChars {chars : List Char} {c : Char} (hc : c ∈ trimChars chars) :
    c ∈ chars :=
  (List.dropWhile_suffix _).subset ((List.rdropWhile_prefix _ _).subset hc)

inductive UrlHost where
  | domain (text : String)
  | ipv4
  | ipv6
deriving Repr, DecidableEq

/-- What the crate asks of a parsed URL. -/
structure ParsedUrl where
  serialization : String
  hasAuthority : Bool
  host : Option UrlHost
deriving Repr, DecidableEq

/-- The URL parser in use.  A serialization is parsed to what it is the
serialization of; it has no space around it; where it only adds to the text it
was parsed from, it adds the slash of an empty path. -/
structure UrlParser where
  parse : String → Option ParsedUrl
  parse_serialization : ∀ {text : String} {url : ParsedUrl},
    parse text = some url → parse url.serialization = some url
  trim_serialization : ∀ {text : String} {url : ParsedUrl},
    parse text = some url → trim url.serialization = url.serialization
  eq_or_slash_of_prefix : ∀ {text : String} {url : ParsedUrl},
    parse text = some url → text.toList <+: url.serialization.toList →
    url.serialization = text ∨ url.serialization = text ++ "/"

/-- A string representing a valid URL with an authority and a host. -/
structure Url where
  text : String
deriving Repr, DecidableEq

/-- A URL validated as a relay URL in canonical form. -/
structure RelayUrl where
  text : String
deriving Repr, DecidableEq

def Url.tryFromStr (parser : UrlParser) (text : String) : Outcome Error Url := do
  let url ← Outcome.okOr Error.invalidUrl (parser.parse (trim text))
  if !url.hasAuthority then .err .invalidUrlMissingAuthority
  else
    match url.host with
    | some (.domain host) =>
        if host ≠ trim host then .err (.invalidUrlHost host)
        else return ⟨url.serialization⟩
    | some .ipv4 => return ⟨url.serialization⟩
    | some .ipv6 => return ⟨url.serialization⟩
    | none => .err (.invalidUrlHost "")

namespace RelayUrl

/-- A list of several URLs is refused; the scheme is looked at and not refused. -/
def tryFromUrl (parser : UrlParser) (u : Url) : Outcome Error RelayUrl :=
  if ",wss://".toList <:+: u.text.toList ∨ ",ws://".toList <:+: u.text.toList then
    .err (.url ("URL appears to be a list of multiple URLs: " ++ u.text))
  else do
    let url ← Outcome.okOr Error.invalidUrl (parser.parse u.text)
    if url.host.isNone then .err (.url ("URL has no host: " ++ u.text))
    else return ⟨url.serialization⟩

def tryFromStr (parser : UrlParser) (text : String) : Outcome Error RelayUrl := do
  let url ← Url.tryFromStr parser text
  tryFromUrl parser url

/-- The relay URL is what its own text is parsed to. -/
def Canonical (parser : UrlParser) (relay : RelayUrl) : Prop :=
  tryFromStr parser relay.text = .ok relay

instance (parser : UrlParser) (relay : RelayUrl) :
    Decidable (relay.Canonical parser) :=
  inferInstanceAs (Decidable (_ = _))

/-- What is accepted is the serialization of what was parsed. -/
theorem exists_of_tryFromStr_eq_ok {parser : UrlParser} {text : String}
    {relay : RelayUrl} (hok : tryFromStr parser text = .ok relay) :
    ∃ url, parser.parse (trim text) = some url ∧
      relay.text = url.serialization := by
  obtain ⟨first, hfirst, hrelay⟩ := Outcome.bind_eq_ok_iff.mp hok
  obtain ⟨url, hurl, hfirst⟩ := Outcome.bind_eq_ok_iff.mp hfirst
  rw [Outcome.okOr_eq_ok_iff] at hurl
  have hfirstText : first = ⟨url.serialization⟩ := by
    split at hfirst
    · cases hfirst
    · split at hfirst
      · split at hfirst
        · cases hfirst
        · cases hfirst
          rfl
      · cases hfirst
        rfl
      · cases hfirst
        rfl
      · cases hfirst
  refine ⟨url, hurl, ?_⟩
  rw [hfirstText] at hrelay
  unfold tryFromUrl at hrelay
  split at hrelay
  · cases hrelay
  · rw [parser.parse_serialization hurl, Outcome.okOr_some,
      Outcome.ok_bind] at hrelay
    split at hrelay
    · cases hrelay
    · cases hrelay
      rfl

end RelayUrl

end Types

end Gnostr
