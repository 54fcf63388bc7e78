/-
URLs with an authority, as the WHATWG standard writes them: a scheme, an optional user, a
host, an optional port, and what begins with the slash of the path.  The parser is left
open but for what the standard says of serialised URLs and of hosts that are plain.
-/
import Gnostr.Lib.Authority

namespace Gnostr

section Characters

theorem forall_mem_of_all {p : Char → Prop} [DecidablePred p] {l : List Char}
    (hall : (l.all fun c => decide (p c)) = true) : ∀ c ∈ l, p c := fun c hmem =>
  of_decide_eq_true (List.all_eq_true.mp hall c hmem)

/-- The characters of a serialised URL. All others are encoded. -/
def isUrlChar (c : Char) : Bool := 0x20 < c.toNat && c.toNat < 0x7F

/-- The characters of a domain: a domain is not percent-encoded. -/
def isDomainChar (c : Char) : Bool :=
  isUrlChar c && !"#%/:<>?@[\\]^|".toList.contains c

def isCredentialChar (c : Char) : Bool :=
  isUrlChar c && isAuthorityChar c && c != '@'

def isIpv6Char (c : Char) : Bool := c.isDigit || c == ':' || ('a' ≤ c && c ≤ 'f')

/-- Delimiters that are neither decoded nor put in: outside the host they stand in a URL
only if they stand in what it was parsed from. -/
def isSubDelim (c : Char) : Bool := "!$&()*+,".toList.contains c

end Characters

structure Domain where
  text : List Char
  text_ne_nil : text ≠ []
  isDomainChar_of_mem : ∀ c ∈ text, isDomainChar c = true

structure Ipv6Text where
  text : List Char
  isIpv6Char_of_mem : ∀ c ∈ text, isIpv6Char c = true

inductive WebHost
  | domain (domain : Domain)
  | ipv4 (address : Ipv4)
  | ipv6 (address : Ipv6Text)

def WebHost.text : WebHost → List Char
  | .domain name => name.text
  | .ipv4 address => address.text
  | .ipv6 address => '[' :: (address.text ++ [']'])

/-- A user, and a colon and a password. -/
structure Credentials where
  text : List Char
  isCredentialChar_of_mem : ∀ c ∈ text, isCredentialChar c = true

/-- The user and the at sign that follows it, if there is one. -/
def userinfo (credentials : Option Credentials) : List Char :=
  match credentials with
  | some credentials => credentials.text ++ ['@']
  | none => []

structure WebUrl where
  scheme : List Char
  credentials : Option Credentials
  host : WebHost
  port : Option ℕ
  tail : List Char
  isLower_of_mem_scheme : ∀ c ∈ scheme, c.isLower = true
  scheme_ne_nil : scheme ≠ []
  head?_tail : tail.head? = some '/'
  isUrlChar_of_mem_tail : ∀ c ∈ tail, isUrlChar c = true

namespace WebUrl

def portText (url : WebUrl) : List Char :=
  match url.port with
  | some port => ':' :: decimal port
  | none => []

def authority (url : WebUrl) : List Char :=
  userinfo url.credentials ++ (url.host.text ++ url.portText)

/-- `to_string`. -/
def text (url : WebUrl) : List Char :=
  url.scheme ++ ("://".toList ++ (url.authority ++ url.tail))

end WebUrl

/-- A parser of URLs of some schemes.  A serialised URL is parsed to what it is the
serialisation of; a scheme in lower case is kept; a delimiter of the result is one of the
text, unless it is in the host, which is decoded; and a host that needs no decoding is
put into lower case, or it is the number of an address. -/
structure WebUrlParser (schemes : List (List Char)) where
  parse : List Char → Option WebUrl
  parse_text : ∀ {text : List Char} {url : WebUrl},
    parse text = some url → parse url.text = some url
  scheme_eq : ∀ {scheme rest : List Char} {url : WebUrl}, scheme ∈ schemes →
    parse (scheme ++ ("://".toList ++ rest)) = some url → url.scheme = scheme
  mem_of_isSubDelim : ∀ {text : List Char} {url : WebUrl}, parse text = some url →
    ∀ c, isSubDelim c = true → c ∈ userinfo url.credentials ∨ c ∈ url.tail → c ∈ text
  host_of_plain : ∀ {scheme host : List Char} {credentials : Option Credentials}
    {url : WebUrl}, scheme ∈ schemes → (∀ c ∈ host, isDomainChar c = true) →
    parse (scheme ++ ("://".toList ++ (userinfo credentials ++ host))) = some url →
    url.host.text = host.map Char.toLower ∨ ∃ address, url.host = .ipv4 address

section Characters

theorem isUrlChar_of_isDomainChar {c : Char} (hc : isDomainChar c = true) :
    isUrlChar c = true := (Bool.and_eq_true_iff.mp hc).1

theorem isUrlChar_of_isLower {c : Char} (hc : c.isLower = true) : isUrlChar c = true := by
  have hrange := Bool.and_eq_true_iff.mp hc
  have hlow : 97 ≤ c.toNat := of_decide_eq_true hrange.1
  have hhigh : c.toNat ≤ 122 := of_decide_eq_true hrange.2
  simp only [isUrlChar, Bool.and_eq_true, decide_eq_true_eq]
  omega

theorem isUrlChar_of_isDigit {c : Char} (hc : c.isDigit = true) : isUrlChar c = true := by
  simp only [Char.isDigit, Bool.and_eq_true, decide_eq_true_eq, ge_iff_le] at hc
  have hlow : 48 ≤ c.toNat := hc.1
  have hhigh : c.toNat ≤ 57 := hc.2
  simp only [isUrlChar, Bool.and_eq_true, decide_eq_true_eq]
  omega

end Characters

section Text

variable {url : WebUrl}

theorem notMem_userinfo {credentials : Option Credentials} {c : Char} (hat : c ≠ '@')
    (hc : isCredentialChar c = false) : c ∉ userinfo credentials := by
  cases credentials with
  | none => exact List.not_mem_nil
  | some credentials =>
      intro hmem
      rcases List.mem_append.mp hmem with hmem | hmem
      · rw [credentials.isCredentialChar_of_mem c hmem] at hc
        cases hc
      · exact hat (List.mem_singleton.mp hmem)

theorem isUrlChar_of_mem_userinfo {credentials : Option Credentials} {c : Char}
    (hmem : c ∈ userinfo credentials) : isUrlChar c = true := by
  cases credentials with
  | none => exact absurd hmem List.not_mem_nil
  | some credentials =>
      rcases List.mem_append.mp hmem with hmem | hmem
      · have hc := credentials.isCredentialChar_of_mem c hmem
        rw [isCredentialChar, Bool.and_eq_true, Bool.and_eq_true] at hc
        exact hc.1.1
      · rw [List.mem_singleton.mp hmem]
        decide

theorem Ipv4.isDigit_or_eq_of_mem_text {address : Ipv4} {c : Char}
    (hc : c ∈ address.text) : c.isDigit = true ∨ c = '.' := by
  have hdigit {octet : ℕ} (hmem : c ∈ decimal octet) := isDigit_of_mem_decimal hmem
  simp only [Ipv4.text, List.mem_append, List.mem_cons] at hc
  rcases hc with hc | rfl | hc | rfl | hc | rfl | hc
  · exact .inl (hdigit hc)
  · exact .inr rfl
  · exact .inl (hdigit hc)
  · exact .inr rfl
  · exact .inl (hdigit hc)
  · exact .inr rfl
  · exact .inl (hdigit hc)

theorem isUrlChar_of_isIpv6Char {c : Char} (hc : isIpv6Char c = true) :
    isUrlChar c = true := by
  simp only [isIpv6Char, Bool.or_eq_true, Bool.and_eq_true, decide_eq_true_eq,
    beq_iff_eq] at hc
  rcases hc with (hdigit | rfl) | ⟨hlow, hhigh⟩
  · exact isUrlChar_of_isDigit hdigit
  · decide
  · have hlow : 97 ≤ c.toNat := hlow
    have hhigh : c.toNat ≤ 102 := hhigh
    simp only [isUrlChar, Bool.and_eq_true, decide_eq_true_eq]
    omega

theorem isUrlChar_of_mem_host {host : WebHost} {c : Char} (hmem : c ∈ host.text) :
    isUrlChar c = true := by
  cases host with
  | domain name => exact isUrlChar_of_isDomainChar (name.isDomainChar_of_mem c hmem)
  | ipv4 address =>
      rcases Ipv4.isDigit_or_eq_of_mem_text hmem with hdigit | rfl
      · exact isUrlChar_of_isDigit hdigit
      · decide
  | ipv6 address =>
      rcases List.mem_cons.mp hmem with rfl | hmem
      · decide
      · rcases List.mem_append.mp hmem with hmem | hmem
        · exact isUrlChar_of_isIpv6Char (address.isIpv6Char_of_mem c hmem)
        · rw [List.mem_singleton.mp hmem]
          decide

theorem isUrlChar_of_mem_portText {c : Char} (hmem : c ∈ url.portText) :
    isUrlChar c = true := by
  unfold WebUrl.portText at hmem
  split at hmem
  · rcases List.mem_cons.mp hmem with rfl | hmem
    · decide
    · exact isUrlChar_of_isDigit (isDigit_of_mem_decimal hmem)
  · exact absurd hmem List.not_mem_nil

/-- A serialised URL has no character that would be encoded. -/
theorem isUrlChar_of_mem_text {c : Char} (hmem : c ∈ url.text) : isUrlChar c = true := by
  simp only [WebUrl.text, WebUrl.authority, List.mem_append] at hmem
  rcases hmem with hmem | hmem | (hmem | hmem | hmem) | hmem
  · exact isUrlChar_of_isLower (url.isLower_of_mem_scheme c hmem)
  · exact List.all_eq_true.mp (by decide : "://".toList.all isUrlChar = true) c hmem
  · exact isUrlChar_of_mem_userinfo hmem
  · exact isUrlChar_of_mem_host hmem
  · exact isUrlChar_of_mem_portText hmem
  · exact url.isUrlChar_of_mem_tail c hmem

theorem notMem_portText {c : Char} (hcolon : c ≠ ':') (hc : c.isDigit = false) :
    c ∉ url.portText := by
  unfold WebUrl.portText
  split
  · rw [List.mem_cons, not_or]
    exact ⟨hcolon, not_mem_decimal hc _⟩
  · exact List.not_mem_nil

/-- Only a domain has delimiters. -/
theorem notMem_host_of_isSubDelim {host : WebHost} {c : Char} (hc : isSubDelim c = true)
    (hdomain : ∀ name, host ≠ .domain name) : c ∉ host.text := by
  have hall : ∀ d ∈ "!$&()*+,".toList, d.isDigit = false ∧ d ≠ '.' ∧ d ≠ '[' ∧ d ≠ ']' ∧
      isIpv6Char d = false :=
    forall_mem_of_all (by decide)
  obtain ⟨hdigit, hdot, hopen, hclose, hipv6⟩ := hall c (List.contains_iff_mem.mp hc)
  cases host with
  | domain name => exact absurd rfl (hdomain name)
  | ipv4 address =>
      intro hmem
      rcases Ipv4.isDigit_or_eq_of_mem_text hmem with hmem | hmem
      · rw [hmem] at hdigit
        cases hdigit
      · exact hdot hmem
  | ipv6 address =>
      intro hmem
      rcases List.mem_cons.mp hmem with hmem | hmem
      · exact hopen hmem
      · rcases List.mem_append.mp hmem with hmem | hmem
        · rw [address.isIpv6Char_of_mem c hmem] at hipv6
          cases hipv6
        · exact hclose (List.mem_singleton.mp hmem)

/-- A delimiter of a parsed URL that is not one of the text stands in the host. -/
theorem mem_host_of_mem_text {schemes : List (List Char)} (parser : WebUrlParser schemes)
    {text : List Char} {c : Char} (hparse : parser.parse text = some url)
    (hc : isSubDelim c = true) (hmem : c ∈ url.text) (htext : c ∉ text) :
    c ∈ url.host.text := by
  have hall : ∀ d ∈ "!$&()*+,".toList, d.isLower = false ∧ d ∉ "://".toList ∧ d ≠ ':' ∧
      d.isDigit = false :=
    forall_mem_of_all (by decide)
  obtain ⟨hlower, hseparator, hcolon, hdigit⟩ := hall c (List.contains_iff_mem.mp hc)
  have hother := mt (parser.mem_of_isSubDelim hparse c hc) htext
  simp only [WebUrl.text, WebUrl.authority, List.mem_append] at hmem
  rcases hmem with hmem | hmem | (hmem | hmem | hmem) | hmem
  · rw [url.isLower_of_mem_scheme c hmem] at hlower
    cases hlower
  · exact absurd hmem hseparator
  · exact absurd (.inl hmem) hother
  · exact hmem
  · exact absurd hmem (notMem_portText hcolon hdigit)
  · exact absurd (.inr hmem) hother

end Text

end Gnostr
