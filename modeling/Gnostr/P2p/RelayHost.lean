/-
Which relays `p2p/src/crawler_broadcast.rs` accepts.  The host of a relay is cut out of its
URL by hand: the authority is taken to end at a slash only, so that an at sign in a query or
a fragment puts another host in the place of the one a connection is made to.
-/
import Gnostr.Lib.Authority
import Gnostr.Types.Url

namespace Gnostr

namespace P2p

open Gnostr.Types (trimChars)

section Source

def stripScheme (relay : List Char) : Option (List Char) :=
  (relay.dropPrefix? "wss://".toList).or (relay.dropPrefix? "ws://".toList)

/-- The host in what is taken for the authority. -/
def hostIn (authority : List Char) : List Char :=
  let authority := authority.rtakeWhile (· != '@')
  if authority.head? = some '[' then authority else authority.takeWhile (· != ':')

def relayHost (relay : String) : Option (List Char) :=
  (stripScheme (trimChars relay.toList)).map fun relay => hostIn (relay.takeWhile (· != '/'))

/-- The first two octets of the host are those of a private address. -/
def privateOctets (host : List Char) : Bool :=
  let octets := host.splitOn '.'
  match octets[0]?.bind (parseUnsigned 256), octets[1]?.bind (parseUnsigned 256) with
  | some first, some second =>
      first == 10 || (first == 172 && (16 ≤ second && second ≤ 31)) ||
        (first == 192 && second == 168) || (first == 100 && (64 ≤ second && second ≤ 127))
  | _, _ => false

def isPrivateIpv4Relay (relay : String) : Bool :=
  match relayHost relay with
  | some host => privateOctets host
  | none => false

def isLoopbackHost (host : List Char) : Bool :=
  host == "localhost".toList || host == "127.0.0.1".toList

def isValidRelayUrl (relay : String) : Bool :=
  ((relayHost relay).map fun host =>
    !host.isEmpty && host.head? != some '-' && !isPrivateIpv4Relay relay &&
      !isLoopbackHost host).getD false

def isLoopbackRelay (relay : String) : Bool :=
  ((relayHost relay).map isLoopbackHost).getD false

structure RelayBucket where
  nip : Int32
  relays : List String
deriving Repr, DecidableEq

/-- The relays a connection is made to, in order, and the number of those over which the
event was published.  A connection that fails does not keep the next from being made. -/
def broadcastEventToCrawlerRelays (publish : String → Bool) (buckets : List RelayBucket) :
    List String × ℕ :=
  let dialed := buckets.flatMap fun bucket =>
    bucket.relays.filter fun relayUrl => isValidRelayUrl relayUrl || isLoopbackRelay relayUrl
  (dialed, dialed.countP publish)

end Source

section Specification

def wsSchemes : List (List Char) := ["ws".toList, "wss".toList]

/-- The blocks of private addresses. -/
def privateBlocks : List Ipv4Block :=
  [⟨⟨10, 0, 0, 0⟩, 8⟩, ⟨⟨172, 16, 0, 0⟩, 12⟩, ⟨⟨192, 168, 0, 0⟩, 16⟩, ⟨⟨100, 64, 0, 0⟩, 10⟩]

def IsPrivate (address : Ipv4) : Prop := ∃ block ∈ privateBlocks, block.Contains address

instance (address : Ipv4) : Decidable (IsPrivate address) :=
  inferInstanceAs (Decidable (∃ block ∈ privateBlocks, block.Contains address))

/-- The host of the URL is a private address. -/
def NamesPrivate (url : String) : Prop :=
  ∃ address : Ipv4, urlHost wsSchemes (trimChars url.toList) = some address.text ∧
    IsPrivate address

/-- The URL is refused, and no connection is made to it, in whatever bucket it stands. -/
def KeptOut (url : String) : Prop :=
  isValidRelayUrl url = false ∧
    ∀ publish buckets, url ∉ (broadcastEventToCrawlerRelays publish buckets).1

/-- The host passes all checks but the one for loopback. -/
def Passable (host : List Char) : Prop :=
  host ≠ [] ∧ host.head? ≠ some '-' ∧ privateOctets host = false

instance (host : List Char) : Decidable (Passable host) :=
  inferInstanceAs (Decidable (_ ∧ _))

/-- What is taken for the authority beyond its end: a query or a fragment, to its first
slash. -/
def beyond (rest : List Char) : List Char :=
  (rest.dropWhile isAuthorityChar).takeWhile (· != '/')

/-- The query or the fragment names, behind an at sign, a host that passes. -/
def Decoyed (url : String) : Prop :=
  ∃ rest, stripScheme (trimChars url.toList) = some rest ∧
    '@' ∈ beyond rest ∧ Passable (hostIn (beyond rest))

end Specification

section Octets

/-- The private addresses by their first two octets. -/
theorem isPrivate_iff (address : Ipv4) :
    IsPrivate address ↔
      address.first.val = 10 ∨
        address.first.val = 172 ∧ 16 ≤ address.second.val ∧ address.second.val ≤ 31 ∨
        address.first.val = 192 ∧ address.second.val = 168 ∨
        address.first.val = 100 ∧ 64 ≤ address.second.val ∧ address.second.val ≤ 127 := by
  have hpair : address.number / 2 ^ 16 = address.first * 256 + address.second := by
    rw [Ipv4.number]
    omega
  -- the first two octets decide on every block
  have hblock (block : Ipv4Block) (hbits : block.bits ≤ 16) : block.Contains address ↔
      (address.first * 256 + address.second) / 2 ^ (16 - block.bits) =
        block.base.number / 2 ^ (32 - block.bits) := by
    have hsplit : 32 - block.bits = 16 + (16 - block.bits) := by omega
    rw [Ipv4Block.Contains, ← hpair, Nat.div_div_eq_div_mul, ← Nat.pow_add, ← hsplit]
  have hsecond := address.second.isLt
  have hten : (address.first * 256 + address.second : ℕ) / 2 ^ 8 = 10 ↔
      address.first.val = 10 := by omega
  have hcarrier : (address.first * 256 + address.second : ℕ) / 2 ^ 6 = 401 ↔
      address.first.val = 100 ∧ 64 ≤ address.second.val ∧ address.second.val ≤ 127 := by
    omega
  have hsixteen : (address.first * 256 + address.second : ℕ) / 2 ^ 4 = 2753 ↔
      address.first.val = 172 ∧ 16 ≤ address.second.val ∧ address.second.val ≤ 31 := by
    omega
  have hone : (address.first * 256 + address.second : ℕ) / 2 ^ 0 = 49320 ↔
      address.first.val = 192 ∧ address.second.val = 168 := by omega
  simp only [IsPrivate, privateBlocks, List.exists_mem_cons_iff, List.not_mem_nil, false_and,
    exists_false, or_false]
  rw [hblock _ (by decide), hblock _ (by decide), hblock _ (by decide),
    hblock _ (by decide)]
  exact or_congr hten (or_congr hsixteen (or_congr hone hcarrier))

theorem privateOctets_text_append {address : Ipv4} (hprivate : IsPrivate address)
    (tail : List Char) : privateOctets (address.text ++ tail) = true := by
  rw [isPrivate_iff] at hprivate
  have hdot (octet : ℕ) : '.' ∉ decimal octet := not_mem_decimal (by decide) octet
  have hsplit : ∃ octets, (address.text ++ tail).splitOn '.' =
      decimal address.first :: decimal address.second :: octets := by
    rw [Ipv4.text, List.append_assoc, List.cons_append, List.append_assoc, List.cons_append,
      List.splitOn_append_cons_self_of_not_mem (hdot _),
      List.splitOn_append_cons_self_of_not_mem (hdot _)]
    exact ⟨_, rfl⟩
  obtain ⟨octets, hoctets⟩ := hsplit
  unfold privateOctets
  dsimp only
  rw [hoctets, List.getElem?_cons_zero, List.getElem?_cons_succ, List.getElem?_cons_zero,
    Option.bind_some, Option.bind_some, parseUnsigned_decimal address.first.isLt,
    parseUnsigned_decimal address.second.isLt]
  simp only [Bool.or_eq_true, Bool.and_eq_true, beq_iff_eq, decide_eq_true_eq]
  tauto

end Octets

section Accepted

variable {url : String}

theorem passable_of_isLoopbackHost {host : List Char}
    (hloopback : isLoopbackHost host = true) : Passable host := by
  rcases Bool.or_eq_true_iff.mp hloopback with hname | haddress
  · rw [eq_of_beq hname]
    decide
  · rw [eq_of_beq haddress]
    decide

/-- A relay is accepted, as valid or as loopback, when its host passes. -/
theorem accepted_iff : (isValidRelayUrl url || isLoopbackRelay url) = true ↔
    ∃ host, relayHost url = some host ∧ Passable host := by
  unfold isValidRelayUrl isLoopbackRelay isPrivateIpv4Relay
  cases hhost : relayHost url with
  | none =>
      refine iff_of_false Bool.false_ne_true ?_
      rintro ⟨host, hnone, -⟩
      cases hnone
  | some host =>
      simp only [Option.map_some, Option.getD_some, Option.some.injEq, exists_eq_left']
      cases hloopback : isLoopbackHost host with
      | true => exact iff_of_true (Bool.or_true _) (passable_of_isLoopbackHost hloopback)
      | false =>
          simp [Passable, and_assoc]

theorem keptOut_iff_not_passable :
    KeptOut url ↔ ¬ ∃ host, relayHost url = some host ∧ Passable host := by
  rw [← accepted_iff]
  constructor
  · rintro ⟨-, hdialed⟩ haccepted
    apply hdialed (fun _ => true) [⟨0, [url]⟩]
    refine List.mem_flatMap.mpr ⟨⟨0, [url]⟩, List.mem_singleton_self _, ?_⟩
    exact List.mem_filter.mpr ⟨List.mem_singleton_self url, haccepted⟩
  · intro hrefused
    refine ⟨?_, fun publish buckets hdialed => ?_⟩
    · rw [Bool.or_eq_true, not_or, Bool.not_eq_true] at hrefused
      exact hrefused.1
    · obtain ⟨bucket, -, hrelay⟩ := List.mem_flatMap.mp hdialed
      exact hrefused (List.mem_filter.mp hrelay).2

end Accepted

section Decoy

variable {rest : List Char}

/-- What is taken for the authority is the authority and what is beyond it. -/
theorem takeWhile_eq_append_beyond (rest : List Char) :
    rest.takeWhile (· != '/') = rest.takeWhile isAuthorityChar ++ beyond rest := by
  refine takeWhile_eq_append_of_imp ?_ rest
  intro c hc
  rw [isAuthorityChar, Bool.and_eq_true, Bool.and_eq_true] at hc
  exact hc.1.1

theorem hostIn_append_of_mem {last : List Char} (hlast : '@' ∈ last) (first : List Char) :
    hostIn (first ++ last) = hostIn last := by
  unfold hostIn
  rw [rtakeWhile_append_of_mem hlast (by decide)]

/-- Without an at sign beyond the authority its host begins the host that is found. -/
theorem hostIn_append_of_notMem {authority last host : List Char} (hlast : '@' ∉ last)
    (hne : host ≠ []) (hbracket : host.head? ≠ some '[')
    (hhost : hostOfAuthority authority = host) : host <+: hostIn (authority ++ last) := by
  obtain ⟨hcolon, hopen⟩ := takeWhile_of_hostOfAuthority hhost hbracket
  have hkept : (authority ++ last).rtakeWhile (· != '@') =
      authority.rtakeWhile (· != '@') ++ last := by
    refine rtakeWhile_append_of_all (fun c hc => bne_iff_ne.mpr ?_) authority
    rintro rfl
    exact hlast hc
  unfold hostIn
  rw [hkept]
  generalize authority.rtakeWhile (· != '@') = hostPort at hcolon hopen
  have hhead : (hostPort ++ last).head? ≠ some '[' := by
    cases hostPort with
    | nil => exact absurd hcolon.symm hne
    | cons c hostPort => exact hopen
  dsimp only
  rw [if_neg hhead, List.takeWhile_append]
  split_ifs with hall
  · have hwhole := (List.takeWhile_prefix (· != ':')).eq_of_length hall
    rw [← hwhole, hcolon]
    exact List.prefix_append _ _
  · rw [hcolon]

theorem text_ne_nil (address : Ipv4) : address.text ≠ [] :=
  List.append_ne_nil_of_right_ne_nil _ (List.cons_ne_nil _ _)

theorem head?_text_ne (address : Ipv4) : address.text.head? ≠ some '[' := by
  rw [Ipv4.text, List.head?_append_of_ne_nil _ (decimal_ne_nil _)]
  exact head?_decimal_ne (by decide) _

/-- The host that is found passes only as the one behind an at sign beyond the
authority. -/
theorem passable_hostIn_iff {address : Ipv4} (hprivate : IsPrivate address)
    (hhost : hostOfAuthority (rest.takeWhile isAuthorityChar) = address.text) :
    Passable (hostIn (rest.takeWhile (· != '/'))) ↔
      '@' ∈ beyond rest ∧ Passable (hostIn (beyond rest)) := by
  rw [takeWhile_eq_append_beyond]
  by_cases hat : '@' ∈ beyond rest
  · rw [hostIn_append_of_mem hat]
    exact (and_iff_right hat).symm
  · obtain ⟨tail, htail⟩ := hostIn_append_of_notMem hat (text_ne_nil address)
      (head?_text_ne address) hhost
    refine iff_of_false (fun hpasses => ?_) fun hboth => hat hboth.1
    have hpublic := hpasses.2.2
    rw [← htail, privateOctets_text_append hprivate] at hpublic
    cases hpublic

end Decoy

section Scheme

variable {relay rest : List Char}

theorem eq_append_of_dropPrefix? {first : List Char}
    (hrest : relay.dropPrefix? first = some rest) : relay = first ++ rest := by
  obtain ⟨found, hrelay, hfound⟩ := List.dropPrefix?_eq_some_iff.mp hrest
  rw [hrelay, eq_of_beq hfound]

/-- The scheme that is stripped is one of the schemes, in lower case. -/
theorem schemeRest_of_stripScheme (hrest : stripScheme relay = some rest) :
    schemeRest wsSchemes relay = some rest := by
  rcases Option.or_eq_some_iff.mp hrest with hwss | ⟨-, hws⟩
  · rw [eq_append_of_dropPrefix? hwss]
    exact @schemeRest_append wsSchemes "wss".toList (by decide) (by decide) rest
  · rw [eq_append_of_dropPrefix? hws]
    exact @schemeRest_append wsSchemes "ws".toList (by decide) (by decide) rest

end Scheme

/-- A URL of a private address is kept out unless, in lower case, it goes on with a query
or a fragment that names, behind an at sign and before its first slash, a host that
passes. -/
theorem keptOut_iff {url : String} (hprivate : NamesPrivate url) :
    KeptOut url ↔ ¬ Decoyed url := by
  obtain ⟨address, hhost, hprivate⟩ := hprivate
  rw [keptOut_iff_not_passable, not_iff_not]
  unfold Decoyed relayHost
  cases hrest : stripScheme (trimChars url.toList) with
  | none =>
      refine iff_of_false ?_ ?_
      · rintro ⟨host, hnone, -⟩
        cases hnone
      · rintro ⟨rest, hnone, -⟩
        cases hnone
  | some rest =>
      rw [urlHost, schemeRest_of_stripScheme hrest, Option.map_some] at hhost
      simp only [Option.map_some, Option.some.injEq, exists_eq_left']
      exact passable_hostIn_iff hprivate (Option.some.inj hhost)

theorem namesPrivate_port : NamesPrivate "wss://10.0.10.21:4848/" :=
  ⟨⟨10, 0, 10, 21⟩, by decide +kernel, by decide⟩

theorem keptOut_iff_port :
    KeptOut "wss://10.0.10.21:4848/" ↔ ¬ Decoyed "wss://10.0.10.21:4848/" :=
  keptOut_iff namesPrivate_port

theorem isValidRelayUrl_query :
    NamesPrivate "ws://10.0.0.1?@relay.example/" ∧
      isValidRelayUrl "ws://10.0.0.1?@relay.example/" = true :=
  ⟨⟨⟨10, 0, 0, 1⟩, by decide +kernel, by decide⟩, by decide +kernel⟩

theorem not_keptOut_query : ¬ ∀ url, NamesPrivate url → KeptOut url := by
  intro hall
  have hvalid := isValidRelayUrl_query.2
  rw [(hall _ isValidRelayUrl_query.1).1] at hvalid
  cases hvalid

end P2p

end Gnostr
