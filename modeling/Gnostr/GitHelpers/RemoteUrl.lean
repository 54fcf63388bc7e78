/-
URLs of remotes on nostr relays: `parse_nostr_url_inner` of
`git-helpers/src/nostr_backend.rs`, `normalize_relay_url` and `npub_to_hex` of
`nostr_relay.rs`.
-/
import Gnostr.Lib.Bech32
import Gnostr.Lib.Hex
import Gnostr.Lib.Lines

namespace Gnostr

namespace GitHelpers

/-- Ordered list of well-known public relays. -/
def defaultRelayFallbacks : List String :=
  ["wss://relay.damus.io", "wss://relay.nostr.band", "wss://nos.lol",
    "wss://relay.primal.net", "wss://nostr.wine", "wss://relay.snort.social"]

/-- Normalise a relay host or URL to a full `wss://` (or `ws://`) URL. -/
def normalizeRelayUrl (raw : String) : String :=
  if "wss://".toList.isPrefixOf raw.toList || "ws://".toList.isPrefixOf raw.toList then raw
  else
    match raw.toList.dropPrefix? "https://".toList with
    | some host => "wss://" ++ String.ofList host
    | none =>
        match raw.toList.dropPrefix? "http://".toList with
        | some host => "ws://" ++ String.ofList host
        | none => "wss://" ++ raw

def isAsciiHexdigit (c : Char) : Bool :=
  ('0' ≤ c && c ≤ '9') || ('a' ≤ c && c ≤ 'f') || ('A' ≤ c && c ≤ 'F')

/-- The public key as hexadecimal digits, from an `npub1` text or from the digits. -/
def npubToHex (bech32 : Bech32) (hex : Hex) (npub : String) : Except String String :=
  if "npub1".toList.isPrefixOf npub.toList then
    match bech32.decode npub with
    | none => .error "bech32 decode npub"
    | some (_, bytes) =>
        if bytes.length ≠ 32 then
          .error ("npub decoded to " ++ toString bytes.length ++ " bytes, expected 32")
        else .ok (hex.encode bytes)
  else if (utf8 npub).length = 64 ∧ npub.toList.all isAsciiHexdigit then
    .ok (String.ofList (npub.toList.map Char.toLower))
  else .error ("expected npub1… bech32 or 64-char hex pubkey, got: " ++ npub)

/-- `.git` is dropped from the reversed text as often as it begins it. -/
def dropTig : List Char → List Char
  | 't' :: 'i' :: 'g' :: '.' :: rest => dropTig rest
  | chars => chars

/-- `trim_end_matches(".git")`. -/
def trimEndGit (text : List Char) : List Char := (dropTig text.reverse).reverse

/-- The middle segment looks like a relay. -/
def looksLikeRelay (mid : List Char) : Bool :=
  "wss://".toList.isPrefixOf mid || "ws://".toList.isPrefixOf mid ||
    "https://".toList.isPrefixOf mid || "http://".toList.isPrefixOf mid || mid.contains '.'

/-- The relay in the scheme, if there is one, and what follows it. -/
def splitScheme (url : List Char) : Except String (Option String × List Char) :=
  match url.dropPrefix? "nostr+wss://".toList with
  | some r =>
      match splitOnce '/' r with
      | some (host, rest) =>
          .ok (some (normalizeRelayUrl ("wss://" ++ String.ofList host)), rest)
      | none => .error "missing / after relay host"
  | none =>
      match url.dropPrefix? "nostr+ws://".toList with
      | some r =>
          match splitOnce '/' r with
          | some (host, rest) =>
              .ok (some (normalizeRelayUrl ("ws://" ++ String.ofList host)), rest)
          | none => .error "missing / after relay host"
      | none =>
          match url.dropPrefix? "nostr://".toList with
          | some r => .ok (none, r)
          | none => .error ("not a nostr:// URL: " ++ String.ofList url)

/-- The relay, the key and the repository; what they stand in is cut into at most three
segments. -/
def splitSegments (envRelay : Option String) (schemeRelay : Option String)
    (rest : List Char) : Except String (String × List Char × List Char) :=
  match schemeRelay, splitn '/' 3 rest with
  | some relay, [npub, repo] => .ok (relay, npub, repo)
  | some relay, [npub, _, repo] => .ok (relay, npub, repo)
  | none, [npub, mid, repo] =>
      if looksLikeRelay mid then .ok (normalizeRelayUrl (String.ofList mid), npub, repo)
      else
        .error ("ambiguous nostr URL segment '" ++ String.ofList mid ++
          "' — use nostr+wss://<relay>/<npub>/<repo> for explicit relay")
  | none, [npub, repo] =>
      .ok (normalizeRelayUrl (envRelay.getD (defaultRelayFallbacks.headD "")), npub, repo)
  | _, _ =>
      .error ("nostr URL must contain <npub>/<repo> or <npub>/<relay>/<repo>, got: " ++
        String.ofList rest)

/-- Parse a `nostr://` URL into the relay, the public key and the repository. -/
def parseNostrUrlInner (bech32 : Bech32) (hex : Hex) (url : String)
    (envRelay : Option String) : Except String (String × String × String) := do
  let (schemeRelay, rest) ← splitScheme url.toList
  let (relay, npub, repo) ← splitSegments envRelay schemeRelay rest
  match npubToHex bech32 hex (String.ofList npub) with
  | .error e => .error ("invalid pubkey in URL: " ++ String.ofList npub ++ ": " ++ e)
  | .ok pubkeyHex => return (relay, pubkeyHex, String.ofList (trimEndGit repo))

section Parts

theorem dropTig_of_not_isPrefix {chars : List Char}
    (hchars : ¬ ['t', 'i', 'g', '.'] <+: chars) : dropTig chars = chars := by
  unfold dropTig
  split
  · exact absurd ⟨_, rfl⟩ hchars
  · rfl

theorem trimEndGit_of_not_isSuffix {text : List Char} (htext : ¬ ".git".toList <:+ text) :
    trimEndGit text = text := by
  have hreverse : ¬ ['t', 'i', 'g', '.'] <+: text.reverse := fun hbegin =>
    htext (List.reverse_prefix.mp hbegin)
  rw [trimEndGit, dropTig_of_not_isPrefix hreverse, List.reverse_reverse]

/-- A suffix more makes no difference. -/
theorem trimEndGit_append_git (text : List Char) :
    trimEndGit (text ++ ".git".toList) = trimEndGit text := by
  rw [trimEndGit, List.reverse_append]
  rfl

theorem slash_append (rest : List Char) : "/".toList ++ rest = '/' :: rest := rfl

theorem not_isPrefix_of_slash {leader text : List Char} (hleader : '/' ∈ leader)
    (htext : '/' ∉ text) : ¬ leader <+: text :=
  fun hbegin => htext (hbegin.subset hleader)

/-- A bare host is taken to speak `wss`. -/
theorem normalizeRelayUrl_of_host {host : String} (hhost : '/' ∉ host.toList) :
    normalizeRelayUrl host = "wss://" ++ host := by
  have hnone : ∀ leader : List Char, '/' ∈ leader →
      host.toList.dropPrefix? leader = none := by
    intro leader hleader
    rw [Option.eq_none_iff_forall_not_mem]
    intro rest hrest
    obtain ⟨before, heq, hbefore⟩ := List.dropPrefix?_eq_some_iff.mp hrest
    rw [beq_iff_eq.mp hbefore] at heq
    exact not_isPrefix_of_slash hleader hhost ⟨rest, heq.symm⟩
  have hbegins : ∀ leader : List Char, '/' ∈ leader →
      leader.isPrefixOf host.toList = false := by
    intro leader hleader
    rw [isPrefixOf_eq_isSome_dropPrefix?, hnone leader hleader, Option.isSome_none]
  rw [normalizeRelayUrl, hbegins _ (by decide), hbegins _ (by decide), hnone _ (by decide),
    hnone _ (by decide)]
  rfl

theorem normalizeRelayUrl_wss (rest : String) :
    normalizeRelayUrl ("wss://" ++ rest) = "wss://" ++ rest := by
  have hbegins : "wss://".toList.isPrefixOf ("wss://" ++ rest).toList = true := by
    rw [List.isPrefixOf_iff_prefix, String.toList_append]
    exact List.prefix_append _ _
  rw [normalizeRelayUrl, hbegins]
  rfl

theorem normalizeRelayUrl_ws (rest : String) :
    normalizeRelayUrl ("ws://" ++ rest) = "ws://" ++ rest := by
  have hbegins : "ws://".toList.isPrefixOf ("ws://" ++ rest).toList = true := by
    rw [List.isPrefixOf_iff_prefix, String.toList_append]
    exact List.prefix_append _ _
  rw [normalizeRelayUrl, hbegins, Bool.or_true]
  rfl

/-- A segment without a scheme looks like a relay when it has a dot in it. -/
theorem looksLikeRelay_iff {mid : List Char} (hmid : '/' ∉ mid) :
    looksLikeRelay mid = true ↔ '.' ∈ mid := by
  have hbegins : ∀ leader : List Char, '/' ∈ leader → leader.isPrefixOf mid = false := by
    intro leader hleader
    rw [Bool.eq_false_iff, ne_eq, List.isPrefixOf_iff_prefix]
    exact not_isPrefix_of_slash hleader hmid
  rw [looksLikeRelay, hbegins _ (by decide), hbegins _ (by decide), hbegins _ (by decide),
    hbegins _ (by decide), Bool.false_or, Bool.false_or, Bool.false_or, Bool.false_or,
    List.contains_iff_mem]

theorem splitScheme_nostr (rest : List Char) :
    splitScheme ("nostr://".toList ++ rest) = .ok (none, rest) := by
  have hwss : ("nostr://".toList ++ rest).dropPrefix? "nostr+wss://".toList = none := rfl
  have hws : ("nostr://".toList ++ rest).dropPrefix? "nostr+ws://".toList = none := rfl
  rw [splitScheme, hwss, hws, List.dropPrefix?_append_of_beq _ (beq_self_eq_true _)]

theorem splitScheme_wss {host : List Char} (hhost : '/' ∉ host) (rest : List Char) :
    splitScheme ("nostr+wss://".toList ++ (host ++ '/' :: rest)) =
      .ok (some ("wss://" ++ String.ofList host), rest) := by
  rw [splitScheme, List.dropPrefix?_append_of_beq _ (beq_self_eq_true _)]
  dsimp only
  rw [splitOnce_append hhost]
  dsimp only
  rw [normalizeRelayUrl_wss]

theorem splitScheme_ws {host : List Char} (hhost : '/' ∉ host) (rest : List Char) :
    splitScheme ("nostr+ws://".toList ++ (host ++ '/' :: rest)) =
      .ok (some ("ws://" ++ String.ofList host), rest) := by
  have hwss : ("nostr+ws://".toList ++ (host ++ '/' :: rest)).dropPrefix?
      "nostr+wss://".toList = none := rfl
  rw [splitScheme, hwss, List.dropPrefix?_append_of_beq _ (beq_self_eq_true _)]
  dsimp only
  rw [splitOnce_append hhost]
  dsimp only
  rw [normalizeRelayUrl_ws]

theorem splitn_two {npub repo : List Char} (hnpub : '/' ∉ npub) (hrepo : '/' ∉ repo) :
    splitn '/' 3 (npub ++ '/' :: repo) = [npub, repo] := by
  rw [splitn_append hnpub, splitn_of_notMem hrepo]

theorem splitn_three {npub mid : List Char} (hnpub : '/' ∉ npub) (hmid : '/' ∉ mid)
    (repo : List Char) :
    splitn '/' 3 (npub ++ '/' :: (mid ++ '/' :: repo)) = [npub, mid, repo] := by
  rw [splitn_append hnpub, splitn_append hmid]
  rfl

theorem splitSegments_none_two {rest npub repo : List Char}
    (hrest : splitn '/' 3 rest = [npub, repo]) (envRelay : Option String) :
    splitSegments envRelay none rest =
      .ok (normalizeRelayUrl (envRelay.getD (defaultRelayFallbacks.headD "")),
        npub, repo) := by
  unfold splitSegments
  rw [hrest]

theorem splitSegments_none_three {rest npub mid repo : List Char}
    (hrest : splitn '/' 3 rest = [npub, mid, repo]) (envRelay : Option String) :
    splitSegments envRelay none rest =
      if looksLikeRelay mid then .ok (normalizeRelayUrl (String.ofList mid), npub, repo)
      else
        .error ("ambiguous nostr URL segment '" ++ String.ofList mid ++
          "' — use nostr+wss://<relay>/<npub>/<repo> for explicit relay") := by
  unfold splitSegments
  rw [hrest]

theorem splitSegments_some {rest npub repo : List Char}
    (hrest : splitn '/' 3 rest = [npub, repo]) (envRelay : Option String) (relay : String) :
    splitSegments envRelay (some relay) rest = .ok (relay, npub, repo) := by
  unfold splitSegments
  rw [hrest]

end Parts

section Keys

variable {bech32 : AlnumBech32} {hex : Hex} {key keyHex : String}

/-- A key as it stands in a URL, and its hexadecimal digits. -/
inductive IsKey (bech32 : AlnumBech32) (hex : Hex) : String → String → Prop
  | npub {text : String} {bytes : Bytes} :
      bytes.length = 32 → bech32.encode "npub" bytes = some text →
      IsKey bech32 hex text (hex.encode bytes)
  | digits {text : String} :
      text.toList.length = 64 → (∀ c ∈ text.toList, isAsciiHexdigit c = true) →
      IsKey bech32 hex text (String.ofList (text.toList.map Char.toLower))

theorem toNat_of_isAsciiHexdigit {c : Char} (hc : isAsciiHexdigit c = true) :
    0x2F < c.toNat ∧ c.toNat < 0x67 := by
  simp only [isAsciiHexdigit, Bool.or_eq_true, Bool.and_eq_true, decide_eq_true_eq,
    Char.le_def, UInt32.le_iff_toNat_le] at hc
  have hnat : c.toNat = c.val.toNat := rfl
  simp at hc
  omega

theorem length_utf8EncodeChar_of_isAsciiHexdigit {c : Char} (hc : isAsciiHexdigit c = true) :
    (String.utf8EncodeChar c).length = 1 := by
  have hlt := (toNat_of_isAsciiHexdigit hc).2
  rw [String.length_utf8EncodeChar, Char.utf8Size_eq_one_iff, UInt32.le_iff_toNat_le]
  exact Nat.le_of_lt (hlt.trans (by decide))

/-- Digits take a byte each. -/
theorem length_flatMap_of_isAsciiHexdigit {chars : List Char}
    (hchars : ∀ c ∈ chars, isAsciiHexdigit c = true) :
    (chars.flatMap String.utf8EncodeChar).length = chars.length := by
  induction chars with
  | nil => rfl
  | cons c chars ih =>
      rw [List.flatMap_cons, List.length_append,
        length_utf8EncodeChar_of_isAsciiHexdigit (hchars c List.mem_cons_self),
        ih fun d hd => hchars d (List.mem_cons_of_mem _ hd), List.length_cons,
        Nat.add_comm]

theorem IsKey.slash_notMem (hkey : IsKey bech32 hex key keyHex) : '/' ∉ key.toList := by
  intro hmem
  cases hkey with
  | npub _ hencode =>
      exact absurd (bech32.isAlphanum_of_encode (by decide) hencode '/' hmem) (by decide)
  | digits _ hdigits =>
      exact absurd (toNat_of_isAsciiHexdigit (hdigits '/' hmem)).1 (by decide)

theorem IsKey.npubToHex_eq (hkey : IsKey bech32 hex key keyHex) :
    npubToHex bech32.toBech32 hex key = .ok keyHex := by
  cases hkey with
  | npub hlength hencode =>
      have hbegins : "npub1".toList.isPrefixOf key.toList = true :=
        List.isPrefixOf_iff_prefix.mpr (bech32.prefix_of_encode (by decide) hencode)
      rw [npubToHex, if_pos hbegins, bech32.decode_of_encode (by decide) hencode]
      dsimp only
      rw [if_neg (not_not_intro hlength)]
  | digits hlength hdigits =>
      have hbegins : ¬ "npub1".toList.isPrefixOf key.toList = true := by
        rw [List.isPrefixOf_iff_prefix]
        intro hbegin
        exact absurd (hdigits 'n' (hbegin.subset (by decide))) (by decide)
      have hbytes : (utf8 key).length = 64 := by
        rw [utf8_eq_flatMap, length_flatMap_of_isAsciiHexdigit hdigits, hlength]
      rw [npubToHex, if_neg hbegins, if_pos ⟨hbytes, List.all_eq_true.mpr hdigits⟩]

end Keys

/-- The documented ways to write the URL of a repository. -/
inductive UrlForm
  | plain
  | host (relayHost : String)
  | hostWithScheme (relayHost : String)
  | schemeWss (relayHost : String)
  | schemeWs (relayHost : String)

namespace UrlForm

def relayHost : UrlForm → Option String
  | plain => none
  | host relayHost | hostWithScheme relayHost | schemeWss relayHost
  | schemeWs relayHost => some relayHost

def url (key repo : String) : UrlForm → String
  | plain => "nostr://" ++ key ++ "/" ++ repo
  | host relayHost => "nostr://" ++ key ++ "/" ++ relayHost ++ "/" ++ repo
  | hostWithScheme relayHost => "nostr://" ++ key ++ "/wss://" ++ relayHost ++ "/" ++ repo
  | schemeWss relayHost => "nostr+wss://" ++ relayHost ++ "/" ++ key ++ "/" ++ repo
  | schemeWs relayHost => "nostr+ws://" ++ relayHost ++ "/" ++ key ++ "/" ++ repo

theorem url_plain (key repo : String) :
    plain.url key repo = "nostr://" ++ key ++ "/" ++ repo := rfl

theorem url_host (relayHost key repo : String) :
    (host relayHost).url key repo = "nostr://" ++ key ++ "/" ++ relayHost ++ "/" ++ repo :=
  rfl

theorem url_hostWithScheme (relayHost key repo : String) :
    (hostWithScheme relayHost).url key repo =
      "nostr://" ++ key ++ "/wss://" ++ relayHost ++ "/" ++ repo := rfl

theorem url_schemeWss (relayHost key repo : String) :
    (schemeWss relayHost).url key repo =
      "nostr+wss://" ++ relayHost ++ "/" ++ key ++ "/" ++ repo := rfl

theorem url_schemeWs (relayHost key repo : String) :
    (schemeWs relayHost).url key repo =
      "nostr+ws://" ++ relayHost ++ "/" ++ key ++ "/" ++ repo := rfl

/-- The relay a URL names, or the environment, or the first default. -/
def relay (envRelay : Option String) : UrlForm → String
  | plain => normalizeRelayUrl (envRelay.getD (defaultRelayFallbacks.headD ""))
  | host relayHost | hostWithScheme relayHost | schemeWss relayHost =>
      "wss://" ++ relayHost
  | schemeWs relayHost => "ws://" ++ relayHost

/-- Nothing in the path has to be told apart, or the relay has a dot in it. -/
def Recognised : UrlForm → Prop
  | host relayHost => '.' ∈ relayHost.toList
  | hostWithScheme _ => False
  | _ => True

end UrlForm

section Forms

variable {bech32 : AlnumBech32} {hex : Hex} {key keyHex repo : String}

/-- What a path and a scheme that are cut as they were put together come to. -/
theorem parseNostrUrlInner_of_split {url relay : String} {schemeRelay : Option String}
    {rest : List Char} {envRelay : Option String}
    (hscheme : splitScheme url.toList = .ok (schemeRelay, rest))
    (hsegments : splitSegments envRelay schemeRelay rest =
      .ok (relay, key.toList, repo.toList))
    (hkey : IsKey bech32 hex key keyHex) :
    parseNostrUrlInner bech32.toBech32 hex url envRelay =
      .ok (relay, keyHex, String.ofList (trimEndGit repo.toList)) := by
  rw [parseNostrUrlInner, hscheme]
  change (splitSegments envRelay schemeRelay rest).bind _ = _
  rw [hsegments]
  change (match npubToHex bech32.toBech32 hex (String.ofList key.toList) with
    | .error e => _
    | .ok pubkeyHex => _) = _
  rw [String.ofList_toList, hkey.npubToHex_eq]
  rfl

/-- Every form but the one with a scheme inside the path is taken apart again. -/
theorem parseNostrUrlInner_url {form : UrlForm} (hform : form.Recognised)
    (hhost : ∀ relayHost ∈ form.relayHost, '/' ∉ relayHost.toList)
    (hkey : IsKey bech32 hex key keyHex) (hrepo : '/' ∉ repo.toList)
    (envRelay : Option String) :
    parseNostrUrlInner bech32.toBech32 hex (form.url key repo) envRelay =
      .ok (form.relay envRelay, keyHex, String.ofList (trimEndGit repo.toList)) := by
  cases form with
  | plain =>
      have hscheme : splitScheme (UrlForm.plain.url key repo).toList =
          .ok (none, key.toList ++ '/' :: repo.toList) := by
        simp only [UrlForm.url_plain, String.toList_append, List.append_assoc, slash_append,
          splitScheme_nostr]
      exact parseNostrUrlInner_of_split hscheme
        (splitSegments_none_two (splitn_two hkey.slash_notMem hrepo) envRelay) hkey
  | host relayHost =>
      have hslash := hhost relayHost rfl
      have hscheme : splitScheme ((UrlForm.host relayHost).url key repo).toList =
          .ok (none, key.toList ++ '/' :: (relayHost.toList ++ '/' :: repo.toList)) := by
        simp only [UrlForm.url_host, String.toList_append, List.append_assoc, slash_append,
          List.cons_append, splitScheme_nostr]
      have hsegments := splitSegments_none_three
        (splitn_three hkey.slash_notMem hslash repo.toList) envRelay
      rw [if_pos ((looksLikeRelay_iff hslash).mpr hform), String.ofList_toList,
        normalizeRelayUrl_of_host hslash] at hsegments
      exact parseNostrUrlInner_of_split hscheme hsegments hkey
  | hostWithScheme relayHost => exact hform.elim
  | schemeWss relayHost =>
      have hscheme : splitScheme ((UrlForm.schemeWss relayHost).url key repo).toList =
          .ok (some ("wss://" ++ relayHost), key.toList ++ '/' :: repo.toList) := by
        have hsplit := splitScheme_wss (hhost relayHost rfl)
          (key.toList ++ '/' :: repo.toList)
        rw [String.ofList_toList] at hsplit
        simp only [UrlForm.url_schemeWss, String.toList_append, List.append_assoc,
          slash_append, List.cons_append, hsplit]
      exact parseNostrUrlInner_of_split hscheme
        (splitSegments_some (splitn_two hkey.slash_notMem hrepo) envRelay _) hkey
  | schemeWs relayHost =>
      have hscheme : splitScheme ((UrlForm.schemeWs relayHost).url key repo).toList =
          .ok (some ("ws://" ++ relayHost), key.toList ++ '/' :: repo.toList) := by
        have hsplit := splitScheme_ws (hhost relayHost rfl)
          (key.toList ++ '/' :: repo.toList)
        rw [String.ofList_toList] at hsplit
        simp only [UrlForm.url_schemeWs, String.toList_append, List.append_assoc,
          slash_append, List.cons_append, hsplit]
      exact parseNostrUrlInner_of_split hscheme
        (splitSegments_some (splitn_two hkey.slash_notMem hrepo) envRelay _) hkey

/-- A host without a dot is not told from a part of a path, and is refused. -/
theorem parseNostrUrlInner_of_dotless {relayHost : String} (hhost : '/' ∉ relayHost.toList)
    (hdot : '.' ∉ relayHost.toList) (hkey : '/' ∉ key.toList) (envRelay : Option String) :
    parseNostrUrlInner bech32.toBech32 hex ((UrlForm.host relayHost).url key repo) envRelay =
      .error ("ambiguous nostr URL segment '" ++ relayHost ++
        "' — use nostr+wss://<relay>/<npub>/<repo> for explicit relay") := by
  have hscheme : splitScheme ((UrlForm.host relayHost).url key repo).toList =
      .ok (none, key.toList ++ '/' :: (relayHost.toList ++ '/' :: repo.toList)) := by
    simp only [UrlForm.url_host, String.toList_append, List.append_assoc, slash_append,
      List.cons_append, splitScheme_nostr]
  have hsegments := splitSegments_none_three (splitn_three hkey hhost repo.toList) envRelay
  rw [if_neg fun hlooks => hdot ((looksLikeRelay_iff hhost).mp hlooks),
    String.ofList_toList] at hsegments
  rw [parseNostrUrlInner, hscheme]
  change (splitSegments envRelay none _).bind _ = _
  rw [hsegments]
  rfl

/-- The separators of a scheme inside the path are counted as the path's own: what
stands before them is no relay. -/
theorem parseNostrUrlInner_hostWithScheme {relayHost : String} (hkey : '/' ∉ key.toList)
    (envRelay : Option String) :
    parseNostrUrlInner bech32.toBech32 hex
        ((UrlForm.hostWithScheme relayHost).url key repo) envRelay =
      .error ("ambiguous nostr URL segment '" ++ "wss:" ++
        "' — use nostr+wss://<relay>/<npub>/<repo> for explicit relay") := by
  have hscheme : splitScheme ((UrlForm.hostWithScheme relayHost).url key repo).toList =
      .ok (none, key.toList ++ '/' ::
        ("wss:".toList ++ '/' :: ('/' :: (relayHost.toList ++ '/' :: repo.toList)))) := by
    have hslashes (rest : List Char) :
        "/wss://".toList ++ rest = '/' :: ("wss:".toList ++ '/' :: '/' :: rest) := rfl
    simp only [UrlForm.url_hostWithScheme, String.toList_append, List.append_assoc,
      slash_append, hslashes, List.cons_append, splitScheme_nostr]
  have hwss : '/' ∉ "wss:".toList := by decide
  have hsegments := splitSegments_none_three (splitn_three hkey hwss
    ('/' :: (relayHost.toList ++ '/' :: repo.toList))) envRelay
  rw [parseNostrUrlInner, hscheme]
  change (splitSegments envRelay none _).bind _ = _
  rw [hsegments]
  rfl

/-- A URL names its relay, its key and its repository, with or without the suffix; a
relay without a dot in the path is refused. -/
theorem parse_recognised_forms {form : UrlForm}
    (hhost : ∀ relayHost ∈ form.relayHost, '/' ∉ relayHost.toList)
    (hkey : IsKey bech32 hex key keyHex) (hrepo : '/' ∉ repo.toList)
    (hgit : ¬ ".git".toList <:+ repo.toList) (envRelay : Option String) :
    (form.Recognised → ∀ suffix ∈ ["", ".git"],
      parseNostrUrlInner bech32.toBech32 hex (form.url key (repo ++ suffix)) envRelay =
        .ok (form.relay envRelay, keyHex, repo)) ∧
    ∀ relayHost, form = .host relayHost → '.' ∉ relayHost.toList →
      parseNostrUrlInner bech32.toBech32 hex (form.url key repo) envRelay =
        .error ("ambiguous nostr URL segment '" ++ relayHost ++
          "' — use nostr+wss://<relay>/<npub>/<repo> for explicit relay") := by
  refine ⟨fun hform suffix hsuffix => ?_, fun relayHost heq hdot => ?_⟩
  · have hslash : '/' ∉ (repo ++ suffix).toList := by
      rw [String.toList_append, List.mem_append, not_or]
      rcases List.mem_pair.mp hsuffix with rfl | rfl
      · exact ⟨hrepo, by decide⟩
      · exact ⟨hrepo, by decide⟩
    have htrim : trimEndGit (repo ++ suffix).toList = repo.toList := by
      rw [String.toList_append]
      rcases List.mem_pair.mp hsuffix with rfl | rfl
      · rw [String.toList_empty, List.append_nil, trimEndGit_of_not_isSuffix hgit]
      · rw [trimEndGit_append_git, trimEndGit_of_not_isSuffix hgit]
    rw [parseNostrUrlInner_url hform hhost hkey hslash envRelay, htrim, String.ofList_toList]
  · rw [heq] at hhost ⊢
    exact parseNostrUrlInner_of_dotless (hhost relayHost rfl) hdot hkey.slash_notMem envRelay

end Forms

section Samples

def sampleKey : String := String.ofList (List.replicate 64 'E')

def sampleKeyHex : String := String.ofList (List.replicate 64 'e')

theorem toList_sampleKey : sampleKey.toList = List.replicate 64 'E' := String.toList_ofList

theorem isKey_sampleKey :
    IsKey Bech32.referenceAlnum Hex.reference sampleKey sampleKeyHex := by
  have hdigits : ∀ c ∈ sampleKey.toList, isAsciiHexdigit c = true := by
    rw [toList_sampleKey]
    exact fun c hc => List.eq_of_mem_replicate hc ▸ (by decide : isAsciiHexdigit 'E' = true)
  have hlower : String.ofList (sampleKey.toList.map Char.toLower) = sampleKeyHex := by
    rw [toList_sampleKey, List.map_replicate, (by decide : Char.toLower 'E' = 'e')]
    rfl
  have hlength : sampleKey.toList.length = 64 := by
    rw [toList_sampleKey, List.length_replicate]
  exact hlower ▸ IsKey.digits hlength hdigits

theorem parse_recognised_forms_damus :
    parseNostrUrlInner Bech32.reference Hex.reference
        ((UrlForm.host "relay.damus.io").url sampleKey ("gnostr" ++ ".git")) none =
      .ok ("wss://relay.damus.io", sampleKeyHex, "gnostr") :=
  have hhost : ∀ relayHost ∈ (UrlForm.host "relay.damus.io").relayHost,
      '/' ∉ relayHost.toList := by
    rintro relayHost ⟨⟩
    decide
  have hdot : '.' ∈ "relay.damus.io".toList := by decide
  (parse_recognised_forms hhost isKey_sampleKey (by decide) (by decide) none).1 hdot ".git"
    (by decide)

/-- A relay of the local network is a host without a dot. -/
theorem not_parse_localhost :
    IsKey Bech32.referenceAlnum Hex.reference sampleKey sampleKeyHex ∧
      '/' ∉ "localhost:7777".toList ∧
      parseNostrUrlInner Bech32.reference Hex.reference
          ((UrlForm.host "localhost:7777").url sampleKey "gnostr") none ≠
        .ok ((UrlForm.host "localhost:7777").relay none, sampleKeyHex, "gnostr") := by
  have hhost : '/' ∉ "localhost:7777".toList := by decide
  have hdot : '.' ∉ "localhost:7777".toList := by decide
  refine ⟨isKey_sampleKey, hhost, fun hok => ?_⟩
  have herror : parseNostrUrlInner Bech32.reference Hex.reference
      ((UrlForm.host "localhost:7777").url sampleKey "gnostr") none = .error _ :=
    @parseNostrUrlInner_of_dotless Bech32.referenceAlnum _ _ _ _ hhost hdot
      isKey_sampleKey.slash_notMem none
  cases herror.symm.trans hok

end Samples

end GitHelpers

end Gnostr
