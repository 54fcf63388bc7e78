/-
The relays at which a repository is looked up: `normalize_relay_url`, `build_relay_list` and
`resolve_grasp_url_with_fallbacks` of `git-helpers/src/nostr_relay.rs` and
`build_relay_list_with_env` of `nostr_backend.rs`.  A relay that is given comes first even
where it has no host: normalisation puts a scheme before it, and then it is not empty.
-/
import Gnostr.GitHelpers.RemoteUrl
import Gnostr.Lib.Firsts
import Gnostr.P2p.RelayHost

namespace Gnostr

namespace GitHelpers

open Gnostr.P2p (wsSchemes)

section Source

/-- The ordered list for a query: the primary relay first, then the fallbacks. -/
def buildRelayList (primary : Option String) : List String :=
  let relays : List String :=
    match primary with
    | some p =>
        let norm := normalizeRelayUrl p
        if norm.isEmpty then [] else [norm]
    | none => []
  defaultRelayFallbacks.foldl (fun relays r => pushNew relays (normalizeRelayUrl r)) relays

/-- The full ordered list of the relay of a URL, the one of the environment and the
defaults. -/
def buildRelayListWithEnv (urlRelay envRelay : Option String) : List String :=
  let relays : List String :=
    match urlRelay with
    | some r =>
        let norm := normalizeRelayUrl r
        if norm.isEmpty then [] else [norm]
    | none => []
  let relays :=
    match envRelay with
    | some r =>
        let norm := normalizeRelayUrl r
        if norm.isEmpty then relays else pushNew relays norm
    | none => relays
  (buildRelayList none).foldl pushNew relays

/-- An error and what was being done. -/
structure ContextError where
  context : String
  cause : String
deriving Repr, DecidableEq

/-- Each relay in order; the last error is kept. -/
def tryRelays (resolveGraspUrl : String → Except String String) (lastErr : String) :
    List String → Except String String
  | [] => .error lastErr
  | relay :: relays =>
      match resolveGraspUrl relay with
      | .ok url => .ok url
      | .error e => tryRelays resolveGraspUrl e relays

/-- The first relay that resolves the repository decides. -/
def resolveGraspUrlWithFallbacks (resolveGraspUrl : String → Except String String)
    (relays : List String) (repo : String) : Except ContextError String :=
  (tryRelays resolveGraspUrl "no relays to try" relays).mapError fun lastErr =>
    ⟨"no NIP-34 kind:30617 event found for repo '" ++ repo ++ "' on any relay (" ++
      toString relays.length ++ " tried)", lastErr⟩

end Source

section Specification

/-- What stands behind the scheme, if there is one that is understood. -/
def dropScheme (raw : List Char) : List Char :=
  ((((raw.dropPrefix? "wss://".toList).or (raw.dropPrefix? "ws://".toList)).or
    (raw.dropPrefix? "https://".toList)).or (raw.dropPrefix? "http://".toList)).getD raw

/-- Up to the first slash, question mark or number sign there is a host. -/
def NamesHost (raw : String) : Prop :=
  hostOfAuthority ((dropScheme raw.toList).takeWhile isAuthorityChar) ≠ []

instance (raw : String) : Decidable (NamesHost raw) := inferInstanceAs (Decidable (_ ≠ _))

/-- A URL of a websocket, with a host. -/
def IsRelayUrl (url : String) : Prop :=
  ∃ host, urlHost wsSchemes url.toList = some host ∧ host ≠ []

/-- A given relay that names a host, normalised. -/
def namedRelay (relay : Option String) : List String :=
  ((relay.filter fun raw => decide (NamesHost raw)).map normalizeRelayUrl).toList

/-- The relay of the URL, that of the environment and the defaults, each where none before
it is the same. -/
def relaysInOrder (urlRelay envRelay : Option String) : List String :=
  let url := namedRelay urlRelay
  let given := url ++ (namedRelay envRelay).filter (· ∉ url)
  given ++ defaultRelayFallbacks.filter (· ∉ given)

/-- What is expected of the list. -/
structure IsRelayOrder (urlRelay envRelay : Option String) (relays : List String) :
    Prop where
  order : relays = relaysInOrder urlRelay envRelay
  nodup : relays.Nodup
  hosts : ∀ relay ∈ relays, IsRelayUrl relay

end Specification

section Normalised

theorem toList_append_ofList (scheme : String) (rest : List Char) :
    (scheme ++ String.ofList rest).toList = scheme.toList ++ rest := by
  rw [String.toList_append, String.toList_ofList]

/-- A websocket scheme stands before what stood behind the scheme that was given. -/
theorem normalizeRelayUrl_eq (raw : String) : ∃ scheme ∈ wsSchemes,
    (normalizeRelayUrl raw).toList = scheme ++ ("://".toList ++ dropScheme raw.toList) := by
  unfold normalizeRelayUrl dropScheme
  rw [isPrefixOf_eq_isSome_dropPrefix?, isPrefixOf_eq_isSome_dropPrefix?]
  cases hwss : raw.toList.dropPrefix? "wss://".toList with
  | some rest =>
      exact ⟨"wss".toList, by decide, (P2p.eq_append_of_dropPrefix? hwss).trans rfl⟩
  | none =>
  cases hws : raw.toList.dropPrefix? "ws://".toList with
  | some rest =>
      exact ⟨"ws".toList, by decide, (P2p.eq_append_of_dropPrefix? hws).trans rfl⟩
  | none =>
  cases raw.toList.dropPrefix? "https://".toList with
  | some rest => exact ⟨"wss".toList, by decide, toList_append_ofList "wss://" rest⟩
  | none =>
  cases raw.toList.dropPrefix? "http://".toList with
  | some rest => exact ⟨"ws".toList, by decide, toList_append_ofList "ws://" rest⟩
  | none => exact ⟨"wss".toList, by decide, String.toList_append⟩

/-- The check for an empty text never has one to find. -/
theorem isEmpty_normalizeRelayUrl (raw : String) :
    (normalizeRelayUrl raw).isEmpty = false := by
  obtain ⟨scheme, _, hnorm⟩ := normalizeRelayUrl_eq raw
  rw [← Bool.not_eq_true, String.isEmpty_iff]
  intro hempty
  rw [hempty] at hnorm
  exact List.append_ne_nil_of_right_ne_nil scheme (List.cons_ne_nil _ _) hnorm.symm

/-- A relay has a host once it is normalised exactly when it names one. -/
theorem isRelayUrl_normalizeRelayUrl_iff (raw : String) :
    IsRelayUrl (normalizeRelayUrl raw) ↔ NamesHost raw := by
  obtain ⟨scheme, hscheme, hnorm⟩ := normalizeRelayUrl_eq raw
  have hspelled : ∀ scheme ∈ wsSchemes,
      ':' ∉ scheme ∧ scheme.map Char.toLower ∈ wsSchemes := by decide
  obtain ⟨hcolon, hlower⟩ := hspelled scheme hscheme
  unfold IsRelayUrl urlHost NamesHost
  rw [hnorm, schemeRest_append hcolon hlower]
  constructor
  · rintro ⟨host, hsome, hhost⟩
    rwa [← Option.some.inj hsome] at hhost
  · exact fun hhost => ⟨_, rfl, hhost⟩

end Normalised

section Order

variable (urlRelay envRelay : Option String)

theorem nodup_defaultRelayFallbacks : defaultRelayFallbacks.Nodup := by decide

theorem buildRelayList_none : buildRelayList none = defaultRelayFallbacks := by decide

theorem isRelayUrl_of_mem_defaultRelayFallbacks :
    ∀ relay ∈ defaultRelayFallbacks, IsRelayUrl relay := by
  have hnormal : ∀ relay ∈ defaultRelayFallbacks,
      NamesHost relay ∧ normalizeRelayUrl relay = relay := by decide
  intro relay hrelay
  obtain ⟨hhost, hnorm⟩ := hnormal relay hrelay
  have hurl := (isRelayUrl_normalizeRelayUrl_iff relay).mpr hhost
  rwa [hnorm] at hurl

/-- The relays that are given, normalised, with or without a host. -/
def givenRelays : List String :=
  let url := (urlRelay.map normalizeRelayUrl).toList
  url ++ (envRelay.map normalizeRelayUrl).toList.filter (· ∉ url)

theorem buildRelayListWithEnv_eq :
    buildRelayListWithEnv urlRelay envRelay = givenRelays urlRelay envRelay ++
      defaultRelayFallbacks.filter (· ∉ givenRelays urlRelay envRelay) := by
  have hpush : ∀ (relays : List String) (r : String),
      pushNew relays r = relays ++ [r].filter (· ∉ relays) := fun relays r =>
    foldl_pushNew (List.nodup_singleton r) relays
  unfold buildRelayListWithEnv
  rw [buildRelayList_none, foldl_pushNew nodup_defaultRelayFallbacks]
  cases urlRelay <;> cases envRelay <;>
    simp [givenRelays, isEmpty_normalizeRelayUrl, hpush]

theorem nodup_buildRelayListWithEnv : (buildRelayListWithEnv urlRelay envRelay).Nodup := by
  refine nodup_foldl_pushNew ?_ _
  cases urlRelay <;> cases envRelay <;> simp [isEmpty_normalizeRelayUrl, nodup_pushNew]

variable {urlRelay envRelay}

theorem mem_buildRelayListWithEnv_iff {relay : String} :
    relay ∈ buildRelayListWithEnv urlRelay envRelay ↔
      relay ∈ urlRelay.map normalizeRelayUrl ∨ relay ∈ envRelay.map normalizeRelayUrl ∨
        relay ∈ defaultRelayFallbacks := by
  rw [buildRelayListWithEnv_eq]
  simp only [givenRelays, List.mem_append, List.mem_filter, Option.mem_toList,
    decide_eq_true_eq]
  tauto

theorem namedRelay_of_namesHost {relay : Option String}
    (hrelay : ∀ raw ∈ relay, NamesHost raw) :
    namedRelay relay = (relay.map normalizeRelayUrl).toList := by
  cases relay with
  | none => rfl
  | some raw =>
      rw [namedRelay, Option.filter_some, if_pos (decide_eq_true (hrelay raw rfl))]

theorem buildRelayListWithEnv_eq_relaysInOrder (hurl : ∀ raw ∈ urlRelay, NamesHost raw)
    (henv : ∀ raw ∈ envRelay, NamesHost raw) :
    buildRelayListWithEnv urlRelay envRelay = relaysInOrder urlRelay envRelay := by
  unfold relaysInOrder
  rw [namedRelay_of_namesHost hurl, namedRelay_of_namesHost henv, buildRelayListWithEnv_eq]
  rfl

/-- The list is the expected one exactly when the relays that are given name hosts. -/
theorem isRelayOrder_buildRelayListWithEnv_iff (urlRelay envRelay : Option String) :
    IsRelayOrder urlRelay envRelay (buildRelayListWithEnv urlRelay envRelay) ↔
      (∀ raw ∈ urlRelay, NamesHost raw) ∧ ∀ raw ∈ envRelay, NamesHost raw := by
  constructor
  · intro hbuilt
    have hnames : ∀ raw, normalizeRelayUrl raw ∈ buildRelayListWithEnv urlRelay envRelay →
        NamesHost raw := fun raw hmem =>
      (isRelayUrl_normalizeRelayUrl_iff raw).mp (hbuilt.hosts _ hmem)
    refine ⟨fun raw hraw => hnames raw ?_, fun raw hraw => hnames raw ?_⟩
    · exact mem_buildRelayListWithEnv_iff.mpr (.inl (Option.mem_map_of_mem _ hraw))
    · exact mem_buildRelayListWithEnv_iff.mpr
        (.inr (.inl (Option.mem_map_of_mem _ hraw)))
  · rintro ⟨hurl, henv⟩
    have hgiven : ∀ given : Option String, (∀ raw ∈ given, NamesHost raw) →
        ∀ relay ∈ given.map normalizeRelayUrl, IsRelayUrl relay := by
      intro given hnames relay hrelay
      obtain ⟨raw, hraw, rfl⟩ := Option.mem_map.mp hrelay
      exact (isRelayUrl_normalizeRelayUrl_iff raw).mpr (hnames raw hraw)
    refine ⟨buildRelayListWithEnv_eq_relaysInOrder hurl henv,
      nodup_buildRelayListWithEnv _ _, ?_⟩
    intro relay hrelay
    rcases mem_buildRelayListWithEnv_iff.mp hrelay with hrelay | hrelay | hrelay
    · exact hgiven urlRelay hurl relay hrelay
    · exact hgiven envRelay henv relay hrelay
    · exact isRelayUrl_of_mem_defaultRelayFallbacks relay hrelay

/-- An environment variable that is set to nothing is a relay of its own, and a URL without
a relay takes it for its first. -/
theorem not_isRelayOrder_emptyEnv :
    normalizeRelayUrl "" = "wss://" ∧
      (buildRelayListWithEnv (some "wss://") (some "")).head? = some "wss://" ∧
        ¬ ∀ urlRelay envRelay : Option String,
          IsRelayOrder urlRelay envRelay (buildRelayListWithEnv urlRelay envRelay) := by
  refine ⟨by decide, by decide, fun hall => ?_⟩
  have hmem : "wss://" ∈ buildRelayListWithEnv (some "wss://") (some "") := by decide
  have hhost : IsRelayUrl (normalizeRelayUrl "") :=
    (by decide : normalizeRelayUrl "" = "wss://") ▸ (hall _ _).hosts _ hmem
  exact absurd ((isRelayUrl_normalizeRelayUrl_iff "").mp hhost) (by decide)

end Order

section Lookup

variable {resolveGraspUrl : String → Except String String}

/-- The relay that decides is the first that resolves. -/
theorem tryRelays_eq_ok_iff {lastErr url : String} {relays : List String} :
    tryRelays resolveGraspUrl lastErr relays = .ok url ↔
      ∃ before relay after, relays = before ++ relay :: after ∧
        (∀ earlier ∈ before, ∃ e, resolveGraspUrl earlier = .error e) ∧
          resolveGraspUrl relay = .ok url := by
  induction relays generalizing lastErr with
  | nil =>
      refine iff_of_false nofun ?_
      rintro ⟨before, relay, after, hnil, -⟩
      exact List.append_ne_nil_of_right_ne_nil before (List.cons_ne_nil _ _) hnil.symm
  | cons first relays ih =>
      rw [tryRelays]
      cases hfirst : resolveGraspUrl first with
      | ok found =>
          constructor
          · intro hok
            cases hok
            exact ⟨[], first, relays, rfl, nofun, hfirst⟩
          · rintro ⟨before, relay, after, hsplit, hbefore, hok⟩
            cases before with
            | nil =>
                cases hsplit
                exact hfirst.symm.trans hok
            | cons earlier before =>
                cases hsplit
                obtain ⟨e, herror⟩ := hbefore first List.mem_cons_self
                cases hfirst.symm.trans herror
      | error e =>
          refine ih.trans ⟨?_, ?_⟩
          · rintro ⟨before, relay, after, rfl, hbefore, hok⟩
            exact ⟨first :: before, relay, after, rfl,
              List.forall_mem_cons.mpr ⟨⟨e, hfirst⟩, hbefore⟩, hok⟩
          · rintro ⟨before, relay, after, hsplit, hbefore, hok⟩
            cases before with
            | nil =>
                cases hsplit
                cases hfirst.symm.trans hok
            | cons earlier before =>
                cases hsplit
                exact ⟨before, relay, after, rfl, (List.forall_mem_cons.mp hbefore).2, hok⟩

theorem exists_tryRelays_iff {lastErr : String} {relays : List String} :
    (∃ url, tryRelays resolveGraspUrl lastErr relays = .ok url) ↔
      ∃ relay ∈ relays, ∃ url, resolveGraspUrl relay = .ok url := by
  induction relays generalizing lastErr with
  | nil => exact iff_of_false nofun nofun
  | cons first relays ih =>
      rw [tryRelays, List.exists_mem_cons_iff]
      cases hfirst : resolveGraspUrl first with
      | ok found => exact iff_of_true ⟨found, rfl⟩ (.inl ⟨found, rfl⟩)
      | error e => exact ih.trans (or_iff_right nofun).symm

/-- A repository is found exactly when a relay that is given or a default one has it: a
relay without a host delays the lookup and does not end it. -/
theorem exists_resolveGraspUrlWithFallbacks_iff {urlRelay envRelay : Option String}
    {repo : String} :
    (∃ url, resolveGraspUrlWithFallbacks resolveGraspUrl
        (buildRelayListWithEnv urlRelay envRelay) repo = .ok url) ↔
      ∃ relay, (relay ∈ urlRelay.map normalizeRelayUrl ∨
        relay ∈ envRelay.map normalizeRelayUrl ∨ relay ∈ defaultRelayFallbacks) ∧
          ∃ url, resolveGraspUrl relay = .ok url := by
  have hkept : ∀ (result : Except String String) (f : String → ContextError),
      (∃ url, result.mapError f = .ok url) ↔ ∃ url, result = .ok url := by
    intro result f
    cases result with
    | ok url => exact iff_of_true ⟨url, rfl⟩ ⟨url, rfl⟩
    | error e => exact iff_of_false nofun nofun
  unfold resolveGraspUrlWithFallbacks
  rw [hkept, exists_tryRelays_iff]
  simp only [mem_buildRelayListWithEnv_iff]

end Lookup

end GitHelpers

end Gnostr
