/-
The relay buckets of `p2p/src/crawler_broadcast.rs`: entries are normalized when they are
fetched, again when a bucket is made of them, and again when the bucket is loaded.  The
marks around an entry are taken off in one fixed order, so that it is the same each time
only when its marks stand in that order.
-/
import Gnostr.Lib.Json
import Gnostr.Lib.Wrapping
import Gnostr.P2p.RelayHost

namespace Gnostr

namespace P2p

open Gnostr.Types (isWhiteSpace trimChars)

section Source

/-- What is left of an entry when the marks around it are taken off. -/
def stripMarks (relay : List Char) : List Char :=
  let relay := trimChars relay
  let relay := trimStartPair '-' ' ' relay
  let relay := relay.dropWhile (· == '-')
  let relay := trimMatches (· == '\'') relay
  let relay := trimMatches (· == '"') relay
  trimChars relay

def normalizeRelayEntry (relay : String) : Option String :=
  let relay := stripMarks relay.toList
  if relay.isEmpty then none else some (String.ofList relay)

/-- The texts of the lists of relays; what was written as JSON is read as it was. -/
structure RelayTexts where
  writeJson : List String → String
  writeYaml : List String → String
  readJson : String → Option (List String)
  readYaml : String → Option (List String)
  readJson_writeJson : ∀ relays, readJson (writeJson relays) = some relays

/-- A directory of a bucket: its name, if it has one that is text, and its files. -/
structure BucketDir where
  fileName : Option String
  relaysJson : Option String
  relaysYaml : Option String
  relaysTxt : Option String

inductive LoadError where
  | invalidName
  | parseInt
  | json
  | yaml
deriving Repr, DecidableEq

variable (texts : RelayTexts) (shitlist : List String)

def loadRelayBucketFromDir (dir : BucketDir) : Except LoadError RelayBucket := do
  let name ← dir.fileName.elim (.error .invalidName) .ok
  let nip ← (parseSigned (2 ^ 31) name.toList).elim (.error .parseInt) .ok
  let relays ← match dir.relaysJson, dir.relaysYaml with
    | some text, _ => (texts.readJson text).elim (.error .json) .ok
    | none, some text => (texts.readYaml text).elim (.error .yaml) .ok
    | none, none => .ok []
  return ⟨Int32.ofInt nip, relays.filterMap normalizeRelayEntry⟩

def isShitlisted (url : String) : Bool :=
  shitlist.any fun relay => relay.toList <:+: url.toList

/-- The relays of a response, if there are any, from its entries. -/
def fetchLiveCrawlerRelays (entries : List String) : Option (List String) :=
  let relays := entries.filterMap normalizeRelayEntry
  if relays.isEmpty then none else some relays

/-- The relays that are kept of those that were fetched. -/
def bootstrapRelays (relays : List String) : List String :=
  ((relays.filterMap normalizeRelayEntry).filter
    fun relay => isValidRelayUrl relay || isLoopbackRelay relay).filter
      fun relay => !isShitlisted shitlist relay

/-- The directory that is written and the relays that are returned. -/
def bootstrapCrawlerRelayBuckets (nip : Int32) (relays : List String) :
    BucketDir × List String :=
  let relays := bootstrapRelays shitlist relays
  (⟨some (String.ofList (decimalInt nip.toInt)), some (texts.writeJson relays),
    some (texts.writeYaml relays), some (" ".intercalate relays)⟩, relays)

end Source

section Layers

/-- The marks that are taken off the beginning. -/
def isLeadMark (c : Char) : Bool := isWhiteSpace c || c == '-' || c == '\'' || c == '"'

/-- The marks that are taken off the end. -/
def isTrailMark (c : Char) : Bool := isWhiteSpace c || c == '\'' || c == '"'

/-- No mark stands at the beginning or at the end. -/
def Settled (relay : List Char) : Prop :=
  (∀ c ∈ relay.head?, isLeadMark c = false) ∧ ∀ c ∈ relay.getLast?, isTrailMark c = false

theorem settled_nil : Settled [] := by
  constructor
  · rintro c ⟨⟩
  · rintro c ⟨⟩

/-- From the inside: spaces, double quotes, single quotes; before these dashes, and dashes
with a space; and around all spaces. -/
def Layered : List Char → Prop :=
  Wrapped isWhiteSpace (LedByPair '-' ' ' (Led (· == '-')
    (Wrapped (· == '\'') (Wrapped (· == '"') (Wrapped isWhiteSpace Settled)))))

/-- The set is closed under taking off marks at both ends. -/
structure Peelable (Inner : List Char → Prop) : Prop where
  left : ClosedLeft isLeadMark Inner
  right : ClosedRight isTrailMark Inner

theorem peelable_settled : Peelable Settled where
  left c relay hc hsettled := by
    rw [hsettled.1 c rfl] at hc
    cases hc
  right c relay hc hsettled := by
    rw [hsettled.2 c (by rw [List.getLast?_concat]; rfl)] at hc
    cases hc

theorem isLeadMark_of_isTrailMark {c : Char} (hc : isTrailMark c = true) :
    isLeadMark c = true := by
  simp only [isTrailMark, isLeadMark, Bool.or_eq_true] at hc ⊢
  tauto

variable {p : Char → Bool} {Inner : List Char → Prop} {relay : List Char}

theorem Peelable.wrapped (hinner : Peelable Inner) : Peelable (Wrapped p Inner) :=
  ⟨Wrapped.closedLeft hinner.left, Wrapped.closedRight hinner.right⟩

theorem Peelable.led (hinner : Peelable Inner) : Peelable (Led p Inner) :=
  ⟨Led.closedLeft hinner.left, Led.closedRight hinner.right⟩

theorem Peelable.wrapped_iff (hinner : Peelable Inner)
    (hmarks : ∀ c, p c = true → isTrailMark c = true) :
    Wrapped p Inner relay ↔ Inner (trimMatches p relay) :=
  Gnostr.wrapped_iff
    (hinner.left.mono fun c hc => isLeadMark_of_isTrailMark (hmarks c hc))
    (hinner.right.mono hmarks)

theorem isTrailMark_of_isWhiteSpace (c : Char) (hc : isWhiteSpace c = true) :
    isTrailMark c = true := by
  rw [isTrailMark, hc]
  rfl

theorem isTrailMark_of_quote {quote : Char} (hquote : isTrailMark quote = true) (c : Char)
    (hc : (c == quote) = true) : isTrailMark c = true := by
  rwa [eq_of_beq hc]

/-- An entry is layered exactly when no mark is left at its ends. -/
theorem layered_iff : Layered relay ↔ Settled (stripMarks relay) := by
  have hspaces := @Peelable.wrapped isWhiteSpace _ peelable_settled
  have hdouble := @Peelable.wrapped (· == '"') _ hspaces
  have hsingle := @Peelable.wrapped (· == '\'') _ hdouble
  have hdashes := @Peelable.led (· == '-') _ hsingle
  have hdash : ∀ c, (c == '-') = true → isLeadMark c = true := by
    intro c hc
    rw [eq_of_beq hc]
    rfl
  have hspace := fun c hc => isLeadMark_of_isTrailMark (isTrailMark_of_isWhiteSpace c hc)
  have hbroken : Led (· == '-') (Wrapped (· == '\'') (Wrapped (· == '"')
      (Wrapped isWhiteSpace Settled))) ['-'] :=
    .left rfl (.bare (.bare (.bare (.bare settled_nil))))
  have hpairsLeft := @LedByPair.closedLeft _ isWhiteSpace '-' ' ' _ rfl
    (hdashes.left.mono hspace)
  have hpairsRight := @LedByPair.closedRight _ isWhiteSpace '-' ' ' _ hbroken
    (hdashes.right.mono isTrailMark_of_isWhiteSpace)
  unfold Layered stripMarks
  rw [Gnostr.wrapped_iff hpairsLeft hpairsRight, ledByPair_iff hdashes.left (by decide)
      (by decide), led_iff (hsingle.left.mono hdash),
    hdouble.wrapped_iff (isTrailMark_of_quote (by decide)),
    hspaces.wrapped_iff (isTrailMark_of_quote (by decide)),
    peelable_settled.wrapped_iff isTrailMark_of_isWhiteSpace]
  rfl

end Layers

section Stable

theorem trimChars_eq (relay : List Char) :
    trimChars relay = trimMatches isWhiteSpace relay := rfl

/-- Nothing is taken off an entry that has no marks at its ends, and something of any
other. -/
theorem stripMarks_eq_self_iff (relay : List Char) :
    stripMarks relay = relay ↔ Settled relay := by
  have hspaces := @trimMatches_sublist _ isWhiteSpace
  have hpairs := fun relay => (trimStartPair_sublist '-' ' ' _).trans (hspaces relay)
  have hdash := fun list => List.dropWhile_sublist (l := list) (fun c => c == '-')
  have hdashes := fun relay => (hdash _).trans (hpairs relay)
  have hsingles := fun relay => (@trimMatches_sublist _ (· == '\'') _).trans (hdashes relay)
  have hdoubles := fun relay => (@trimMatches_sublist _ (· == '"') _).trans (hsingles relay)
  unfold stripMarks
  simp only [trimChars_eq]
  rw [comp_eq_self_iff hdoubles hspaces, comp_eq_self_iff hsingles trimMatches_sublist,
    comp_eq_self_iff hdashes trimMatches_sublist, comp_eq_self_iff hpairs hdash,
    comp_eq_self_iff hspaces (trimStartPair_sublist '-' ' '), trimMatches_eq_self_iff,
    trimMatches_eq_self_iff, trimMatches_eq_self_iff, dropWhile_eq_self_iff_head?]
  constructor
  · rintro ⟨⟨⟨⟨⟨hspace, -⟩, hdash⟩, hsingle⟩, hdouble⟩, -⟩
    refine ⟨fun c hc => ?_, fun c hc => ?_⟩
    · rw [isLeadMark, hspace.1 c hc, hdash c hc, hsingle.1 c hc, hdouble.1 c hc]
      rfl
    · rw [isTrailMark, hspace.2 c hc, hsingle.2 c hc, hdouble.2 c hc]
      rfl
  · rintro ⟨hlead, htrail⟩
    simp only [isLeadMark, isTrailMark, Bool.or_eq_false_iff] at hlead htrail
    have hspace : (∀ c ∈ relay.head?, isWhiteSpace c = false) ∧
        ∀ c ∈ relay.getLast?, isWhiteSpace c = false :=
      ⟨fun c hc => (hlead c hc).1.1.1, fun c hc => (htrail c hc).1.1⟩
    have hpair : trimStartPair '-' ' ' relay = relay := by
      refine trimStartPair_of_head?_ne fun hdash => ?_
      exact absurd (hlead '-' hdash).1.1.2 (by decide)
    refine ⟨⟨⟨⟨⟨hspace, hpair⟩, fun c hc => (hlead c hc).1.1.2⟩, ?_⟩, ?_⟩, hspace⟩
    · exact ⟨fun c hc => (hlead c hc).1.2, fun c hc => (htrail c hc).1.2⟩
    · exact ⟨fun c hc => (hlead c hc).2, fun c hc => (htrail c hc).2⟩

theorem normalizeRelayEntry_eq_some_iff {relay normalized : String} :
    normalizeRelayEntry relay = some normalized ↔
      stripMarks relay.toList = normalized.toList ∧ normalized ≠ "" := by
  unfold normalizeRelayEntry
  dsimp only
  split_ifs with hempty
  · refine iff_of_false (fun hnone => by cases hnone) ?_
    rintro ⟨hsame, hne⟩
    rw [List.isEmpty_iff.mp hempty] at hsame
    exact hne (String.toList_eq_nil_iff.mp hsame.symm)
  · rw [Option.some.injEq]
    constructor
    · rintro rfl
      refine ⟨String.toList_ofList.symm, fun hne => hempty ?_⟩
      rw [← String.toList_eq_nil_iff, String.toList_ofList] at hne
      exact List.isEmpty_iff.mpr hne
    · rintro ⟨hsame, -⟩
      rw [hsame, String.ofList_toList]

/-- What an entry is normalized to is normalized to itself. -/
def Stable (relay : String) : Prop :=
  ∀ normalized, normalizeRelayEntry relay = some normalized →
    normalizeRelayEntry normalized = some normalized

theorem stable_iff (relay : String) : Stable relay ↔ Layered relay.toList := by
  rw [layered_iff, ← stripMarks_eq_self_iff]
  constructor
  · intro hstable
    by_cases hempty : stripMarks relay.toList = []
    · rw [hempty]
      rfl
    · have hnormalized := hstable (String.ofList (stripMarks relay.toList))
      rw [normalizeRelayEntry_eq_some_iff, normalizeRelayEntry_eq_some_iff,
        String.toList_ofList] at hnormalized
      refine (hnormalized ⟨rfl, fun hne => hempty ?_⟩).1
      rw [← String.toList_eq_nil_iff, String.toList_ofList] at hne
      exact hne
  · intro hsame normalized hnormalized
    rw [normalizeRelayEntry_eq_some_iff] at hnormalized ⊢
    rw [hnormalized.1] at hsame
    exact ⟨hsame, hnormalized.2⟩

end Stable

section Reread

variable {texts : RelayTexts} {shitlist : List String} {nip : Int32}

theorem loadRelayBucketFromDir_bootstrap (relays : List String) :
    loadRelayBucketFromDir texts (bootstrapCrawlerRelayBuckets texts shitlist nip relays).1 =
      .ok ⟨nip, (bootstrapRelays shitlist relays).filterMap normalizeRelayEntry⟩ := by
  have hnip : parseSigned (2 ^ 31) (decimalInt nip.toInt) = some nip.toInt :=
    parseSigned_decimalInt nip.le_toInt nip.toInt_lt
  have hbind {α β : Type} (a : α) (f : α → Except LoadError β) : (.ok a >>= f) = f a := rfl
  unfold loadRelayBucketFromDir bootstrapCrawlerRelayBuckets
  simp only [Option.elim_some, hbind, String.toList_ofList, hnip, texts.readJson_writeJson,
    Int32.ofInt_toInt]
  rfl

/-- The bucket that is written for the entries of a response holds, when it is loaded, the
relays that were returned. -/
def RereadsSame (texts : RelayTexts) (shitlist : List String) (nip : Int32)
    (entries : List String) : Prop :=
  ∀ relays, fetchLiveCrawlerRelays entries = some relays →
    loadRelayBucketFromDir texts (bootstrapCrawlerRelayBuckets texts shitlist nip relays).1 =
      .ok ⟨nip, (bootstrapCrawlerRelayBuckets texts shitlist nip relays).2⟩

theorem filterMap_normalize_eq_self_iff (relays : List String) :
    relays.filterMap normalizeRelayEntry = relays ↔
      ∀ relay ∈ relays, normalizeRelayEntry relay = some relay := by
  constructor
  · intro hsame
    induction relays with
    | nil => exact fun relay hrelay => absurd hrelay List.not_mem_nil
    | cons relay relays ih =>
        cases hrelay : normalizeRelayEntry relay with
        | none =>
            rw [List.filterMap_cons_none hrelay] at hsame
            have hle := List.length_filterMap_le normalizeRelayEntry relays
            rw [hsame, List.length_cons] at hle
            exact absurd hle (Nat.not_succ_le_self _)
        | some normalized =>
            rw [List.filterMap_cons_some hrelay] at hsame
            obtain ⟨rfl, hlater⟩ := List.cons_eq_cons.mp hsame
            exact List.forall_mem_cons.mpr ⟨hrelay, ih hlater⟩
  · intro hall
    induction relays with
    | nil => rfl
    | cons relay relays ih =>
        rw [List.filterMap_cons_some (hall relay List.mem_cons_self),
          ih fun later hlater => hall later (List.mem_cons_of_mem relay hlater)]

/-- The bucket is loaded as it was written exactly when its relays are normalized. -/
theorem rereadsSame_iff {entries : List String} :
    RereadsSame texts shitlist nip entries ↔
      ∀ relays, fetchLiveCrawlerRelays entries = some relays →
        ∀ relay ∈ bootstrapRelays shitlist relays, normalizeRelayEntry relay = some relay := by
  unfold RereadsSame
  refine forall_congr' fun relays => imp_congr_right fun _ => ?_
  rw [loadRelayBucketFromDir_bootstrap, ← filterMap_normalize_eq_self_iff, Except.ok.injEq,
    RelayBucket.mk.injEq]
  exact and_iff_right rfl

theorem exists_of_mem_bootstrapRelays {relays : List String} {relay : String}
    (hrelay : relay ∈ bootstrapRelays shitlist relays) :
    ∃ fetched ∈ relays, normalizeRelayEntry fetched = some relay :=
  List.mem_filterMap.mp (List.mem_of_mem_filter (List.mem_of_mem_filter hrelay))

theorem exists_of_mem_fetched {entries relays : List String} {relay : String}
    (hrelays : fetchLiveCrawlerRelays entries = some relays) (hrelay : relay ∈ relays) :
    ∃ entry ∈ entries, normalizeRelayEntry entry = some relay := by
  unfold fetchLiveCrawlerRelays at hrelays
  dsimp only at hrelays
  split_ifs at hrelays
  rw [← Option.some.inj hrelays] at hrelay
  exact List.mem_filterMap.mp hrelay

end Reread

/-- Normalizing the entries of a response a second time changes nothing, and the bucket
made of them is loaded as it was written, exactly when every entry is layered. -/
theorem stable_and_rereadsSame_iff (texts : RelayTexts) (shitlist : List String)
    (nip : Int32) (entries : List String) :
    ((∀ entry ∈ entries, Stable entry) ∧ RereadsSame texts shitlist nip entries) ↔
      ∀ entry ∈ entries, Layered entry.toList := by
  constructor
  · rintro ⟨hstable, -⟩ entry hentry
    exact (stable_iff entry).mp (hstable entry hentry)
  · intro hlayered
    have hstable : ∀ entry ∈ entries, Stable entry :=
      fun entry hentry => (stable_iff entry).mpr (hlayered entry hentry)
    refine ⟨hstable, rereadsSame_iff.mpr fun relays hrelays relay hrelay => ?_⟩
    obtain ⟨fetched, hfetched, hrelay⟩ := exists_of_mem_bootstrapRelays hrelay
    obtain ⟨entry, hentry, hentryFetched⟩ := exists_of_mem_fetched hrelays hfetched
    have hsame := hstable entry hentry fetched hentryFetched
    rw [hsame] at hrelay
    obtain rfl := Option.some.inj hrelay
    exact hsame

def asStr : Json → Option String
  | .str text => some text
  | _ => none

theorem mapM_asStr (relays : List String) :
    (relays.map Json.str).mapM asStr = some relays := by
  induction relays with
  | nil => rfl
  | cons relay relays ih =>
      rw [List.map_cons, List.mapM_cons, ih]
      rfl

/-- The relays as JSON without spaces; no YAML is read. -/
def RelayTexts.compact : RelayTexts where
  writeJson relays := String.ofList (Json.arr (relays.map Json.str)).render
  writeYaml relays := String.ofList (Json.arr (relays.map Json.str)).render
  readJson text :=
    (JsonReader.compact.read text).bind fun value =>
      match value with
      | .arr items => items.mapM asStr
      | _ => none
  readYaml _ := none
  readJson_writeJson relays := by
    have hfits : (Json.arr (relays.map Json.str)).fits 127 = true := by
      simp [Json.fits]
    rw [JsonReader.compact.read_render hfits]
    exact mapM_asStr relays

/-- A relay with single and double quotes behind it by turns. -/
def quotedRelay : String := "wss://relay.example'\"'\"'\""

theorem quotedRelay_passes :
    normalizeRelayEntry quotedRelay = some "wss://relay.example'\"'\"'" ∧
      normalizeRelayEntry "wss://relay.example'\"'\"'" = some "wss://relay.example'\"'" ∧
      normalizeRelayEntry "wss://relay.example'\"'" = some "wss://relay.example'" ∧
      fetchLiveCrawlerRelays [quotedRelay] = some ["wss://relay.example'\"'\"'"] ∧
      bootstrapRelays [] ["wss://relay.example'\"'\"'"] = ["wss://relay.example'\"'"] := by
  decide +kernel

theorem not_stable_and_not_rereadsSame_quotedRelay :
    ¬ (∀ relay, Stable relay) ∧
      ¬ ∀ texts shitlist nip entries, RereadsSame texts shitlist nip entries := by
  obtain ⟨hfirst, hsecond, hthird, hfetched, hkept⟩ := quotedRelay_passes
  constructor
  · intro hall
    have hsame := hall quotedRelay _ hfirst
    rw [hsecond] at hsame
    exact absurd (Option.some.inj hsame) (by decide)
  · intro hall
    have hsame := rereadsSame_iff.mp (hall .compact [] 1 [quotedRelay]) _ hfetched _
      (by rw [hkept]; exact List.mem_singleton_self _)
    rw [hthird] at hsame
    exact absurd (Option.some.inj hsame) (by decide)

end P2p

end Gnostr
