/-
Repository announcements of `types/src/nostr/nip34.rs`: a record of a repository is
written as a flat list of tags and signed, and read from the tags of an event.
-/
import Gnostr.Signer.KeySigner
import Gnostr.Types.EventV3
import Mathlib.Data.Finmap

namespace Gnostr

namespace Types

/-- `EventV3::sign_with_private_key`, through a signer with an empty password. -/
def EventV3.signWithPrivateKey (prims : Primitives) (bech32 : Bech32) (hex : Hex)
    {curve : Secp256k1} (schnorr : Schnorr curve) (preevent : PreEventV3)
    (privateKey : PrivateKey curve) (keyExport : ExportRandom)
    (random : Vector UInt8 32) : Outcome Error EventV3 := do
  let id := preevent.hash hex prims
  let signer ← KeySigner.fromPrivateKey prims bech32 privateKey "" 1 keyExport
  match signer.privateKey with
  | some pk =>
      return {
        id := id
        pubkey := preevent.pubkey
        createdAt := preevent.createdAt
        kind := preevent.kind
        sig := pk.signId schnorr id random
        content := preevent.content
        tags := preevent.tags
      }
  | none => .err .signerIsLocked

/-- Where the key derivation accepts the password, an event is signed. -/
theorem EventV3.exists_signWithPrivateKey {prims : Primitives} {bech32 : Bech32}
    {hex : Hex} {curve : Secp256k1} {schnorr : Schnorr curve} (preevent : PreEventV3)
    (privateKey : PrivateKey curve) {keyExport : ExportRandom}
    (random : Vector UInt8 32)
    (hkdf : PrivateKey.kdfAccepts prims "" 1 keyExport.salt = true) :
    ∃ event, signWithPrivateKey prims bech32 hex schnorr preevent privateKey keyExport
        random = .ok event ∧ event.preEvent = preevent := by
  have hspec := PrivateKey.importEncrypted_exportEncrypted prims Base64.reference
    bech32 privateKey "" 1 keyExport.salt keyExport.nonce
  rw [if_pos hkdf] at hspec
  obtain ⟨epk, hexport, _⟩ := hspec
  unfold signWithPrivateKey KeySigner.fromPrivateKey
  rw [hexport]
  exact ⟨_, rfl, rfl⟩

end Types

namespace Nip34

open Gnostr.Types

/-- Which texts `git2` reads as an object id. -/
structure Git2 where
  isOid : String → Bool
  isOid_empty : isOid "" = false

/-- One to forty hexadecimal digits. -/
def Git2.reference : Git2 where
  isOid text :=
    !text.isEmpty && decide (text.length ≤ 40) &&
      text.toList.all fun c => (Hex.hexDigitValue c).isSome
  isOid_empty := rfl

def repoAnnouncementKind : EventKind := EventKind.ofU32 30617

/-- Repository announcement metadata. -/
structure RepoRef where
  name : String
  description : String
  identifier : String
  rootCommit : String
  gitServer : List String
  web : List String
  relays : List UncheckedUrl
  hashtags : List String
  maintainers : List PublicKey
  trustedMaintainer : PublicKey
  events : Finmap fun _ : NAddr => EventV3

/-- Push a value that is not there yet. -/
def uniquePush {α : Type} [DecidableEq α] (values : List α) (value : α) : List α :=
  if value ∈ values then values else values ++ [value]

def defaultIdentifier (rootCommit : String) : String :=
  String.ofList (rootCommit.toList.take 7)

def rootCommitTag (rootCommit : String) : Outcome Error TagV3 :=
  if rootCommit.isEmpty then .err .invalidOperation
  else .ok ⟨["r", rootCommit, "euc"]⟩

section Write

variable (prims : Primitives) (bech32 : Bech32) (hex : Hex) {curve : Secp256k1}
  (schnorr : Schnorr curve)

/-- The tags of an announcement. -/
def RepoRef.toTags (repo : RepoRef) : Outcome Error (List TagV3) :=
  if repo.rootCommit.isEmpty then .err .invalidOperation
  else do
    let identifier :=
      if repo.identifier.isEmpty then defaultIdentifier repo.rootCommit
      else repo.identifier
    let root ← rootCommitTag repo.rootCommit
    return [⟨["d", identifier]⟩, root, ⟨["name", repo.name]⟩,
      ⟨["description", repo.description]⟩, ⟨"clone" :: repo.gitServer⟩,
      ⟨"web" :: repo.web⟩, ⟨"relays" :: repo.relays.map UncheckedUrl.text⟩,
      ⟨"maintainers" :: repo.maintainers.map (PublicKey.asHexString hex)⟩,
      ⟨["alt", "git repository: " ++ repo.name]⟩] ++
        repo.hashtags.map fun hashtag => ⟨["t", hashtag]⟩

/-- Convert the announcement into a signed event. -/
def RepoRef.toEvent (repo : RepoRef) (privateKey : PrivateKey curve) (now : Int64)
    (keyExport : ExportRandom) (random : Vector UInt8 32) :
    Outcome Error EventV3 := do
  let tags ← repo.toTags hex
  EventV3.signWithPrivateKey prims bech32 hex schnorr
    { pubkey := privateKey.publicKey
      createdAt := now
      kind := repoAnnouncementKind
      tags := tags
      content := "repo announcement" } privateKey keyExport random

end Write

section Read

variable (git : Git2) (curve : Secp256k1) (hex : Hex)

def RepoRef.coordinateForEvent (repo : RepoRef) (author : PublicKey) : NAddr where
  d := repo.identifier
  relays := []
  kind := repoAnnouncementKind
  author := author

/-- The loop over the keys of a `maintainers` tag. -/
def readMaintainers (maintainers : List PublicKey) (values : List String) :
    Outcome Error (List PublicKey) :=
  values.foldlM (fun maintainers value => do
    let maintainer ← PublicKey.tryFromHexString curve hex value true
    return uniquePush maintainers maintainer) maintainers

/-- What one tag of the event sets.  The name decides on the field; a tag without
the values it needs sets none. -/
def RepoRef.readTag (repo : RepoRef) (tag : TagV3) : Outcome Error RepoRef :=
  match tag.fields with
  | [] => .ok repo
  | name :: values =>
      if name = "d" then
        .ok { repo with identifier := values.headD repo.identifier }
      else if name = "name" then .ok { repo with name := values.headD repo.name }
      else if name = "description" then
        .ok { repo with description := values.headD repo.description }
      else if name = "clone" then
        .ok { repo with gitServer := values.foldl uniquePush [] }
      else if name = "web" then .ok { repo with web := values.foldl uniquePush [] }
      else if name = "r" then
        match values with
        | [commitId] =>
            .ok (if git.isOid commitId then { repo with rootCommit := commitId }
              else repo)
        | [commitId, marker] =>
            .ok (if marker = "euc" ∧ git.isOid commitId then
              { repo with rootCommit := commitId } else repo)
        | _ => .ok repo
      else if name = "relays" then
        .ok { repo with
          relays := (values.map UncheckedUrl.mk).foldl uniquePush repo.relays }
      else if name = "t" then
        .ok { repo with hashtags := repo.hashtags ++ values.head?.toList }
      else if name = "maintainers" then do
        let maintainers ← readMaintainers curve hex repo.maintainers values
        return { repo with maintainers := maintainers }
      else .ok repo

/-- The record before the tags are read. -/
def RepoRef.initial (trustedMaintainer : PublicKey) : RepoRef where
  name := ""
  description := ""
  identifier := ""
  rootCommit := ""
  gitServer := []
  web := []
  relays := []
  hashtags := []
  maintainers := []
  trustedMaintainer := trustedMaintainer
  events := ∅

/-- `TryFrom<(EventV3, Option<PublicKey>)>`. -/
def RepoRef.tryFrom (event : EventV3) (trustedMaintainer : Option PublicKey) :
    Outcome Error RepoRef :=
  if event.kind ≠ repoAnnouncementKind then .err .wrongEventKind
  else do
    let repo ← event.tags.foldlM (RepoRef.readTag git curve hex)
      (RepoRef.initial (trustedMaintainer.getD event.pubkey))
    if repo.identifier.isEmpty then .err .tagMismatch
    else if repo.rootCommit.isEmpty then .err .tagMismatch
    else
      let repo := if repo.maintainers.isEmpty then
        { repo with maintainers := [event.pubkey] } else repo
      return { repo with
        events := repo.events.insert (repo.coordinateForEvent event.pubkey) event }

end Read

section RoundTrip

variable {git : Git2} {curve : Secp256k1} {hex : Hex}

/-- Values without a repetition are pushed as they are. -/
theorem foldl_uniquePush {α : Type} [DecidableEq α] {values others : List α}
    (hnodup : (values ++ others).Nodup) :
    others.foldl uniquePush values = values ++ others := by
  induction others generalizing values with
  | nil => rw [List.foldl_nil, List.append_nil]
  | cons value others ih =>
      have hnot : value ∉ values := by
        intro hmem
        exact List.disjoint_of_nodup_append hnodup hmem List.mem_cons_self
      have happend : values ++ value :: others = (values ++ [value]) ++ others := by
        rw [List.append_assoc, List.singleton_append]
      rw [happend] at hnodup
      rw [List.foldl_cons, uniquePush, if_neg hnot, ih hnodup, happend]

theorem foldl_uniquePush_nil {α : Type} [DecidableEq α] {values : List α}
    (hnodup : values.Nodup) : values.foldl uniquePush [] = values :=
  foldl_uniquePush (by rwa [List.nil_append])

/-- The keys are read exactly when all of them are on the curve. -/
theorem readMaintainers_eq_ok_iff {keys maintainers result : List PublicKey} :
    readMaintainers curve hex maintainers (keys.map (PublicKey.asHexString hex)) =
        .ok result ↔
      (∀ key ∈ keys, key.Verified curve) ∧
        keys.foldl uniquePush maintainers = result := by
  unfold readMaintainers
  induction keys generalizing maintainers with
  | nil => simp
  | cons key keys ih =>
      rw [List.map_cons, List.foldlM_cons, Outcome.bind_eq_ok_iff,
        PublicKey.tryFromHexString_asHexString, List.forall_mem_cons, List.foldl_cons,
        and_assoc, ← ih]
      by_cases hverified : key.Verified curve
      · simp [hverified]
      · simp [hverified]

/-- The hashtags are read one after the other. -/
theorem RepoRef.foldlM_hashtags (repo : RepoRef) (hashtags : List String) :
    (hashtags.map fun hashtag => (⟨["t", hashtag]⟩ : TagV3)).foldlM
        (readTag git curve hex) repo =
      .ok { repo with hashtags := repo.hashtags ++ hashtags } := by
  induction hashtags generalizing repo with
  | nil => simp
  | cons hashtag hashtags ih =>
      have hfirst : readTag git curve hex repo ⟨["t", hashtag]⟩ =
          .ok { repo with hashtags := repo.hashtags ++ [hashtag] } := by
        simp [readTag]
      rw [List.map_cons, List.foldlM_cons, hfirst, Outcome.ok_bind, ih,
        List.append_assoc, List.singleton_append]

/-- What an announcement needs to be read back as it is. -/
structure RepoRef.WellFormed (git : Git2) (repo : RepoRef) : Prop where
  isOid_rootCommit : git.isOid repo.rootCommit = true
  identifier_ne : repo.identifier ≠ ""
  maintainers_ne : repo.maintainers ≠ []
  nodup_gitServer : repo.gitServer.Nodup
  nodup_web : repo.web.Nodup
  nodup_relays : repo.relays.Nodup
  nodup_maintainers : repo.maintainers.Nodup

/-- The same repository is announced. -/
structure RepoRef.SameAnnouncement (repo other : RepoRef) : Prop where
  identifier_eq : repo.identifier = other.identifier
  name_eq : repo.name = other.name
  description_eq : repo.description = other.description
  rootCommit_eq : repo.rootCommit = other.rootCommit
  gitServer_eq : repo.gitServer = other.gitServer
  web_eq : repo.web = other.web
  relays_eq : repo.relays = other.relays
  hashtags_eq : repo.hashtags = other.hashtags
  maintainers_eq : repo.maintainers = other.maintainers

theorem RepoRef.WellFormed.rootCommit_ne {repo : RepoRef} (hrepo : repo.WellFormed git) :
    repo.rootCommit.isEmpty = false := by
  rw [String.isEmpty_eq_false_iff]
  intro hempty
  have hoid := hrepo.isOid_rootCommit
  rw [hempty, git.isOid_empty] at hoid
  cases hoid

theorem RepoRef.WellFormed.identifier_isEmpty {repo : RepoRef}
    (hrepo : repo.WellFormed git) : repo.identifier.isEmpty = false :=
  String.isEmpty_eq_false_iff.mpr hrepo.identifier_ne

/-- The tags of an announcement are read exactly when its maintainers are on the
curve. -/
theorem RepoRef.foldlM_toTags_eq_ok_iff {repo result : RepoRef}
    (hrepo : repo.WellFormed git) {tags : List TagV3}
    (htags : repo.toTags hex = .ok tags) (trustedMaintainer : PublicKey) :
    tags.foldlM (readTag git curve hex) (initial trustedMaintainer) = .ok result ↔
      (∀ key ∈ repo.maintainers, key.Verified curve) ∧
        { repo with trustedMaintainer := trustedMaintainer, events := ∅ } = result := by
  have hroot := hrepo.rootCommit_ne
  unfold toTags rootCommitTag at htags
  simp only [hroot, hrepo.identifier_isEmpty, Bool.false_eq_true, if_false,
    Outcome.ok_bind, Outcome.pure_eq, Outcome.ok.injEq] at htags
  have hrelaysRead : (repo.relays.map UncheckedUrl.text).map UncheckedUrl.mk =
      repo.relays := by
    rw [List.map_map]
    exact List.map_id repo.relays
  -- every tag but the one of the maintainers sets its field whatever it holds
  have hread : tags.foldlM (readTag git curve hex) (initial trustedMaintainer) =
      readMaintainers curve hex [] (repo.maintainers.map (PublicKey.asHexString hex))
        >>= fun maintainers =>
          .ok { repo with maintainers := maintainers,
                          trustedMaintainer := trustedMaintainer, events := ∅ } := by
    rw [← htags, List.foldlM_append]
    simp [readTag, initial, hrepo.isOid_rootCommit,
      foldl_uniquePush_nil hrepo.nodup_gitServer, foldl_uniquePush_nil hrepo.nodup_web,
      hrelaysRead, foldl_uniquePush_nil hrepo.nodup_relays, foldlM_hashtags]
  rw [hread, Outcome.bind_eq_ok_iff]
  constructor
  · rintro ⟨maintainers, hmaintainersRead, hresult⟩
    obtain ⟨hverified, rfl⟩ := readMaintainers_eq_ok_iff.mp hmaintainersRead
    rw [foldl_uniquePush_nil hrepo.nodup_maintainers, Outcome.ok.injEq] at hresult
    exact ⟨hverified, hresult⟩
  · rintro ⟨hverified, rfl⟩
    refine ⟨repo.maintainers, readMaintainers_eq_ok_iff.mpr ⟨hverified, ?_⟩, rfl⟩
    exact foldl_uniquePush_nil hrepo.nodup_maintainers

/-- An announcement is signed where the key derivation accepts the empty
password. -/
theorem RepoRef.exists_toEvent (prims : Primitives) (bech32 : Bech32) (hex : Hex)
    (schnorr : Schnorr curve) {repo : RepoRef} (hrepo : repo.WellFormed git)
    (privateKey : PrivateKey curve) (now : Int64) (keyExport : ExportRandom)
    (random : Vector UInt8 32)
    (hkdf : PrivateKey.kdfAccepts prims "" 1 keyExport.salt = true) :
    ∃ event, repo.toEvent prims bech32 hex schnorr privateKey now keyExport random =
        .ok event ∧ repo.toTags hex = .ok event.tags ∧
          event.kind = repoAnnouncementKind := by
  have htags : ∃ tags, repo.toTags hex = .ok tags := by
    unfold toTags rootCommitTag
    simp [hrepo.rootCommit_ne]
  obtain ⟨tags, htags⟩ := htags
  obtain ⟨event, hevent, hfields⟩ := EventV3.exists_signWithPrivateKey
    { pubkey := privateKey.publicKey
      createdAt := now
      kind := repoAnnouncementKind
      tags := tags
      content := "repo announcement" } privateKey random hkdf
  have heventTags : event.tags = tags := congrArg PreEventV3.tags hfields
  refine ⟨event, ?_, heventTags ▸ htags, congrArg PreEventV3.kind hfields⟩
  rw [toEvent, htags, Outcome.ok_bind, hevent]

/-- What is read of an announcement has maintainers on the curve only. -/
theorem RepoRef.verified_of_tryFrom {repo parsed : RepoRef} (hrepo : repo.WellFormed git)
    {event : EventV3} (htags : repo.toTags hex = .ok event.tags)
    (hkind : event.kind = repoAnnouncementKind)
    (hparsed : RepoRef.tryFrom git curve hex event none = .ok parsed) :
    ∀ key ∈ repo.maintainers, key.Verified curve := by
  rw [tryFrom, if_neg (not_not_intro hkind)] at hparsed
  obtain ⟨read, hread, _⟩ := Outcome.bind_eq_ok_iff.mp hparsed
  exact ((foldlM_toTags_eq_ok_iff hrepo htags _).mp hread).1

/-- An event with the tags of an announcement is read back as it exactly when all
maintainers are on the curve. -/
theorem RepoRef.exists_tryFrom_iff {repo : RepoRef} (hrepo : repo.WellFormed git)
    {event : EventV3} (htags : repo.toTags hex = .ok event.tags)
    (hkind : event.kind = repoAnnouncementKind) :
    (∃ parsed, RepoRef.tryFrom git curve hex event none = .ok parsed ∧
        parsed.SameAnnouncement repo) ↔
      ∀ key ∈ repo.maintainers, key.Verified curve := by
  constructor
  · rintro ⟨parsed, hparsed, _⟩
    exact verified_of_tryFrom hrepo htags hkind hparsed
  · intro hverified
    have hread := (foldlM_toTags_eq_ok_iff hrepo htags event.pubkey).mpr
      ⟨hverified, rfl⟩
    have hmaintainers : repo.maintainers.isEmpty = false :=
      List.isEmpty_eq_false_iff.mpr hrepo.maintainers_ne
    rw [tryFrom, if_neg (not_not_intro hkind), Option.getD_none, hread,
      Outcome.ok_bind]
    simp only [hrepo.identifier_isEmpty, hrepo.rootCommit_ne, hmaintainers,
      Bool.false_eq_true, if_false]
    exact ⟨_, rfl, ⟨rfl, rfl, rfl, rfl, rfl, rfl, rfl, rfl, rfl⟩⟩

/-- A well-formed announcement is signed, and it is read back from the event exactly
when all its maintainers are on the curve. -/
theorem RepoRef.tryFrom_toEvent_iff (git : Git2) (prims : Primitives)
    (bech32 : Bech32) (hex : Hex) {curve : Secp256k1} (schnorr : Schnorr curve)
    (repo : RepoRef) (hrepo : repo.WellFormed git) (privateKey : PrivateKey curve)
    (now : Int64) (keyExport : ExportRandom) (random : Vector UInt8 32)
    (hkdf : PrivateKey.kdfAccepts prims "" 1 keyExport.salt = true) :
    ∃ event, repo.toEvent prims bech32 hex schnorr privateKey now keyExport random =
        .ok event ∧
      ((∃ parsed, RepoRef.tryFrom git curve hex event none = .ok parsed ∧
          parsed.SameAnnouncement repo) ↔
        ∀ key ∈ repo.maintainers, key.Verified curve) := by
  obtain ⟨event, hevent, htags, hkind⟩ :=
    exists_toEvent prims bech32 hex schnorr hrepo privateKey now keyExport random
      hkdf
  exact ⟨event, hevent, exists_tryFrom_iff hrepo htags hkind⟩

/-- A curve that has every x coordinate but the largest 32 bytes, which are beyond
the field of the one in use. -/
def boundedCurve : Secp256k1 where
  isSecretKey _ := true
  isXOnlyPublicKey key := decide (key ≠ Vector.replicate 32 255)
  xOnlyPublicKey _ := Vector.replicate 32 1
  sharedSecretPoint _ _ := Vector.replicate 64 1
  isXOnlyPublicKey_xOnlyPublicKey _ := by decide
  sharedSecretPoint_comm _ _ := rfl

def boundedKey : PrivateKey boundedCurve where
  secret := ⟨Vector.replicate 32 1, rfl⟩
  security := .medium

/-- An announcement with one maintainer. -/
def announcedRepo (maintainer : PublicKey) : RepoRef where
  name := "gnostr"
  description := "A git implementation on nostr"
  identifier := "gnostr"
  rootCommit := "abcdef1234567890"
  gitServer := ["https://github.com/gnostr-org/gnostr.git"]
  web := []
  relays := [⟨"wss://relay.damus.io"⟩]
  hashtags := ["gnostr"]
  maintainers := [maintainer]
  trustedMaintainer := maintainer
  events := ∅

theorem announcedRepo_wellFormed (maintainer : PublicKey) :
    (announcedRepo maintainer).WellFormed Git2.reference where
  isOid_rootCommit := by
    have hoid : Git2.reference.isOid "abcdef1234567890" = true := by decide +kernel
    exact hoid
  identifier_ne := by simp [announcedRepo]
  maintainers_ne := List.cons_ne_nil _ _
  nodup_gitServer := List.nodup_singleton _
  nodup_web := List.nodup_nil
  nodup_relays := List.nodup_singleton _
  nodup_maintainers := List.nodup_singleton _

/-- Zero bytes for what is drawn. -/
def zeroExport : ExportRandom := ⟨Vector.replicate 16 0, Vector.replicate 24 0⟩

/-- An announcement by a maintainer on the curve comes back. -/
theorem RepoRef.tryFrom_toEvent_announcedRepo :
    ∃ event, (announcedRepo boundedKey.publicKey).toEvent Primitives.transparent
        Bech32.reference Hex.reference (Schnorr.permissive boundedCurve) boundedKey
        1700000000 zeroExport (Vector.replicate 32 0) = .ok event ∧
      ∃ parsed, RepoRef.tryFrom Git2.reference boundedCurve Hex.reference event none =
          .ok parsed ∧
        parsed.SameAnnouncement (announcedRepo boundedKey.publicKey) := by
  obtain ⟨event, hevent, hiff⟩ := RepoRef.tryFrom_toEvent_iff Git2.reference
    Primitives.transparent Bech32.reference Hex.reference
    (Schnorr.permissive boundedCurve) _ (announcedRepo_wellFormed boundedKey.publicKey)
    boundedKey 1700000000 zeroExport (Vector.replicate 32 0) rfl
  refine ⟨event, hevent, hiff.mpr fun key hkey => ?_⟩
  rw [List.mem_singleton.mp hkey]
  exact boundedKey.publicKey_verified

/-- A maintainer who is no x coordinate is announced, and the announcement is not
read. -/
theorem RepoRef.unverified_maintainer_is_not_read :
    (announcedRepo ⟨Vector.replicate 32 255⟩).WellFormed Git2.reference ∧
      ∃ event, (announcedRepo ⟨Vector.replicate 32 255⟩).toEvent
          Primitives.transparent Bech32.reference Hex.reference
          (Schnorr.permissive boundedCurve) boundedKey 1700000000 zeroExport
          (Vector.replicate 32 0) = .ok event ∧
        ¬ ∃ parsed, RepoRef.tryFrom Git2.reference boundedCurve Hex.reference event
          none = .ok parsed := by
  have hrepo := announcedRepo_wellFormed ⟨Vector.replicate 32 255⟩
  obtain ⟨event, hevent, htags, hkind⟩ := exists_toEvent Primitives.transparent
    Bech32.reference Hex.reference (Schnorr.permissive boundedCurve) hrepo boundedKey
    1700000000 zeroExport (Vector.replicate 32 0) rfl
  refine ⟨hrepo, event, hevent, ?_⟩
  rintro ⟨parsed, hparsed⟩
  have hverified := verified_of_tryFrom hrepo htags hkind hparsed _
    (List.mem_singleton_self _)
  exact absurd hverified (by decide)

end RoundTrip

end Nip34

end Gnostr
