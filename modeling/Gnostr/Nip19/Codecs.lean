/-
The typed NIP-19 codecs of `types/src/nostr`: `naddr.rs`, `nevent.rs`,
`profile.rs`, and the relay codec of `nostr_url.rs`.
-/
import Gnostr.Lib.Tlv
import Gnostr.Types.EventKind
import Gnostr.Types.Url

namespace Gnostr

namespace Types

/-- The data to address a possibly parameterized replaceable event. -/
structure NAddr where
  d : String
  relays : List UncheckedUrl
  kind : EventKind
  author : PublicKey
deriving Repr, DecidableEq

/-- An event id along with some relays in which that event may be found. -/
structure NEvent where
  id : Id
  relays : List UncheckedUrl
  kind : Option EventKind
  author : Option PublicKey
deriving Repr, DecidableEq

/-- A person's profile, the data needed in order to follow someone. -/
structure Profile where
  pubkey : PublicKey
  relays : List UncheckedUrl
deriving Repr, DecidableEq

section Entries

/-- `from_utf8` and `UncheckedUrl::from_str` on the value of an entry. -/
def readRelay (raw : Bytes) : Outcome Error UncheckedUrl :=
  UncheckedUrl.mk <$> Outcome.okOr .utf8Error (fromUtf8 raw)

/-- The value of a kind entry. -/
def readKind (raw : Bytes) : Outcome Error EventKind := do
  let bytes ← Outcome.okOr .wrongLengthKindBytes (tryIntoArray 4 raw)
  return EventKind.ofU32 (UInt32.ofNat (ofBeBytes bytes.toList))

/-- Don't fail if the public key is bad, just don't include it. -/
def readAuthor (curve : Secp256k1) (raw : Bytes) (author : Option PublicKey) :
    Outcome Error (Option PublicKey) :=
  match PublicKey.fromBytes curve raw true with
  | .ok key => .ok (some key)
  | .err _ => .ok author
  | .panic => .panic

/-- A relay's length as a byte, and as many bytes of it. -/
def relayEntries (relays : List UncheckedUrl) : List TlvEntry :=
  relays.map fun relay => (1, cutToLengthByte (utf8 relay.text))

def kindBytes (kind : EventKind) : Bytes := beBytes 4 kind.toU32.toNat

theorem returns_readRelay (raw : Bytes) : (readRelay raw).Returns :=
  Outcome.returns_map_iff.mpr (Outcome.returns_okOr _ _)

theorem returns_readKind (raw : Bytes) : (readKind raw).Returns :=
  Outcome.returns_bind_pure_iff.mpr (Outcome.returns_okOr _ _)

theorem returns_readAuthor (curve : Secp256k1) (raw : Bytes)
    (author : Option PublicKey) : (readAuthor curve raw author).Returns := by
  have hkey := PublicKey.returns_fromBytes curve raw true
  unfold readAuthor
  cases hread : PublicKey.fromBytes curve raw true with
  | ok key => exact Outcome.returns_ok _
  | err error => exact Outcome.returns_ok _
  | panic => exact absurd hread hkey

end Entries

namespace NAddr

/-- What is pushed, in this order. -/
def entries (addr : NAddr) : List TlvEntry :=
  [(0, cutToLengthByte (utf8 addr.d))] ++ relayEntries addr.relays ++
    [(3, kindBytes addr.kind), (2, addr.author.bytes.toList)]

def asBech32String (bech32 : Bech32) (addr : NAddr) : Outcome Error String :=
  encodeBech32 bech32 hrpNaddr (addr.entries.flatMap encodeTlv)

structure Fields where
  d : Option String
  kind : Option EventKind
  author : Option PublicKey

def step (curve : Secp256k1) (state : Fields × List UncheckedUrl)
    (entry : TlvEntry) : Outcome Error (Fields × List UncheckedUrl) :=
  if entry.1 = 0 then do
    let d ← Outcome.okOr Error.utf8Error (fromUtf8 entry.2)
    return ({ state.1 with d := some d }, state.2)
  else if entry.1 = 1 then do
    let relay ← readRelay entry.2
    return (state.1, state.2 ++ [relay])
  else if entry.1 = 2 then do
    let author ← readAuthor curve entry.2 state.1.author
    return ({ state.1 with author := author }, state.2)
  else if entry.1 = 3 then do
    let kind ← readKind entry.2
    return ({ state.1 with kind := some kind }, state.2)
  else return state

def finish (state : Fields × List UncheckedUrl) : Outcome Error NAddr :=
  match state.1.d, state.1.kind, state.1.author with
  | some d, some kind, some author =>
      if !kind.isReplaceable then .err .nonReplaceableAddr
      else .ok ⟨d, state.2, kind, author⟩
  | _, _, _ => .err .invalidNAddr

def readTlvs (curve : Secp256k1) (tlv : Bytes) : Outcome Error NAddr := do
  let state ← scanWhile .invalidProfile (step curve) tlv 0
    (⟨none, none, none⟩, [])
  finish state

def tryFromBech32String (curve : Secp256k1) (bech32 : Bech32) (text : String) :
    Outcome Error NAddr := do
  let tlv ← decodeBech32 bech32 hrpNaddr text
  readTlvs curve tlv

theorem returns_step (curve : Secp256k1) (state : Fields × List UncheckedUrl)
    (entry : TlvEntry) : (step curve state entry).Returns := by
  unfold step
  split
  · exact Outcome.returns_bind_pure_iff.mpr (Outcome.returns_okOr _ _)
  · split
    · exact Outcome.returns_bind_pure_iff.mpr (returns_readRelay _)
    · split
      · exact Outcome.returns_bind_pure_iff.mpr (returns_readAuthor _ _ _)
      · split
        · exact Outcome.returns_bind_pure_iff.mpr (returns_readKind _)
        · exact Outcome.returns_ok _

theorem returns_finish (state : Fields × List UncheckedUrl) :
    (finish state).Returns := by
  unfold finish
  split
  · split
    · exact Outcome.returns_err _
    · exact Outcome.returns_ok _
  · exact Outcome.returns_err _

/-- The loop over the whole payload needs no bound. -/
theorem returns_tryFromBech32String (curve : Secp256k1) (bech32 : Bech32)
    (text : String) : (tryFromBech32String curve bech32 text).Returns := by
  refine Outcome.returns_bind_iff.mpr ⟨returns_decodeBech32 _ _ _, fun tlv _ => ?_⟩
  exact Outcome.returns_bind_iff.mpr
    ⟨returns_scanWhile (returns_step curve) _ _, fun _ _ => returns_finish _⟩

end NAddr

namespace NEvent

/-- What is pushed, in this order. -/
def entries (event : NEvent) : List TlvEntry :=
  [(0, event.id.bytes.toList)] ++ relayEntries event.relays ++
    event.kind.toList.map (fun kind => (3, kindBytes kind)) ++
    event.author.toList.map (fun author => (2, author.bytes.toList))

def asBech32String (bech32 : Bech32) (event : NEvent) : Outcome Error String :=
  encodeBech32 bech32 hrpNevent (event.entries.flatMap encodeTlv)

structure Fields where
  id : Option Id
  kind : Option EventKind
  author : Option PublicKey

def step (curve : Secp256k1) (state : Fields × List UncheckedUrl)
    (entry : TlvEntry) : Outcome Error (Fields × List UncheckedUrl) :=
  if entry.1 = 0 then
    if entry.2.length ≠ 32 then .err .invalidNEvent
    else do
      let bytes ← Outcome.okOr .wrongLengthHexString (tryIntoArray 32 entry.2)
      return ({ state.1 with id := some ⟨bytes⟩ }, state.2)
  else if entry.1 = 1 then do
    let relay ← readRelay entry.2
    return (state.1, state.2 ++ [relay])
  else if entry.1 = 2 then do
    let author ← readAuthor curve entry.2 state.1.author
    return ({ state.1 with author := author }, state.2)
  else if entry.1 = 3 then do
    let kind ← readKind entry.2
    return ({ state.1 with kind := some kind }, state.2)
  else return state

def finish (state : Fields × List UncheckedUrl) : Outcome Error NEvent :=
  match state.1.id with
  | some id => .ok ⟨id, state.2, state.1.kind, state.1.author⟩
  | none => .err .invalidNEvent

def readTlvs (curve : Secp256k1) (tlv : Bytes) : Outcome Error NEvent := do
  let state ← scanWhile .invalidProfile (step curve) tlv 0
    (⟨none, none, none⟩, [])
  finish state

def tryFromBech32String (curve : Secp256k1) (bech32 : Bech32) (text : String) :
    Outcome Error NEvent := do
  let tlv ← decodeBech32 bech32 hrpNevent text
  readTlvs curve tlv

theorem returns_step (curve : Secp256k1) (state : Fields × List UncheckedUrl)
    (entry : TlvEntry) : (step curve state entry).Returns := by
  unfold step
  split
  · split
    · exact Outcome.returns_err _
    · exact Outcome.returns_bind_pure_iff.mpr (Outcome.returns_okOr _ _)
  · split
    · exact Outcome.returns_bind_pure_iff.mpr (returns_readRelay _)
    · split
      · exact Outcome.returns_bind_pure_iff.mpr (returns_readAuthor _ _ _)
      · split
        · exact Outcome.returns_bind_pure_iff.mpr (returns_readKind _)
        · exact Outcome.returns_ok _

theorem returns_finish (state : Fields × List UncheckedUrl) :
    (finish state).Returns := by
  unfold finish
  split
  · exact Outcome.returns_ok _
  · exact Outcome.returns_err _

theorem returns_tryFromBech32String (curve : Secp256k1) (bech32 : Bech32)
    (text : String) : (tryFromBech32String curve bech32 text).Returns := by
  refine Outcome.returns_bind_iff.mpr ⟨returns_decodeBech32 _ _ _, fun tlv _ => ?_⟩
  exact Outcome.returns_bind_iff.mpr
    ⟨returns_scanWhile (returns_step curve) _ _, fun _ _ => returns_finish _⟩

end NEvent

namespace Profile

/-- What is pushed, in this order. -/
def entries (profile : Profile) : List TlvEntry :=
  [(0, profile.pubkey.bytes.toList)] ++ relayEntries profile.relays

def asBech32String (bech32 : Bech32) (profile : Profile) :
    Outcome Error String :=
  encodeBech32 bech32 hrpNprofile (profile.entries.flatMap encodeTlv)

def step (curve : Secp256k1) (verify : Bool)
    (state : Option PublicKey × List UncheckedUrl) (entry : TlvEntry) :
    Outcome Error (Option PublicKey × List UncheckedUrl) :=
  if entry.1 = 0 then
    if entry.2.length ≠ 32 then .err .invalidProfile
    else do
      let pubkey ← PublicKey.fromBytes curve entry.2 verify
      return (some pubkey, state.2)
  else if entry.1 = 1 then do
    let relay ← readRelay entry.2
    return (state.1, state.2 ++ [relay])
  else return state

def finish (state : Option PublicKey × List UncheckedUrl) :
    Outcome Error Profile :=
  match state.1 with
  | some pubkey => .ok ⟨pubkey, state.2⟩
  | none => .err .invalidProfile

def readTlvs (curve : Secp256k1) (verify : Bool) (tlv : Bytes) :
    Outcome Error Profile := do
  let state ← scanLoop .invalidProfile (step curve verify) tlv 0 (none, [])
  finish state

def tryFromBech32String (curve : Secp256k1) (bech32 : Bech32) (text : String)
    (verify : Bool) : Outcome Error Profile := do
  let tlv ← decodeBech32 bech32 hrpNprofile text
  readTlvs curve verify tlv

theorem returns_step (curve : Secp256k1) (verify : Bool)
    (state : Option PublicKey × List UncheckedUrl) (entry : TlvEntry) :
    (step curve verify state entry).Returns := by
  unfold step
  split
  · split
    · exact Outcome.returns_err _
    · exact Outcome.returns_bind_pure_iff.mpr (PublicKey.returns_fromBytes _ _ _)
  · split
    · exact Outcome.returns_bind_pure_iff.mpr (returns_readRelay _)
    · exact Outcome.returns_ok _

theorem returns_finish (state : Option PublicKey × List UncheckedUrl) :
    (finish state).Returns := by
  unfold finish
  split
  · exact Outcome.returns_ok _
  · exact Outcome.returns_err _

/-- The bound of the loop is computed from the length of the payload. -/
theorem returns_tryFromBech32String_iff (curve : Secp256k1) (bech32 : Bech32)
    (text : String) (verify : Bool) :
    (tryFromBech32String curve bech32 text verify).Returns ↔
      ∀ tlv, decodeBech32 bech32 hrpNprofile text = .ok tlv → 2 ≤ tlv.length := by
  refine Outcome.returns_bind_iff.trans ?_
  rw [and_iff_right (returns_decodeBech32 _ _ _)]
  refine forall₂_congr fun tlv _ => Outcome.returns_bind_iff.trans ?_
  rw [returns_scanLoop_iff (returns_step curve verify)]
  exact and_iff_left fun _ _ => returns_finish _

end Profile

namespace Nrelay

/-- What is pushed: one special entry. -/
def entries (url : UncheckedUrl) : List TlvEntry :=
  [(0, cutToLengthByte (utf8 url.text))]

def asBech32String (bech32 : Bech32) (url : UncheckedUrl) :
    Outcome Error String :=
  encodeBech32 bech32 hrpNrelay ((entries url).flatMap encodeTlv)

def step (state : Option UncheckedUrl) (entry : TlvEntry) :
    Outcome Error (Option UncheckedUrl) :=
  if entry.1 = 0 then some <$> readRelay entry.2
  else return state

def finish (state : Option UncheckedUrl) : Outcome Error UncheckedUrl :=
  Outcome.okOr .invalidUrlTlv state

def readTlvs (tlv : Bytes) : Outcome Error UncheckedUrl := do
  let state ← scanLoop .invalidUrlTlv step tlv 0 none
  finish state

def tryFromBech32String (bech32 : Bech32) (text : String) :
    Outcome Error UncheckedUrl := do
  let tlv ← decodeBech32 bech32 hrpNrelay text
  readTlvs tlv

theorem returns_step (state : Option UncheckedUrl) (entry : TlvEntry) :
    (step state entry).Returns := by
  unfold step
  split
  · exact Outcome.returns_map_iff.mpr (returns_readRelay _)
  · exact Outcome.returns_ok _

theorem returns_tryFromBech32String_iff (bech32 : Bech32) (text : String) :
    (tryFromBech32String bech32 text).Returns ↔
      ∀ tlv, decodeBech32 bech32 hrpNrelay text = .ok tlv → 2 ≤ tlv.length := by
  refine Outcome.returns_bind_iff.trans ?_
  rw [and_iff_right (returns_decodeBech32 _ _ _)]
  refine forall₂_congr fun tlv _ => Outcome.returns_bind_iff.trans ?_
  rw [returns_scanLoop_iff returns_step]
  exact and_iff_left fun _ _ => Outcome.returns_okOr _ _

end Nrelay

end Types

end Gnostr
