/-
Public chats of `types/src/nostr/nip28.rs`: the events of a channel are lists of tags, and
their readers scan the tags and overwrite what they have found.  A message that is about
another one and names no relay comes back with an empty relay.
-/
import Gnostr.Signer.Signer
import Gnostr.Types.FileMetadata
import Gnostr.Types.TagRoundTrip

namespace Gnostr

namespace Types

namespace ChannelKind

def createChannel : EventKind := .wellKnown .channelCreation
def setChannelMetadata : EventKind := .wellKnown .channelMetadata
def createChannelMessage : EventKind := .wellKnown .channelMessage
def hideMessage : EventKind := .wellKnown .channelHideMessage
def muteUser : EventKind := .wellKnown .channelMuteUser

end ChannelKind

/-- What the creation of a channel or its metadata say. -/
structure ChannelInfo where
  channelId : String
  channelName : Option String
  channelDescription : Option String
  channelPicture : Option String
  relayUrl : Option UncheckedUrl
  pubkey : PublicKey

abbrev ChannelCreationEvent := ChannelInfo
abbrev ChannelMetadataEvent := ChannelInfo

structure ChannelMessageEvent where
  channelId : String
  message : String
  replyTo : Option Id
  rootMessage : Option Id
  pubkey : PublicKey
  relayUrl : Option UncheckedUrl

structure HideMessageEvent where
  channelId : String
  messageIdToHide : Id
  reason : Option String
  relayUrl : Option UncheckedUrl
  pubkey : PublicKey

structure MuteUserEvent where
  channelId : String
  userPubkey : PublicKey
  reason : Option String
  relayUrl : Option UncheckedUrl
  pubkey : PublicKey

section Write

/-- The tag of a value that may be missing, or empty. -/
def filledTag (name : String) (value : Option String) : List TagV3 :=
  optionalTag name (value.filter fun value => !value.isEmpty)

def relayTag (relayUrl : Option UncheckedUrl) : List TagV3 :=
  (relayUrl.map fun relay => TagV3.newRelay relay none).toList

def channelTags (channelId : String) (channelName channelDescription channelPicture :
    Option String) (relayUrl : Option UncheckedUrl) : List TagV3 :=
  TagV3.newIdentifier channelId :: (filledTag "name" channelName ++
    (filledTag "description" channelDescription ++
      (filledTag "picture" channelPicture ++ relayTag relayUrl)))

variable (prims : Primitives) (hex : Hex) {curve : Secp256k1} (schnorr : Schnorr curve)

/-- An event of the signer, made now and signed. -/
def signNow (signer : Signer curve) (now : Int64) (random : Vector UInt8 32)
    (kind : EventKind) (tags : List TagV3) (content : String) : Outcome Error EventV3 :=
  signer.signEvent prims hex schnorr ⟨signer.publicKey, now, kind, tags, content⟩ random

variable (signer : Signer curve) (now : Int64) (random : Vector UInt8 32)

def createChannel (channelId channelName channelDescription : String)
    (channelPicture : Option String) (relayUrl : Option UncheckedUrl) :
    Outcome Error EventV3 :=
  signNow prims hex schnorr signer now random ChannelKind.createChannel
    (channelTags channelId (some channelName) (some channelDescription) channelPicture
      relayUrl) ""

def setChannelMetadata (channelId : String) (channelName channelDescription channelPicture :
    Option String) (relayUrl : Option UncheckedUrl) : Outcome Error EventV3 :=
  signNow prims hex schnorr signer now random ChannelKind.setChannelMetadata
    (channelTags channelId channelName channelDescription channelPicture relayUrl) ""

/-- The tag of a message that this one is about. -/
def aboutTag (marker : String) (id : Option Id) (relayUrl : Option UncheckedUrl) :
    List TagV3 :=
  (id.map fun id => TagV3.newEvent hex id relayUrl (some marker)).toList

def createChannelMessage (channelId message : String) (replyToId rootMessageId : Option Id)
    (relayUrl : Option UncheckedUrl) : Outcome Error EventV3 :=
  signNow prims hex schnorr signer now random ChannelKind.createChannelMessage
    (TagV3.newIdentifier channelId :: (aboutTag hex "reply" replyToId relayUrl ++
      (aboutTag hex "root" rootMessageId relayUrl ++ relayTag relayUrl))) message

def hideMessage (channelId : String) (messageIdToHide : Id) (reason : Option String)
    (relayUrl : Option UncheckedUrl) : Outcome Error EventV3 :=
  let tags := TagV3.newIdentifier channelId ::
    TagV3.newEvent hex messageIdToHide relayUrl none ::
      (filledTag "reason" reason ++ relayTag relayUrl)
  signNow prims hex schnorr signer now random ChannelKind.hideMessage
    (tags.filter fun tag => tag.tagname != "p") ""

def muteUser (channelId : String) (userPubkey : PublicKey) (reason : Option String)
    (relayUrl : Option UncheckedUrl) : Outcome Error EventV3 :=
  signNow prims hex schnorr signer now random ChannelKind.muteUser
    (TagV3.newIdentifier channelId :: TagV3.newPubkey hex userPubkey relayUrl none ::
      (filledTag "reason" reason ++ relayTag relayUrl)) ""

end Write

section Read

/-- What has been found of a channel. -/
structure InfoFound where
  channelId : Option String
  channelName : Option String
  channelDescription : Option String
  channelPicture : Option String
  relayUrl : Option UncheckedUrl

/-- The tag has the name and a value. -/
def FilledAs (name : String) (tag : TagV3) : Prop :=
  tag.tagname = name ∧ ¬ tag.value.isEmpty

instance (name : String) (tag : TagV3) : Decidable (FilledAs name tag) :=
  inferInstanceAs (Decidable (_ ∧ _))

def InfoFound.read (found : InfoFound) (tag : TagV3) : InfoFound :=
  match tag.parseIdentifier with
  | .ok d => { found with channelId := some d }
  | _ =>
      if FilledAs "name" tag then { found with channelName := some tag.value }
      else if FilledAs "description" tag then
        { found with channelDescription := some tag.value }
      else if FilledAs "picture" tag then { found with channelPicture := some tag.value }
      else
        match tag.parseRelay with
        | .ok (url, _) => { found with relayUrl := some url }
        | _ => found

/-- The reader of the events of a kind that are about a channel. -/
def parseInfo (kind : EventKind) (event : EventV3) : Outcome Error ChannelInfo :=
  if event.kind ≠ kind then .err .wrongEventKind
  else
    let found := event.tags.foldl InfoFound.read ⟨none, none, none, none, none⟩
    match found.channelId with
    | some id =>
        .ok ⟨id, found.channelName, found.channelDescription, found.channelPicture,
          found.relayUrl, event.pubkey⟩
    | none => .err (.assertionFailed "Missing 'd' tag for channel ID.")

def parseChannelCreation : EventV3 → Outcome Error ChannelCreationEvent :=
  parseInfo ChannelKind.createChannel

def parseSetChannelMetadata : EventV3 → Outcome Error ChannelMetadataEvent :=
  parseInfo ChannelKind.setChannelMetadata

variable (curve : Secp256k1) (hex : Hex)

/-- What has been found of a message. -/
structure MessageFound where
  channelId : Option String
  replyTo : Option Id
  rootMessage : Option Id
  relayUrl : Option UncheckedUrl

def MessageFound.read (found : MessageFound) (tag : TagV3) : MessageFound :=
  match tag.parseIdentifier with
  | .ok d => { found with channelId := some d }
  | _ =>
      match tag.parseEvent hex with
      | .ok (id, recommendedRelayUrl, marker) =>
          if marker = some "reply" then
            { found with replyTo := some id, relayUrl := recommendedRelayUrl }
          else if marker = some "root" then
            { found with rootMessage := some id, relayUrl := recommendedRelayUrl }
          else found
      | _ =>
          match tag.parseRelay with
          | .ok (url, _) => { found with relayUrl := found.relayUrl.or (some url) }
          | _ => found

def parseChannelMessage (event : EventV3) : Outcome Error ChannelMessageEvent :=
  if event.kind ≠ ChannelKind.createChannelMessage then .err .wrongEventKind
  else
    let found := event.tags.foldl (MessageFound.read hex) ⟨none, none, none, none⟩
    match found.channelId with
    | some id =>
        .ok ⟨id, event.content, found.replyTo, found.rootMessage, event.pubkey,
          found.relayUrl⟩
    | none => .err (.assertionFailed "Missing 'd' tag for channel ID.")

/-- What has been found of an event that hides or mutes something. -/
structure TargetFound (α : Type) where
  channelId : Option String
  target : Option α
  reason : Option String
  relayUrl : Option UncheckedUrl

/-- The scan for a target; the targets are read, and stored, each in its own way. -/
def TargetFound.read {α : Type} (readTarget : TagV3 → Option (α × Option UncheckedUrl))
    (store : TargetFound α → α → Option UncheckedUrl → TargetFound α)
    (found : TargetFound α) (tag : TagV3) : TargetFound α :=
  match tag.parseIdentifier with
  | .ok d => { found with channelId := some d }
  | _ =>
      match readTarget tag with
      | some (target, recommendedRelayUrl) => store found target recommendedRelayUrl
      | none =>
          match tag.parseRelay with
          | .ok (url, _) => { found with relayUrl := found.relayUrl.or (some url) }
          | _ =>
              if FilledAs "reason" tag then { found with reason := some tag.value }
              else found

/-- The first event tag is the message to hide. -/
def storeFirst (found : TargetFound Id) (id : Id) (relayUrl : Option UncheckedUrl) :
    TargetFound Id :=
  if found.target = none then { found with target := some id, relayUrl } else found

def parseHideMessage (event : EventV3) : Outcome Error HideMessageEvent :=
  if event.kind ≠ ChannelKind.hideMessage then .err .wrongEventKind
  else
    let readTarget (tag : TagV3) := (tag.parseEvent hex).toOption.map fun read =>
      (read.1, read.2.1)
    let found := event.tags.foldl (TargetFound.read readTarget storeFirst)
      ⟨none, none, none, none⟩
    match found.channelId, found.target with
    | some id, some messageId =>
        .ok ⟨id, messageId, found.reason, found.relayUrl, event.pubkey⟩
    | none, _ => .err (.assertionFailed "Missing 'd' tag for channel ID.")
    | _, none => .err (.assertionFailed "Missing 'e' tag for message ID.")

/-- The last public key is the muted user. -/
def storeLast (found : TargetFound PublicKey) (pubkey : PublicKey)
    (relayUrl : Option UncheckedUrl) : TargetFound PublicKey :=
  { found with target := some pubkey, relayUrl }

def parseMuteUser (event : EventV3) : Outcome Error MuteUserEvent :=
  if event.kind ≠ ChannelKind.muteUser then .err .wrongEventKind
  else
    let readTarget (tag : TagV3) := (tag.parsePubkey curve hex).toOption.map fun read =>
      (read.1, read.2.1)
    let found := event.tags.foldl (TargetFound.read readTarget storeLast)
      ⟨none, none, none, none⟩
    match found.channelId, found.target with
    | some id, some pubkey => .ok ⟨id, pubkey, found.reason, found.relayUrl, event.pubkey⟩
    | none, _ => .err (.assertionFailed "Missing 'd' tag for channel ID.")
    | _, none => .err (.assertionFailed "Missing 'p' tag for user public key.")

end Read

section Scan

/-- What is given for a tag that may be missing is not empty. -/
def Filled (value : Option String) : Prop := value ≠ some ""

variable {value : Option String} {relayUrl : Option UncheckedUrl}

theorem filter_of_filled (hfilled : Filled value) :
    (value.filter fun value => !value.isEmpty) = value := by
  cases value with
  | none => rfl
  | some text =>
      have hne : text ≠ "" := fun heq => hfilled (congrArg some heq)
      simp [Option.filter_some, hne]

/-- A scan over the tag of a value that may be missing stores the value if it is given. -/
theorem foldl_filledTag {σ : Type} {read : σ → TagV3 → σ} {name : String} {found : σ}
    {set : Option String → σ} (hfilled : Filled value) (hnone : set none = found)
    (hread : ∀ text, text ≠ "" → read found ⟨[name, text]⟩ = set (some text)) :
    (filledTag name value).foldl read found = set value := by
  rw [filledTag, filter_of_filled hfilled]
  cases value with
  | none => exact hnone.symm
  | some text => exact hread text fun heq => hfilled (congrArg some heq)

@[simp] theorem filledAs_pair {name tagname text : String} :
    FilledAs name ⟨[tagname, text]⟩ ↔ tagname = name ∧ text ≠ "" := by
  simp [FilledAs, TagV3.tagname, TagV3.value, TagV3.getIndex]

@[simp] theorem TagV3.parseIdentifier_pair {tagname text : String} (hne : tagname ≠ "d") :
    TagV3.parseIdentifier ⟨[tagname, text]⟩ = .err .tagMismatch :=
  if_pos hne

theorem TagV3.parseRelay_pair {tagname text : String} (hne : tagname ≠ "r") :
    TagV3.parseRelay ⟨[tagname, text]⟩ = .err .tagMismatch :=
  if_pos hne

namespace InfoFound

variable (found : InfoFound)

@[simp] theorem read_newIdentifier (channelId : String) :
    found.read (TagV3.newIdentifier channelId) =
      { found with channelId := some channelId } :=
  rfl

theorem foldl_read_relayTag :
    (relayTag relayUrl).foldl read found =
      { found with relayUrl := relayUrl.or found.relayUrl } := by
  cases relayUrl <;> rfl

theorem foldl_read_name (hfilled : Filled value) :
    (filledTag "name" value).foldl read found =
      { found with channelName := value.or found.channelName } :=
  @foldl_filledTag _ _ read _ _ (fun value => { found with channelName := value.or _ })
    hfilled rfl fun text hne => by simp [read, hne, TagV3.value, TagV3.getIndex]

theorem foldl_read_description (hfilled : Filled value) :
    (filledTag "description" value).foldl read found =
      { found with channelDescription := value.or found.channelDescription } :=
  @foldl_filledTag _ _ read _ _
    (fun value => { found with channelDescription := value.or _ }) hfilled rfl
    fun text hne => by simp [read, hne, TagV3.value, TagV3.getIndex]

theorem foldl_read_picture (hfilled : Filled value) :
    (filledTag "picture" value).foldl read found =
      { found with channelPicture := value.or found.channelPicture } :=
  @foldl_filledTag _ _ read _ _ (fun value => { found with channelPicture := value.or _ })
    hfilled rfl fun text hne => by simp [read, hne, TagV3.value, TagV3.getIndex]

/-- The tags of a channel say what they were made of. -/
theorem foldl_read_channelTags {channelName channelDescription channelPicture :
      Option String} (channelId : String) (hname : Filled channelName)
    (hdescription : Filled channelDescription) (hpicture : Filled channelPicture) :
    (channelTags channelId channelName channelDescription channelPicture relayUrl).foldl
        read ⟨none, none, none, none, none⟩ =
      ⟨some channelId, channelName, channelDescription, channelPicture, relayUrl⟩ := by
  simp only [channelTags, List.foldl_cons, List.foldl_append, read_newIdentifier,
    foldl_read_name _ hname, foldl_read_description _ hdescription,
    foldl_read_picture _ hpicture, foldl_read_relayTag, Option.or_none]

end InfoFound

namespace MessageFound

variable {hex : Hex} (found : MessageFound)

@[simp] theorem read_newIdentifier (channelId : String) :
    found.read hex (TagV3.newIdentifier channelId) =
      { found with channelId := some channelId } :=
  rfl

theorem read_newEvent {marker : String} (id : Id) :
    found.read hex (TagV3.newEvent hex id relayUrl (some marker)) =
      if marker = "reply" then
        { found with replyTo := some id, relayUrl := relayUrl.or (some ⟨""⟩) }
      else if marker = "root" then
        { found with rootMessage := some id, relayUrl := relayUrl.or (some ⟨""⟩) }
      else found := by
  have hidentifier : (TagV3.newEvent hex id relayUrl (some marker)).parseIdentifier =
      .err .tagMismatch := rfl
  rw [read, hidentifier, TagV3.parseEvent_newEvent]
  simp

theorem foldl_read_relayTag :
    (relayTag relayUrl).foldl (read hex) found =
      { found with relayUrl := found.relayUrl.or relayUrl } := by
  cases relayUrl with
  | none => simp [relayTag]
  | some relay => rfl

/-- Only when a message is named, an absent relay is found as an empty one. -/
theorem foldl_read_message (channelId : String) (replyToId rootMessageId : Option Id) :
    (TagV3.newIdentifier channelId :: (aboutTag hex "reply" replyToId relayUrl ++
        (aboutTag hex "root" rootMessageId relayUrl ++ relayTag relayUrl))).foldl (read hex)
        ⟨none, none, none, none⟩ =
      ⟨some channelId, replyToId, rootMessageId,
        relayUrl.or ((replyToId.or rootMessageId).map fun _ => ⟨""⟩)⟩ := by
  rw [List.foldl_cons, List.foldl_append, List.foldl_append, foldl_read_relayTag]
  cases replyToId <;> cases rootMessageId <;> cases relayUrl <;>
    simp [aboutTag, read_newEvent]

end MessageFound

namespace TargetFound

variable {α : Type} {readTarget : TagV3 → Option (α × Option UncheckedUrl)}
  {store : TargetFound α → α → Option UncheckedUrl → TargetFound α} (found : TargetFound α)

@[simp] theorem read_newIdentifier (channelId : String) :
    found.read readTarget store (TagV3.newIdentifier channelId) =
      { found with channelId := some channelId } :=
  rfl

/-- No other tag of the writers is read as a target. -/
structure ReadsOnly (readTarget : TagV3 → Option (α × Option UncheckedUrl)) : Prop where
  reason : ∀ text, readTarget ⟨["reason", text]⟩ = none
  relay : ∀ url, readTarget (TagV3.newRelay url none) = none

variable (hreads : ReadsOnly readTarget)

include hreads

theorem foldl_read_relayTag :
    (relayTag relayUrl).foldl (read readTarget store) found =
      { found with relayUrl := found.relayUrl.or relayUrl } := by
  cases relayUrl with
  | none => simp [relayTag]
  | some relay =>
      have hidentifier : (TagV3.newRelay relay none).parseIdentifier =
          .err .tagMismatch := rfl
      change found.read readTarget store (TagV3.newRelay relay none) = _
      rw [read, hidentifier, hreads.relay]
      rfl

theorem foldl_read_reason (hfilled : Filled value) :
    (filledTag "reason" value).foldl (read readTarget store) found =
      { found with reason := value.or found.reason } :=
  @foldl_filledTag _ _ (read readTarget store) _ _
    (fun value => { found with reason := value.or _ }) hfilled rfl fun text hne => by
      simp [read, hne, hreads.reason, TagV3.parseRelay_pair, TagV3.value, TagV3.getIndex]

/-- A scan finds the target that is stored, the reason and the relay. -/
theorem foldl_read_target {tag : TagV3} {target : α} (channelId : String)
    (hidentifier : tag.parseIdentifier = .err .tagMismatch)
    (htarget : readTarget tag = some (target, relayUrl))
    (hstore : store ⟨some channelId, none, none, none⟩ target relayUrl =
      ⟨some channelId, some target, none, relayUrl⟩) (hreason : Filled value) :
    (TagV3.newIdentifier channelId :: tag :: (filledTag "reason" value ++
        relayTag relayUrl)).foldl (read readTarget store) ⟨none, none, none, none⟩ =
      ⟨some channelId, some target, value, relayUrl⟩ := by
  have hread : read readTarget store ⟨some channelId, none, none, none⟩ tag =
      ⟨some channelId, some target, none, relayUrl⟩ := by
    rw [read, hidentifier, htarget]
    exact hstore
  rw [List.foldl_cons, List.foldl_cons, read_newIdentifier, hread, List.foldl_append,
    foldl_read_reason _ hreads hreason, foldl_read_relayTag _ hreads]
  simp

end TargetFound

end Scan

/-- A call of a writer; an absent name or description of a new channel is an empty text. -/
inductive ChannelCall where
  | createChannel (channelId : String) (channelName channelDescription channelPicture :
      Option String) (relayUrl : Option UncheckedUrl)
  | setChannelMetadata (channelId : String) (channelName channelDescription channelPicture :
      Option String) (relayUrl : Option UncheckedUrl)
  | createChannelMessage (channelId message : String) (replyToId rootMessageId : Option Id)
      (relayUrl : Option UncheckedUrl)
  | hideMessage (channelId : String) (messageIdToHide : Id) (reason : Option String)
      (relayUrl : Option UncheckedUrl)
  | muteUser (channelId : String) (userPubkey : PublicKey) (reason : Option String)
      (relayUrl : Option UncheckedUrl)

namespace ChannelCall

section Spec

variable (prims : Primitives) (hex : Hex) {curve : Secp256k1} (schnorr : Schnorr curve)
  (signer : Signer curve) (now : Int64) (random : Vector UInt8 32)

/-- The event that the call produces. -/
def write : ChannelCall → Outcome Error EventV3
  | .createChannel channelId channelName channelDescription channelPicture relayUrl =>
      Types.createChannel prims hex schnorr signer now random channelId
        (channelName.getD "") (channelDescription.getD "") channelPicture relayUrl
  | .setChannelMetadata channelId channelName channelDescription channelPicture relayUrl =>
      Types.setChannelMetadata prims hex schnorr signer now random channelId channelName
        channelDescription channelPicture relayUrl
  | .createChannelMessage channelId message replyToId rootMessageId relayUrl =>
      Types.createChannelMessage prims hex schnorr signer now random channelId message
        replyToId rootMessageId relayUrl
  | .hideMessage channelId messageIdToHide reason relayUrl =>
      Types.hideMessage prims hex schnorr signer now random channelId messageIdToHide reason
        relayUrl
  | .muteUser channelId userPubkey reason relayUrl =>
      Types.muteUser prims hex schnorr signer now random channelId userPubkey reason
        relayUrl

/-- The optional texts that are given are not empty. -/
def AllFilled : ChannelCall → Prop
  | .createChannel _ channelName channelDescription channelPicture _ =>
      Filled channelName ∧ Filled channelDescription ∧ Filled channelPicture
  | .setChannelMetadata _ channelName channelDescription channelPicture _ =>
      Filled channelName ∧ Filled channelDescription ∧ Filled channelPicture
  | .createChannelMessage _ _ _ _ _ => True
  | .hideMessage _ _ reason _ => Filled reason
  | .muteUser _ _ reason _ => Filled reason

/-- The parser of the event returns what was given, and the public key. -/
def ComesBack (curve : Secp256k1) (pubkey : PublicKey) (event : EventV3) :
    ChannelCall → Prop
  | .createChannel channelId channelName channelDescription channelPicture relayUrl =>
      parseChannelCreation event = .ok
        ⟨channelId, channelName, channelDescription, channelPicture, relayUrl, pubkey⟩
  | .setChannelMetadata channelId channelName channelDescription channelPicture relayUrl =>
      parseSetChannelMetadata event = .ok
        ⟨channelId, channelName, channelDescription, channelPicture, relayUrl, pubkey⟩
  | .createChannelMessage channelId message replyToId rootMessageId relayUrl =>
      parseChannelMessage hex event = .ok
        ⟨channelId, message, replyToId, rootMessageId, pubkey, relayUrl⟩
  | .hideMessage channelId messageIdToHide reason relayUrl =>
      parseHideMessage hex event =
        .ok ⟨channelId, messageIdToHide, reason, relayUrl, pubkey⟩
  | .muteUser channelId userPubkey reason relayUrl =>
      parseMuteUser curve hex event = .ok ⟨channelId, userPubkey, reason, relayUrl, pubkey⟩

/-- A message that is about another one names a relay, and a muted key is on the curve. -/
def Restorable (curve : Secp256k1) : ChannelCall → Prop
  | .createChannelMessage _ _ replyToId rootMessageId relayUrl =>
      relayUrl = none → replyToId = none ∧ rootMessageId = none
  | .muteUser _ userPubkey _ _ => userPubkey.Verified curve
  | _ => True

end Spec

section RoundTrip

variable {prims : Primitives} {hex : Hex} {curve : Secp256k1} {schnorr : Schnorr curve}
  {signer : Signer curve} {now : Int64} {random : Vector UInt8 32} {event : EventV3}

theorem of_signNow {kind : EventKind} {tags : List TagV3} {content : String}
    (hsigned : signNow prims hex schnorr signer now random kind tags content = .ok event) :
    event.kind = kind ∧ event.tags = tags ∧ event.content = content ∧
      event.pubkey = signer.publicKey := by
  obtain ⟨hfields, -⟩ := Signer.exists_of_signEvent hsigned
  have hparts := PreEventV3.mk.inj hfields
  exact ⟨hparts.2.2.1, hparts.2.2.2.1, hparts.2.2.2.2, hparts.1⟩

theorem filledTag_getD (name : String) (value : Option String) :
    filledTag name (some (value.getD "")) = filledTag name value := by
  cases value <;> rfl

theorem parseInfo_eq_ok {kind : EventKind} {channelName channelDescription channelPicture :
      Option String} {relayUrl : Option UncheckedUrl} {channelId : String}
    (hname : Filled channelName) (hdescription : Filled channelDescription)
    (hpicture : Filled channelPicture) (hkind : event.kind = kind)
    (htags : event.tags =
      channelTags channelId channelName channelDescription channelPicture relayUrl) :
    parseInfo kind event = .ok ⟨channelId, channelName, channelDescription, channelPicture,
      relayUrl, event.pubkey⟩ := by
  rw [parseInfo, if_neg (not_not_intro hkind), htags,
    InfoFound.foldl_read_channelTags channelId hname hdescription hpicture]

theorem filter_hideTags (channelId : String) (messageIdToHide : Id) (reason : Option String)
    (relayUrl : Option UncheckedUrl) :
    ((TagV3.newIdentifier channelId :: TagV3.newEvent hex messageIdToHide relayUrl none ::
      (filledTag "reason" reason ++ relayTag relayUrl)).filter
        fun tag => tag.tagname != "p") =
      TagV3.newIdentifier channelId :: TagV3.newEvent hex messageIdToHide relayUrl none ::
        (filledTag "reason" reason ++ relayTag relayUrl) := by
  rw [List.filter_eq_self, List.forall_mem_cons, List.forall_mem_cons,
    List.forall_mem_append]
  refine ⟨rfl, rfl, fun tag htag => ?_, fun tag htag => ?_⟩
  · rw [filledTag, optionalTag, Option.mem_toList, Option.map_eq_some_iff] at htag
    obtain ⟨text, -, rfl⟩ := htag
    rfl
  · rw [relayTag, Option.mem_toList, Option.map_eq_some_iff] at htag
    obtain ⟨relay, -, rfl⟩ := htag
    rfl

theorem parseHideMessage_eq_ok {channelId : String} {messageIdToHide : Id}
    {reason : Option String} {relayUrl : Option UncheckedUrl} (hreason : Filled reason)
    (hkind : event.kind = ChannelKind.hideMessage)
    (htags : event.tags =
      TagV3.newIdentifier channelId :: TagV3.newEvent hex messageIdToHide relayUrl none ::
        (filledTag "reason" reason ++ relayTag relayUrl)) :
    parseHideMessage hex event =
      .ok ⟨channelId, messageIdToHide, reason, relayUrl, event.pubkey⟩ := by
  have hfound := @TargetFound.foldl_read_target reason relayUrl _
    (fun tag => (tag.parseEvent hex).toOption.map fun read => (read.1, read.2.1)) storeFirst
    ⟨fun _ => rfl, fun _ => rfl⟩ (TagV3.newEvent hex messageIdToHide relayUrl none)
    messageIdToHide channelId rfl (by simp [TagV3.parseEvent_newEvent]) rfl hreason
  rw [parseHideMessage, if_neg (not_not_intro hkind), htags]
  dsimp only
  rw [hfound]

/-- A muted user is read exactly when the key is on the curve. -/
theorem parseMuteUser_eq_ok_iff {channelId : String} {userPubkey : PublicKey}
    {reason : Option String} {relayUrl : Option UncheckedUrl} (hreason : Filled reason)
    (hkind : event.kind = ChannelKind.muteUser)
    (htags : event.tags =
      TagV3.newIdentifier channelId :: TagV3.newPubkey hex userPubkey relayUrl none ::
        (filledTag "reason" reason ++ relayTag relayUrl)) :
    parseMuteUser curve hex event =
        .ok ⟨channelId, userPubkey, reason, relayUrl, event.pubkey⟩ ↔
      userPubkey.Verified curve := by
  have hidentifier : (TagV3.newPubkey hex userPubkey relayUrl none).parseIdentifier =
      .err .tagMismatch := rfl
  let readTarget (tag : TagV3) :=
    (tag.parsePubkey curve hex).toOption.map fun read => (read.1, read.2.1)
  have hreads : TargetFound.ReadsOnly readTarget := ⟨fun _ => rfl, fun _ => rfl⟩
  rw [parseMuteUser, if_neg (not_not_intro hkind), htags]
  by_cases hverified : userPubkey.Verified curve
  · have hfound := @TargetFound.foldl_read_target reason relayUrl _ readTarget storeLast
      hreads (TagV3.newPubkey hex userPubkey relayUrl none) userPubkey channelId hidentifier
      (by simp [readTarget, TagV3.parsePubkey_newPubkey_eq, hverified]) rfl hreason
    dsimp only
    rw [hfound]
    exact iff_of_true rfl hverified
  · have htarget : readTarget (TagV3.newPubkey hex userPubkey relayUrl none) = none := by
      simp [readTarget, TagV3.parsePubkey_newPubkey_eq, hverified]
    have hskipped : TargetFound.read readTarget storeLast
        ⟨some channelId, none, none, none⟩
        (TagV3.newPubkey hex userPubkey relayUrl none) =
          ⟨some channelId, none, none, none⟩ := by
      rw [TargetFound.read, hidentifier, htarget]
      rfl
    have hfound : (TagV3.newIdentifier channelId ::
        TagV3.newPubkey hex userPubkey relayUrl none :: (filledTag "reason" reason ++
          relayTag relayUrl)).foldl (TargetFound.read readTarget storeLast)
          ⟨none, none, none, none⟩ = ⟨some channelId, none, reason, relayUrl⟩ := by
      rw [List.foldl_cons, List.foldl_cons, TargetFound.read_newIdentifier, hskipped,
        List.foldl_append, TargetFound.foldl_read_reason _ hreads hreason,
        TargetFound.foldl_read_relayTag _ hreads]
      simp
    dsimp only
    rw [hfound]
    exact iff_of_false (fun herr => by cases herr) hverified

/-- What is given comes back exactly when the call is restorable. -/
theorem comesBack_iff_restorable {call : ChannelCall} (hfilled : call.AllFilled)
    (hsigned : call.write prims hex schnorr signer now random = .ok event) :
    call.ComesBack hex curve signer.publicKey event ↔ call.Restorable curve := by
  cases call with
  | createChannel channelId channelName channelDescription channelPicture relayUrl =>
      obtain ⟨hkind, htags, -, hpubkey⟩ := of_signNow hsigned
      rw [channelTags, filledTag_getD, filledTag_getD, ← channelTags] at htags
      refine iff_of_true ?_ trivial
      rw [ComesBack, parseChannelCreation, parseInfo_eq_ok hfilled.1 hfilled.2.1 hfilled.2.2
        hkind htags, hpubkey]
  | setChannelMetadata channelId channelName channelDescription channelPicture relayUrl =>
      obtain ⟨hkind, htags, -, hpubkey⟩ := of_signNow hsigned
      refine iff_of_true ?_ trivial
      rw [ComesBack, parseSetChannelMetadata, parseInfo_eq_ok hfilled.1 hfilled.2.1
        hfilled.2.2 hkind htags, hpubkey]
  | createChannelMessage channelId message replyToId rootMessageId relayUrl =>
      obtain ⟨hkind, htags, hcontent, hpubkey⟩ := of_signNow hsigned
      rw [ComesBack, parseChannelMessage, if_neg (not_not_intro hkind), htags,
        MessageFound.foldl_read_message, hcontent, hpubkey, Restorable]
      cases relayUrl <;> cases replyToId <;> cases rootMessageId <;> simp
  | hideMessage channelId messageIdToHide reason relayUrl =>
      obtain ⟨hkind, htags, -, hpubkey⟩ := of_signNow hsigned
      rw [filter_hideTags] at htags
      refine iff_of_true ?_ trivial
      rw [ComesBack, parseHideMessage_eq_ok hfilled hkind htags, hpubkey]
  | muteUser channelId userPubkey reason relayUrl =>
      obtain ⟨hkind, htags, -, hpubkey⟩ := of_signNow hsigned
      rw [ComesBack, ← hpubkey]
      exact parseMuteUser_eq_ok_iff hfilled hkind htags

/-- A reply in a channel, with a relay or without one. -/
def reply (relayUrl : Option UncheckedUrl) : ChannelCall :=
  .createChannelMessage "gnostr" "gm" (some ⟨Vector.replicate 32 1⟩) none relayUrl

theorem exists_write_reply (relayUrl : Option UncheckedUrl) : ∃ event,
    (reply relayUrl).write .transparent .reference (.permissive .permissive)
      PrivateKey.secretOne.toSigner 1700000000 (Vector.replicate 32 0) = .ok event :=
  ⟨_, rfl⟩

theorem comesBack_reply : ∃ event,
    (reply (some ⟨"wss://relay.example.com"⟩)).write .transparent .reference
      (.permissive .permissive) PrivateKey.secretOne.toSigner 1700000000
      (Vector.replicate 32 0) = .ok event ∧
    (reply (some ⟨"wss://relay.example.com"⟩)).ComesBack .reference .permissive
      PrivateKey.secretOne.toSigner.publicKey event := by
  obtain ⟨event, hwritten⟩ := exists_write_reply (some ⟨"wss://relay.example.com"⟩)
  have hfilled : (reply (some ⟨"wss://relay.example.com"⟩)).AllFilled := trivial
  exact ⟨event, hwritten, (comesBack_iff_restorable hfilled hwritten).mpr nofun⟩

/-- Without a relay a reply comes back with an empty one. -/
theorem not_comesBack_reply : ∃ event,
    (reply none).write .transparent .reference (.permissive .permissive)
      PrivateKey.secretOne.toSigner 1700000000 (Vector.replicate 32 0) = .ok event ∧
    ¬ (reply none).ComesBack .reference .permissive
      PrivateKey.secretOne.toSigner.publicKey event := by
  obtain ⟨event, hwritten⟩ := exists_write_reply none
  refine ⟨event, hwritten, fun hback => ?_⟩
  rw [reply, write, Types.createChannelMessage] at hwritten
  obtain ⟨hkind, htags, -, -⟩ := of_signNow hwritten
  rw [reply, ComesBack, parseChannelMessage, if_neg (not_not_intro hkind), htags,
    MessageFound.foldl_read_message] at hback
  have hrelay := congrArg ChannelMessageEvent.relayUrl (Outcome.ok.inj hback)
  cases hrelay

end RoundTrip

end ChannelCall

end Types

end Gnostr
