/-
Event kinds, as the macro of `types/src/nostr/event_kind.rs` defines them: a
table of well-known kinds, ranges of kinds that carry their number, and the
rest.
-/
import Mathlib.Data.List.Basic

namespace Gnostr

namespace Types

/-- The kinds that have a name. -/
inductive WellKnownKind where
  | metadata
  | textNote
  | recommendRelay
  | contactList
  | encryptedDirectMessage
  | eventDeletion
  | repost
  | reaction
  | badgeAward
  | groupChatMessage
  | groupChatThreadedReply
  | groupChatThread
  | groupChatReply
  | «seal»
  | dmChat
  | genericRepost
  | channelCreation
  | channelMetadata
  | channelMessage
  | channelHideMessage
  | channelMuteUser
  | bid
  | bidConfirmation
  | timestamp
  | giftWrap
  | fileMetadata
  | liveChatMessage
  | patches
  | gitIssue
  | gitReply
  | gitStatusOpen
  | gitStatusApplied
  | gitStatusClosed
  | gitStatusDraft
  | problemTracker
  | reporting
  | label
  | communityPost
  | communityPostApproval
  | jobFeedback
  | zapGoal
  | zapRequest
  | zap
  | highlights
  | muteList
  | pinList
  | relayList
  | bookmarkList
  | communityList
  | publicChatsList
  | blockedRelaysList
  | searchRelaysList
  | userGroups
  | interestsList
  | userEmojiList
  | dmRelayList
  | fileStorageServerList
  | walletInfo
  | lightningPubRpc
  | auth
  | walletRequest
  | walletResponse
  | nostrConnect
  | httpAuth
  | followSets
  | genericSets
  | relaySets
  | bookmarkSets
  | curationSets
  | profileBadges
  | badgeDefinition
  | interestSets
  | createUpdateStall
  | createUpdateProduct
  | marketplaceUi
  | productSoldAuction
  | longFormContent
  | draftLongFormContent
  | emojiSets
  | releaseArtifactSets
  | appSpecificData
  | liveEvent
  | userStatus
  | classifiedListing
  | draftClassifiedListing
  | repositoryAnnouncement
  | gitRepoAnnouncement
  | wikiArticle
  | dateBasedCalendarEvent
  | timeBasedCalendarEvent
  | calendar
  | calendarEventRsvp
  | handlerRecommendation
  | handlerInformation
  | communityDefinition
deriving Repr, DecidableEq

namespace WellKnownKind

/-- The number of a well-known kind. -/
def value : WellKnownKind → UInt32
  | metadata => 0
  | textNote => 1
  | recommendRelay => 2
  | contactList => 3
  | encryptedDirectMessage => 4
  | eventDeletion => 5
  | repost => 6
  | reaction => 7
  | badgeAward => 8
  | groupChatMessage => 9
  | groupChatThreadedReply => 10
  | groupChatThread => 11
  | groupChatReply => 12
  | «seal» => 13
  | dmChat => 14
  | genericRepost => 16
  | channelCreation => 40
  | channelMetadata => 41
  | channelMessage => 42
  | channelHideMessage => 43
  | channelMuteUser => 44
  | bid => 1021
  | bidConfirmation => 1022
  | timestamp => 1040
  | giftWrap => 1059
  | fileMetadata => 1063
  | liveChatMessage => 1311
  | patches => 1617
  | gitIssue => 1621
  | gitReply => 1622
  | gitStatusOpen => 1630
  | gitStatusApplied => 1631
  | gitStatusClosed => 1632
  | gitStatusDraft => 1633
  | problemTracker => 1971
  | reporting => 1984
  | label => 1985
  | communityPost => 4549
  | communityPostApproval => 4550
  | jobFeedback => 7000
  | zapGoal => 9041
  | zapRequest => 9734
  | zap => 9735
  | highlights => 9802
  | muteList => 10000
  | pinList => 10001
  | relayList => 10002
  | bookmarkList => 10003
  | communityList => 10004
  | publicChatsList => 10005
  | blockedRelaysList => 10006
  | searchRelaysList => 10007
  | userGroups => 10009
  | interestsList => 10015
  | userEmojiList => 10030
  | dmRelayList => 10050
  | fileStorageServerList => 10096
  | walletInfo => 13194
  | lightningPubRpc => 21000
  | auth => 22242
  | walletRequest => 23194
  | walletResponse => 23195
  | nostrConnect => 24133
  | httpAuth => 27235
  | followSets => 30000
  | genericSets => 30001
  | relaySets => 30002
  | bookmarkSets => 30003
  | curationSets => 30004
  | profileBadges => 30008
  | badgeDefinition => 30009
  | interestSets => 30015
  | createUpdateStall => 30017
  | createUpdateProduct => 30018
  | marketplaceUi => 30019
  | productSoldAuction => 30020
  | longFormContent => 30023
  | draftLongFormContent => 30024
  | emojiSets => 30030
  | releaseArtifactSets => 30063
  | appSpecificData => 30078
  | liveEvent => 30311
  | userStatus => 30315
  | classifiedListing => 30402
  | draftClassifiedListing => 30403
  | repositoryAnnouncement => 30617
  | gitRepoAnnouncement => 30618
  | wikiArticle => 30818
  | dateBasedCalendarEvent => 31922
  | timeBasedCalendarEvent => 31923
  | calendar => 31924
  | calendarEventRsvp => 31925
  | handlerRecommendation => 31989
  | handlerInformation => 31990
  | communityDefinition => 34550

/-- `WELL_KNOWN_KINDS`, in the order of the table. -/
def all : List WellKnownKind :=
  [metadata, textNote, recommendRelay, contactList,
    encryptedDirectMessage, eventDeletion, repost, reaction, badgeAward,
    groupChatMessage, groupChatThreadedReply, groupChatThread,
    groupChatReply, «seal», dmChat, genericRepost, channelCreation,
    channelMetadata, channelMessage, channelHideMessage, channelMuteUser,
    bid, bidConfirmation, timestamp, giftWrap, fileMetadata,
    liveChatMessage, patches, gitIssue, gitReply, gitStatusOpen,
    gitStatusApplied, gitStatusClosed, gitStatusDraft, problemTracker,
    reporting, label, communityPost, communityPostApproval, jobFeedback,
    zapGoal, zapRequest, zap, highlights, muteList, pinList, relayList,
    bookmarkList, communityList, publicChatsList, blockedRelaysList,
    searchRelaysList, userGroups, interestsList, userEmojiList,
    dmRelayList, fileStorageServerList, walletInfo, lightningPubRpc, auth,
    walletRequest, walletResponse, nostrConnect, httpAuth, followSets,
    genericSets, relaySets, bookmarkSets, curationSets, profileBadges,
    badgeDefinition, interestSets, createUpdateStall, createUpdateProduct,
    marketplaceUi, productSoldAuction, longFormContent,
    draftLongFormContent, emojiSets, releaseArtifactSets, appSpecificData,
    liveEvent, userStatus, classifiedListing, draftClassifiedListing,
    repositoryAnnouncement, gitRepoAnnouncement, wikiArticle,
    dateBasedCalendarEvent, timeBasedCalendarEvent, calendar,
    calendarEventRsvp, handlerRecommendation, handlerInformation,
    communityDefinition]

end WellKnownKind

/-- A kind of event. -/
inductive EventKind where
  | wellKnown (kind : WellKnownKind)
  /-- Job Request, 5000-5999. -/
  | jobRequest (number : UInt32)
  /-- Job Result, 6000-6999. -/
  | jobResult (number : UInt32)
  /-- Group control events, 9000-9030. -/
  | groupControl (number : UInt32)
  /-- Relay-specific replaceable event. -/
  | replaceable (number : UInt32)
  /-- Ephemeral event, not to be stored. -/
  | ephemeral (number : UInt32)
  | groupMetadata (number : UInt32)
  | other (number : UInt32)
deriving Repr, DecidableEq

namespace EventKind

/-- `u32::from`. -/
def toU32 : EventKind → UInt32
  | wellKnown kind => kind.value
  | jobRequest number => number
  | jobResult number => number
  | groupControl number => number
  | replaceable number => number
  | ephemeral number => number
  | groupMetadata number => number
  | other number => number

/-- `EventKind::from`: a number of the table is the kind named there, also
within a range. -/
def ofU32 (number : UInt32) : EventKind :=
  match WellKnownKind.all.find? fun kind => kind.value == number with
  | some kind => wellKnown kind
  | none =>
      if 5000 ≤ number ∧ number ≤ 5999 then jobRequest number
      else if 6000 ≤ number ∧ number ≤ 6999 then jobResult number
      else if 9000 ≤ number ∧ number ≤ 9030 then groupControl number
      else if 10000 ≤ number ∧ number ≤ 19999 then replaceable number
      else if 20000 ≤ number ∧ number ≤ 29999 then ephemeral number
      else if 39000 ≤ number ∧ number ≤ 39008 then groupMetadata number
      else other number

/-- Whether events of this kind are replaceable, parameterized or not. -/
def isReplaceable (kind : EventKind) : Bool :=
  match kind with
  | wellKnown .metadata => true
  | wellKnown .contactList => true
  | _ =>
      decide (10000 ≤ kind.toU32 ∧ kind.toU32 ≤ 19999) ||
        decide (30000 ≤ kind.toU32 ∧ kind.toU32 ≤ 39999)

/-- The kind is the one its number stands for.  The public constructors also
build others, such as `replaceable 30315`. -/
def Canonical (kind : EventKind) : Prop := ofU32 kind.toU32 = kind

instance (kind : EventKind) : Decidable kind.Canonical :=
  inferInstanceAs (Decidable (_ = _))

@[simp] theorem toU32_ofU32 (number : UInt32) :
    (ofU32 number).toU32 = number := by
  unfold ofU32
  split
  · rename_i kind hkind
    have hvalue := List.find?_some hkind
    exact eq_of_beq hvalue
  · repeat' split
    all_goals rfl

theorem ofU32_canonical (number : UInt32) : (ofU32 number).Canonical := by
  rw [Canonical, toU32_ofU32]

/-- No two entries of the table share a number. -/
theorem wellKnown_canonical (kind : WellKnownKind) :
    (wellKnown kind).Canonical := by
  cases kind <;> decide

/-- A replaceable kind is replaceable under its well-known name as well. -/
theorem isReplaceable_ofU32 {kind : EventKind}
    (hkind : kind.isReplaceable = true) :
    (ofU32 kind.toU32).isReplaceable = true := by
  have hrange : ∀ other : EventKind,
      (decide (10000 ≤ other.toU32 ∧ other.toU32 ≤ 19999) ||
        decide (30000 ≤ other.toU32 ∧ other.toU32 ≤ 39999)) = true →
      other.isReplaceable = true := by
    intro other hother
    unfold isReplaceable
    split
    · rfl
    · rfl
    · exact hother
  cases kind with
  | wellKnown kind => rwa [wellKnown_canonical kind]
  | _ =>
      apply hrange
      rw [toU32_ofU32]
      exact hkind

example : ¬ (replaceable 30315).Canonical := by decide

end EventKind

end Types

end Gnostr
