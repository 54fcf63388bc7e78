/-
Tags of the second version, of `types/src/nostr/versioned/tag2.rs`: an array is
written from each, and `versioned/tag3.rs` turns each into a list of strings.
-/
import Gnostr.Lib.Json
import Gnostr.Nip19.Codecs
import Gnostr.Types.DelegationConditions
import Gnostr.Types.Filter

namespace Gnostr

namespace Types

/-- A public key as a text, not looked into. -/
structure PublicKeyHex where
  text : String
deriving Repr, DecidableEq

/-- A signature as a text, not looked into. -/
structure SignatureHex where
  text : String
deriving Repr, DecidableEq

/-- A tag on an event, with what trails behind its fields. -/
inductive TagV2 where
  | address (kind : EventKind) (pubkey : PublicKeyHex) (d : String)
      (relayUrl : Option UncheckedUrl) (marker : Option String)
      (trailing : List String)
  | contentWarning (warning : String) (trailing : List String)
  | delegation (pubkey : PublicKeyHex) (conditions : DelegationConditions)
      (sig : SignatureHex) (trailing : List String)
  | event (id : Id) (recommendedRelayUrl : Option UncheckedUrl)
      (marker : Option String) (trailing : List String)
  | eventParent (id : Id) (recommendedRelayUrl : Option UncheckedUrl)
      (trailing : List String)
  | expiration (time : Int64) (trailing : List String)
  | kind (kind : EventKind) (trailing : List String)
  | pubkey (pubkey : PublicKeyHex) (recommendedRelayUrl : Option UncheckedUrl)
      (petname : Option String) (trailing : List String)
  | hashtag (hashtag : String) (trailing : List String)
  | reference (url : UncheckedUrl) (marker : Option String)
      (trailing : List String)
  | geohash (geohash : String) (trailing : List String)
  | identifier (d : String) (trailing : List String)
  | subject (subject : String) (trailing : List String)
  | nonce (nonce : String) (target : Option String) (trailing : List String)
  | parameter (param : String) (trailing : List String)
  | title (title : String) (trailing : List String)
  | other (tag : String) (data : List String)
  | empty

/-- The strings of an address: its kind number, its author, its identifier. -/
def addressString (kind : EventKind) (pubkey : PublicKeyHex) (d : String) :
    String :=
  String.ofList (decimal kind.toU32.toNat) ++ ":" ++ pubkey.text ++ ":" ++ d

/-- An optional element, or an empty one if others follow. -/
def serializedElement (value : Option String) (followed : Bool) : List Json :=
  match value with
  | some text => [.str text]
  | none => if followed then [.str ""] else []

/-- The array that `serialize` writes. -/
def serializeTagV2 (hex : Hex) : TagV2 → Json
  | .address kind pubkey d relayUrl marker trailing =>
      .arr ([.str "a", .str (addressString kind pubkey d)] ++
        serializedElement (relayUrl.map UncheckedUrl.text)
          (marker.isSome || !trailing.isEmpty) ++
        serializedElement marker (!trailing.isEmpty) ++ trailing.map .str)
  | .contentWarning warning trailing =>
      .arr ([.str "content-warning", .str warning] ++ trailing.map .str)
  | .delegation pubkey conditions sig trailing =>
      .arr ([.str "delegation", .str pubkey.text, .str conditions.asString,
        .str sig.text] ++ trailing.map .str)
  | .event id recommendedRelayUrl marker trailing =>
      .arr ([.str "e", .str (id.asHexString hex)] ++
        serializedElement (recommendedRelayUrl.map UncheckedUrl.text)
          (marker.isSome || !trailing.isEmpty) ++
        serializedElement marker (!trailing.isEmpty) ++ trailing.map .str)
  | .eventParent id recommendedRelayUrl trailing =>
      .arr ([.str "E", .str (id.asHexString hex)] ++
        serializedElement (recommendedRelayUrl.map UncheckedUrl.text)
          (!trailing.isEmpty) ++ trailing.map .str)
  | .expiration time trailing =>
      .arr ([.str "expiration", .int time.toInt] ++ trailing.map .str)
  | .kind kind trailing =>
      .arr ([.str "k", .str (String.ofList (decimal kind.toU32.toNat))] ++
        trailing.map .str)
  | .pubkey pubkey recommendedRelayUrl petname trailing =>
      .arr ([.str "p", .str pubkey.text] ++
        serializedElement (recommendedRelayUrl.map UncheckedUrl.text)
          (petname.isSome || !trailing.isEmpty) ++
        serializedElement petname (!trailing.isEmpty) ++ trailing.map .str)
  | .hashtag hashtag trailing =>
      .arr ([.str "t", .str hashtag] ++ trailing.map .str)
  | .reference url marker trailing =>
      .arr ([.str "r", .str url.text] ++ serializedElement marker (!trailing.isEmpty) ++
        trailing.map .str)
  | .geohash geohash trailing =>
      .arr ([.str "g", .str geohash] ++ trailing.map .str)
  | .identifier d trailing => .arr ([.str "d", .str d] ++ trailing.map .str)
  | .subject subject trailing =>
      .arr ([.str "subject", .str subject] ++ trailing.map .str)
  | .nonce nonce target trailing =>
      .arr ([.str "nonce", .str nonce] ++ serializedElement target (!trailing.isEmpty) ++
        trailing.map .str)
  | .parameter param trailing =>
      .arr ([.str "parameter", .str param] ++ trailing.map .str)
  | .title title trailing => .arr ([.str "title", .str title] ++ trailing.map .str)
  | .other tag data => .arr (.str tag :: data.map .str)
  | .empty => .arr []

namespace TagV3

/-- The array that a tag is written as. -/
def serialize (tag : TagV3) : Json := .arr (tag.fields.map .str)

/-- An optional string, or an empty one if others follow. -/
def pushed (value : Option String) (followed : Bool) : List String :=
  match value with
  | some text => [text]
  | none => if followed then [""] else []

/-- `From<TagV2>`. -/
def ofTagV2 (hex : Hex) : TagV2 → TagV3
  | .address kind pubkey d relayUrl marker trailing =>
      ⟨["a", addressString kind pubkey d] ++
        pushed (relayUrl.map UncheckedUrl.text)
          (marker.isSome || !trailing.isEmpty) ++
        pushed marker (!trailing.isEmpty) ++ trailing⟩
  | .contentWarning warning trailing =>
      ⟨["content-warning", warning] ++ trailing⟩
  | .delegation pubkey conditions sig trailing =>
      ⟨["delegation", pubkey.text, conditions.asString, sig.text] ++ trailing⟩
  | .event id recommendedRelayUrl marker trailing =>
      ⟨["e", id.asHexString hex] ++
        pushed (recommendedRelayUrl.map UncheckedUrl.text)
          (marker.isSome || !trailing.isEmpty) ++
        pushed marker (!trailing.isEmpty) ++ trailing⟩
  | .expiration time trailing =>
      ⟨["expiration", String.ofList (decimalInt time.toInt)] ++ trailing⟩
  | .pubkey pubkey recommendedRelayUrl petname trailing =>
      ⟨["p", pubkey.text] ++
        pushed (recommendedRelayUrl.map UncheckedUrl.text)
          (petname.isSome || !trailing.isEmpty) ++
        pushed petname (!trailing.isEmpty) ++ trailing⟩
  | .hashtag hashtag trailing => ⟨["t", hashtag] ++ trailing⟩
  | .reference url marker trailing =>
      ⟨["r", url.text] ++ pushed marker (!trailing.isEmpty) ++ trailing⟩
  | .geohash geohash trailing => ⟨["g", geohash] ++ trailing⟩
  | .identifier d trailing => ⟨["d", d] ++ trailing⟩
  | .subject subject trailing => ⟨["subject", subject] ++ trailing⟩
  | .nonce nonce target trailing =>
      ⟨["nonce", nonce] ++ pushed target (!trailing.isEmpty) ++ trailing⟩
  | .parameter param trailing => ⟨["parameter", param] ++ trailing⟩
  | .title title trailing => ⟨["title", title] ++ trailing⟩
  | .other tag data => ⟨tag :: data⟩
  | .empty => ⟨[]⟩
  | .eventParent id recommendedRelayUrl trailing =>
      ⟨["E", id.asHexString hex] ++
        pushed (recommendedRelayUrl.map UncheckedUrl.text)
          (!trailing.isEmpty) ++ trailing⟩
  | .kind kind trailing =>
      ⟨["k", String.ofList (decimal kind.toU32.toNat)] ++ trailing⟩

end TagV3

section Migration

/-- The tag is a time of expiration. -/
def TagV2.IsExpiration (tag : TagV2) : Prop :=
  ∃ time trailing, tag = .expiration time trailing

theorem TagV3.map_pushed (value : Option String) (followed : Bool) :
    (pushed value followed).map Json.str = serializedElement value followed := by
  unfold pushed serializedElement
  cases value with
  | none => cases followed <;> rfl
  | some text => rfl

theorem TagV3.serialize_ofTagV2 (hex : Hex) (tag : TagV2)
    (hnot : ¬ tag.IsExpiration) :
    (ofTagV2 hex tag).serialize = serializeTagV2 hex tag := by
  cases tag with
  | expiration time trailing => exact absurd ⟨time, trailing, rfl⟩ hnot
  | _ =>
      simp only [ofTagV2, serialize, serializeTagV2, List.map_append,
        TagV3.map_pushed, List.map_cons, List.map_nil]

/-- The time is written as a number, and migrated to a string. -/
theorem TagV3.serialize_ofTagV2_expiration (hex : Hex) (time : Int64)
    (trailing : List String) :
    (ofTagV2 hex (.expiration time trailing)).serialize ≠
      serializeTagV2 hex (.expiration time trailing) := by
  simp [ofTagV2, serialize, serializeTagV2]

/-- The text of the migrated tag is that of the tag exactly when the tag is not a
time of expiration. -/
theorem TagV2.migration_preserves_iff (hex : Hex) (tag : TagV2) :
    (TagV3.ofTagV2 hex tag).serialize.render = (serializeTagV2 hex tag).render ↔
      ¬ tag.IsExpiration := by
  rw [Json.render_injective.eq_iff]
  constructor
  · rintro hsame ⟨time, trailing, rfl⟩
    exact TagV3.serialize_ofTagV2_expiration hex time trailing hsame
  · exact TagV3.serialize_ofTagV2 hex tag

/-- An expiration without anything behind it. -/
theorem TagV2.expiration_migrates_differently :
    (TagV3.ofTagV2 Hex.reference (.expiration 1600000000 [])).serialize.render ≠
      (serializeTagV2 Hex.reference (.expiration 1600000000 [])).render := by
  rw [Json.render_injective.ne_iff]
  exact TagV3.serialize_ofTagV2_expiration _ _ _

/-- The tags of an event are written the same exactly when none of them is a time
of expiration, and only then can the event keep its id. -/
theorem TagV2.migration_of_all_iff (hex : Hex) (tags : List TagV2) :
    (Json.arr (tags.map fun tag => (TagV3.ofTagV2 hex tag).serialize)).render =
        (Json.arr (tags.map (serializeTagV2 hex))).render ↔
      ∀ tag ∈ tags, ¬ tag.IsExpiration := by
  rw [Json.render_injective.eq_iff, Json.arr.injEq, List.map_inj_left]
  refine forall₂_congr fun tag _ => ?_
  constructor
  · rintro hsame ⟨time, trailing, rfl⟩
    exact TagV3.serialize_ofTagV2_expiration hex time trailing hsame
  · exact TagV3.serialize_ofTagV2 hex tag

end Migration

end Types

end Gnostr
