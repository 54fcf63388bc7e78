/-
What the typed NIP-19 codecs read back from what they write: everything when no
field is longer than its length byte can say, and another value otherwise
unless something else stops the decoder.
-/
import Gnostr.Nip19.Codecs

namespace Gnostr

namespace Types

section Fields

/-- The text fits its length byte. -/
def Fits (text : String) : Prop := (utf8 text).length ≤ 255

/-- What the encoder keeps of the text is a text. -/
def CutIsText (text : String) : Prop :=
  (fromUtf8 (cutToLengthByte (utf8 text))).isSome = true

instance (text : String) : Decidable (Fits text) :=
  inferInstanceAs (Decidable (_ ≤ _))

instance (text : String) : Decidable (CutIsText text) :=
  inferInstanceAs (Decidable (_ = _))

theorem fromUtf8_cut_eq_some_iff (text : String) :
    fromUtf8 (cutToLengthByte (utf8 text)) = some text ↔ Fits text := by
  rw [fromUtf8_eq_some_iff]
  constructor
  · intro hcut
    by_contra hlong
    exact cutToLengthByte_ne_of_lt (Nat.not_le.mp hlong) hcut.symm
  · intro hfits
    exact (cutToLengthByte_of_le hfits).symm

theorem CutIsText.of_fits {text : String} (hfits : Fits text) :
    CutIsText text := by
  rw [CutIsText, (fromUtf8_cut_eq_some_iff text).mpr hfits]
  rfl

theorem readRelay_eq_ok_iff {raw : Bytes} {relay : UncheckedUrl} :
    readRelay raw = .ok relay ↔ fromUtf8 raw = some relay.text := by
  unfold readRelay
  cases fromUtf8 raw with
  | none => exact iff_of_false nofun nofun
  | some text =>
      constructor
      · intro hok
        cases hok
        rfl
      · intro hsome
        cases hsome
        rfl

theorem exists_readRelay_iff (raw : Bytes) :
    (∃ relay, readRelay raw = .ok relay) ↔ (fromUtf8 raw).isSome = true := by
  rw [Option.isSome_iff_exists]
  constructor
  · rintro ⟨relay, hrelay⟩
    exact ⟨relay.text, readRelay_eq_ok_iff.mp hrelay⟩
  · rintro ⟨text, htext⟩
    exact ⟨⟨text⟩, readRelay_eq_ok_iff.mpr htext⟩

/-- The relays that are read back from what is written of some. -/
def readRelays (relays : List UncheckedUrl) : Outcome Error (List UncheckedUrl) :=
  (relays.map fun relay => cutToLengthByte (utf8 relay.text)).mapM readRelay

theorem readRelays_self_iff (relays : List UncheckedUrl) :
    readRelays relays = .ok relays ↔ ∀ relay ∈ relays, Fits relay.text := by
  rw [readRelays, Outcome.mapM_eq_ok_iff, List.forall₂_map_left_iff,
    List.forall₂_same]
  refine forall₂_congr ?_
  intro relay _
  rw [readRelay_eq_ok_iff, fromUtf8_cut_eq_some_iff]

theorem exists_readRelays_iff (relays : List UncheckedUrl) :
    (∃ found, readRelays relays = .ok found) ↔
      ∀ relay ∈ relays, CutIsText relay.text := by
  rw [readRelays, Outcome.exists_mapM_eq_ok_iff, List.forall_mem_map]
  exact forall₂_congr fun relay _ => exists_readRelay_iff _

@[simp] theorem readKind_kindBytes (kind : EventKind) :
    readKind (kindBytes kind) = .ok (EventKind.ofU32 kind.toU32) := by
  obtain ⟨array, harray, hbytes⟩ :=
    exists_tryIntoArray (length_beBytes 4 kind.toU32.toNat)
  have hnumber : ofBeBytes (beBytes 4 kind.toU32.toNat) = kind.toU32.toNat :=
    ofBeBytes_beBytes kind.toU32.toNat_lt
  rw [readKind, kindBytes, harray, Outcome.okOr_some, Outcome.ok_bind, hbytes,
    hnumber, UInt32.ofNat_toNat]
  rfl

theorem readAuthor_bytes (curve : Secp256k1) (key : PublicKey)
    (author : Option PublicKey) :
    readAuthor curve key.bytes.toList author =
      .ok (if key.Verified curve then some key else author) := by
  unfold readAuthor
  rw [PublicKey.fromBytes_bytes]
  by_cases hverified : key.Verified curve
  · rw [if_neg (fun hbad => hbad.2 hverified), if_pos hverified]
  · rw [if_pos ⟨rfl, hverified⟩, if_neg hverified]

theorem length_le_of_mem_relayEntries {relays : List UncheckedUrl}
    {entry : TlvEntry} (hentry : entry ∈ relayEntries relays) :
    entry.2.length ≤ 255 := by
  obtain ⟨relay, _, rfl⟩ := List.mem_map.mp hentry
  exact length_cutToLengthByte_le _

/-- How many bytes are written for fields of these lengths. -/
def wireLength (lengths : List ℕ) : ℕ :=
  (lengths.map fun length => length % 256 + 2).sum

theorem wireLength_append (first second : List ℕ) :
    wireLength (first ++ second) = wireLength first + wireLength second := by
  rw [wireLength, List.map_append, List.sum_append]
  rfl

theorem length_flatMap_encodeTlv (entries : List TlvEntry) :
    (entries.flatMap encodeTlv).length =
      (entries.map fun entry => entry.2.length + 2).sum := by
  rw [List.length_flatMap]
  rfl

theorem length_relayEntries (relays : List UncheckedUrl) :
    ((relayEntries relays).flatMap encodeTlv).length =
      wireLength (relays.map fun relay => (utf8 relay.text).length) := by
  rw [length_flatMap_encodeTlv, relayEntries, wireLength, List.map_map,
    List.map_map]
  congr 1
  refine List.map_congr_left ?_
  intro relay _
  simp only [Function.comp_apply, length_cutToLengthByte]

end Fields

section Read

/-- The relay entries of all three codecs are read alike. -/
theorem foldlM_relayEntries {φ : Type}
    {step : φ × List UncheckedUrl → TlvEntry →
      Outcome Error (φ × List UncheckedUrl)}
    (hitem : ∀ fields relays raw, step (fields, relays) (1, raw) =
      readRelay raw >>= fun relay => .ok (fields, relays ++ [relay]))
    (fields : φ) (relays : List UncheckedUrl) :
    (relayEntries relays).foldlM step (fields, []) =
      readRelays relays >>= fun found => .ok (fields, found) := by
  have hitems := foldlM_items hitem
    (relays.map fun relay => cutToLengthByte (utf8 relay.text)) fields []
  rwa [List.map_map] at hitems

variable (curve : Secp256k1)

theorem Profile.length_le_of_mem_entries (profile : Profile) :
    ∀ entry ∈ profile.entries, entry.2.length ≤ 255 := by
  intro entry hentry
  rcases List.mem_append.mp hentry with hkey | hrelay
  · rw [List.mem_singleton.mp hkey]
    simp
  · exact length_le_of_mem_relayEntries hrelay

theorem NEvent.length_le_of_mem_entries (event : NEvent) :
    ∀ entry ∈ event.entries, entry.2.length ≤ 255 := by
  intro entry hentry
  rcases List.mem_append.mp hentry with hentry | hauthor
  · rcases List.mem_append.mp hentry with hentry | hkind
    · rcases List.mem_append.mp hentry with hid | hrelay
      · rw [List.mem_singleton.mp hid]
        simp
      · exact length_le_of_mem_relayEntries hrelay
    · obtain ⟨kind, _, rfl⟩ := List.mem_map.mp hkind
      simp [kindBytes]
  · obtain ⟨author, _, rfl⟩ := List.mem_map.mp hauthor
    simp

theorem NAddr.length_le_of_mem_entries (addr : NAddr) :
    ∀ entry ∈ addr.entries, entry.2.length ≤ 255 := by
  intro entry hentry
  rcases List.mem_append.mp hentry with hentry | hrest
  · rcases List.mem_append.mp hentry with hd | hrelay
    · rw [List.mem_singleton.mp hd]
      exact length_cutToLengthByte_le _
    · exact length_le_of_mem_relayEntries hrelay
  · rcases List.mem_cons.mp hrest with rfl | hauthor
    · simp [kindBytes]
    · rw [List.mem_singleton.mp hauthor]
      simp

theorem Profile.readTlvs_entries (verify : Bool) (profile : Profile) :
    Profile.readTlvs curve verify (profile.entries.flatMap encodeTlv) =
      if verify = true ∧ ¬ profile.pubkey.Verified curve then
        .err .keyOrSignature
      else do
        let relays ← readRelays profile.relays
        return ⟨profile.pubkey, relays⟩ := by
  have hkey : Profile.step curve verify (none, [])
      (0, profile.pubkey.bytes.toList) =
        PublicKey.fromBytes curve profile.pubkey.bytes.toList verify >>=
          fun pubkey => .ok (some pubkey, []) := by
    unfold Profile.step
    dsimp only
    rw [if_pos rfl, if_neg (not_not_intro Vector.length_toList)]
    rfl
  unfold Profile.readTlvs
  rw [scanLoop_entries profile.length_le_of_mem_entries
      (by simp [Profile.entries]), Profile.entries,
    List.singleton_append, List.foldlM_cons, hkey, PublicKey.fromBytes_bytes]
  split
  · rfl
  · rw [Outcome.ok_bind, Outcome.ok_bind,
      foldlM_relayEntries (fun _ _ _ => rfl), bind_assoc]
    rfl

theorem NEvent.step_id (id : Id) :
    NEvent.step curve (⟨none, none, none⟩, []) (0, id.bytes.toList) =
      .ok (⟨some id, none, none⟩, []) := by
  unfold NEvent.step
  dsimp only
  rw [if_pos rfl, if_neg (not_not_intro Vector.length_toList), tryIntoArray_toList]
  rfl

theorem NEvent.step_kind (fields : NEvent.Fields) (relays : List UncheckedUrl)
    (kind : EventKind) :
    NEvent.step curve (fields, relays) (3, kindBytes kind) =
      .ok ({ fields with kind := some (EventKind.ofU32 kind.toU32) }, relays) := by
  unfold NEvent.step
  dsimp only
  rw [readKind_kindBytes]
  rfl

theorem NEvent.step_author (fields : NEvent.Fields) (relays : List UncheckedUrl)
    (author : PublicKey) :
    NEvent.step curve (fields, relays) (2, author.bytes.toList) =
      .ok ({ fields with author :=
        if author.Verified curve then some author else fields.author }, relays) := by
  unfold NEvent.step
  dsimp only
  rw [readAuthor_bytes]
  rfl

theorem NEvent.foldlM_kind (id : Option Id) (relays : List UncheckedUrl)
    (kind : Option EventKind) :
    (kind.toList.map fun kind => (3, kindBytes kind)).foldlM (NEvent.step curve)
        (⟨id, none, none⟩, relays) =
      .ok (⟨id, kind.map fun kind => EventKind.ofU32 kind.toU32, none⟩, relays) := by
  cases kind with
  | none => rfl
  | some kind =>
      rw [Option.toList_some, List.map_singleton, List.foldlM_cons, NEvent.step_kind]
      rfl

/-- An author whose key is no curve point is dropped. -/
theorem NEvent.foldlM_author (id : Option Id) (kind : Option EventKind)
    (relays : List UncheckedUrl) (author : Option PublicKey) :
    (author.toList.map fun author => (2, author.bytes.toList)).foldlM (NEvent.step curve)
        (⟨id, kind, none⟩, relays) =
      .ok (⟨id, kind, author.filter fun author => author.Verified curve⟩, relays) := by
  cases author with
  | none => rfl
  | some author =>
      rw [Option.toList_some, List.map_singleton, List.foldlM_cons, NEvent.step_author]
      by_cases hverified : author.Verified curve
      · have hfilter : (some author).filter (fun author =>
            decide (author.Verified curve)) = some author :=
          Option.filter_some_pos (decide_eq_true hverified)
        rw [if_pos hverified, hfilter]
        rfl
      · have hfilter : (some author).filter (fun author =>
            decide (author.Verified curve)) = none :=
          Option.filter_some_neg (decide_eq_false hverified)
        rw [if_neg hverified, hfilter]
        rfl

theorem NEvent.readTlvs_entries (event : NEvent) :
    NEvent.readTlvs curve (event.entries.flatMap encodeTlv) = do
      let relays ← readRelays event.relays
      return ⟨event.id, relays,
        event.kind.map fun kind => EventKind.ofU32 kind.toU32,
        event.author.filter fun author => author.Verified curve⟩ := by
  unfold NEvent.readTlvs
  rw [scanWhile_entries event.length_le_of_mem_entries, NEvent.entries, List.append_assoc,
    List.append_assoc, List.singleton_append, List.foldlM_cons, NEvent.step_id,
    Outcome.ok_bind, List.foldlM_append,
    foldlM_relayEntries (fun _ _ _ => rfl), bind_assoc, bind_assoc]
  congr 1
  funext relays
  rw [Outcome.ok_bind, List.foldlM_append, NEvent.foldlM_kind, Outcome.ok_bind,
    NEvent.foldlM_author]
  rfl

theorem NAddr.step_d (raw : Bytes) :
    NAddr.step curve (⟨none, none, none⟩, []) (0, raw) =
      Outcome.okOr Error.utf8Error (fromUtf8 raw) >>= fun d =>
        .ok (⟨some d, none, none⟩, []) := rfl

theorem NAddr.step_kind (fields : NAddr.Fields) (relays : List UncheckedUrl)
    (kind : EventKind) :
    NAddr.step curve (fields, relays) (3, kindBytes kind) =
      .ok ({ fields with kind := some (EventKind.ofU32 kind.toU32) }, relays) := by
  unfold NAddr.step
  dsimp only
  rw [readKind_kindBytes]
  rfl

theorem NAddr.step_author (fields : NAddr.Fields) (relays : List UncheckedUrl)
    (author : PublicKey) :
    NAddr.step curve (fields, relays) (2, author.bytes.toList) =
      .ok ({ fields with author :=
        if author.Verified curve then some author else fields.author }, relays) := by
  unfold NAddr.step
  dsimp only
  rw [readAuthor_bytes]
  rfl

theorem NAddr.readTlvs_entries (addr : NAddr)
    (hreplaceable : addr.kind.isReplaceable = true) :
    NAddr.readTlvs curve (addr.entries.flatMap encodeTlv) = (do
      let d ← Outcome.okOr Error.utf8Error
        (fromUtf8 (cutToLengthByte (utf8 addr.d)))
      let relays ← readRelays addr.relays
      if addr.author.Verified curve then
        return ⟨d, relays, EventKind.ofU32 addr.kind.toU32, addr.author⟩
      else .err .invalidNAddr) := by
  have hread := EventKind.isReplaceable_ofU32 hreplaceable
  unfold NAddr.readTlvs
  rw [scanWhile_entries addr.length_le_of_mem_entries, NAddr.entries, List.append_assoc,
    List.singleton_append, List.foldlM_cons, NAddr.step_d, bind_assoc, bind_assoc]
  congr 1
  funext d
  rw [Outcome.ok_bind, List.foldlM_append,
    foldlM_relayEntries (fun _ _ _ => rfl), bind_assoc, bind_assoc]
  congr 1
  funext relays
  rw [Outcome.ok_bind, List.foldlM_cons, NAddr.step_kind, Outcome.ok_bind,
    List.foldlM_cons, NAddr.step_author, Outcome.ok_bind, List.foldlM_nil,
    Outcome.pure_eq, Outcome.ok_bind]
  by_cases hverified : addr.author.Verified curve
  · rw [if_pos hverified, if_pos hverified]
    unfold NAddr.finish
    dsimp only
    rw [hread]
    rfl
  · rw [if_neg hverified, if_neg hverified]
    rfl

theorem Nrelay.readTlvs_entries (url : UncheckedUrl) :
    Nrelay.readTlvs ((Nrelay.entries url).flatMap encodeTlv) =
      readRelay (cutToLengthByte (utf8 url.text)) := by
  have hshort : ∀ entry ∈ Nrelay.entries url, entry.2.length ≤ 255 := by
    intro entry hentry
    rw [List.mem_singleton.mp hentry]
    exact length_cutToLengthByte_le _
  unfold Nrelay.readTlvs
  rw [scanLoop_entries hshort (by simp [Nrelay.entries]), Nrelay.entries,
    List.foldlM_cons]
  change ((some <$> readRelay (cutToLengthByte (utf8 url.text))) >>= fun state =>
    List.foldlM Nrelay.step state []) >>= Nrelay.finish = _
  cases readRelay (cutToLengthByte (utf8 url.text)) with
  | ok relay => rfl
  | err error => rfl
  | panic => rfl

end Read

section Codecs

/-- Fields that fit come back; fields that do not are at least not mistaken for
others. -/
def CodecCorrect {α : Type} (encoded : Outcome Error String)
    (decode : String → Outcome Error α) (fits : Prop) (value : α) : Prop :=
  (fits → ∃ text, encoded = .ok text ∧ decode text = .ok value) ∧
    (¬ fits → ∀ text found, encoded = .ok text → decode text = .ok found →
      found = value)

/-- Both codes of a value go through one payload. -/
theorem codecCorrect_iff {α : Type} {bech32 : Bech32} {hrp : String}
    (hhrp : IsHrp hrp) {payload : Bytes} {read : Bytes → Outcome Error α}
    {fits : Prop} {value : α} (hvalue : read payload = .ok value → fits) :
    CodecCorrect (encodeBech32 bech32 hrp payload)
        (fun text => decodeBech32 bech32 hrp text >>= read) fits value ↔
      fits ∧ bech32Length hrp payload.length ≤ bech32CodeLength ∧
          read payload = .ok value ∨
        ¬ fits ∧ ¬ (bech32Length hrp payload.length ≤ bech32CodeLength ∧
          ∃ found, read payload = .ok found) := by
  have hencode : (∃ text, encodeBech32 bech32 hrp payload = .ok text) ↔
      bech32Length hrp payload.length ≤ bech32CodeLength := by
    simp only [encodeBech32_eq_ok_iff]
    exact bech32.exists_encode_iff hhrp
  have hdecode : ∀ text, encodeBech32 bech32 hrp payload = .ok text →
      (decodeBech32 bech32 hrp text >>= read) = read payload := by
    intro text htext
    rw [decodeBech32_of_encode hhrp (encodeBech32_eq_ok_iff.mp htext),
      Outcome.ok_bind]
  rw [← hencode]
  constructor
  · rintro ⟨hshort, hlong⟩
    by_cases hfits : fits
    · obtain ⟨text, htext, hfound⟩ := hshort hfits
      dsimp only at hfound
      rw [hdecode text htext] at hfound
      exact Or.inl ⟨hfits, ⟨text, htext⟩, hfound⟩
    · refine Or.inr ⟨hfits, ?_⟩
      rintro ⟨⟨text, htext⟩, found, hfound⟩
      have hsame := hlong hfits text found htext
        ((hdecode text htext).trans hfound)
      exact hfits (hvalue (hsame ▸ hfound))
  · rintro (⟨hfits, ⟨text, htext⟩, hresult⟩ | ⟨hlong, hnone⟩)
    · exact ⟨fun _ => ⟨text, htext, (hdecode text htext).trans hresult⟩,
        fun hnot => absurd hfits hnot⟩
    · refine ⟨fun hfits => absurd hfits hlong, ?_⟩
      intro _ text found htext hfound
      dsimp only at hfound
      rw [hdecode text htext] at hfound
      exact absurd ⟨⟨text, htext⟩, found, hfound⟩ hnone

/-- The lengths of the relays of a list. -/
def relayLengths (relays : List UncheckedUrl) : List ℕ :=
  relays.map fun relay => (utf8 relay.text).length

namespace Profile

def AllFit (profile : Profile) : Prop :=
  ∀ relay ∈ profile.relays, Fits relay.text

/-- There is a bech32 text for what is written. -/
def Encodes (profile : Profile) : Prop :=
  bech32Length hrpNprofile (wireLength (32 :: relayLengths profile.relays)) ≤
    bech32CodeLength

/-- The key passes its check and no relay is cut within a character. -/
def Decodes (curve : Secp256k1) (verify : Bool) (profile : Profile) : Prop :=
  ¬ (verify = true ∧ ¬ profile.pubkey.Verified curve) ∧
    ∀ relay ∈ profile.relays, CutIsText relay.text

theorem length_entries (profile : Profile) :
    (profile.entries.flatMap encodeTlv).length =
      wireLength (32 :: relayLengths profile.relays) := by
  rw [entries, List.flatMap_append, List.length_append, length_relayEntries]
  simp [wireLength, relayLengths, length_encodeTlv]

theorem readTlvs_entries_eq_ok_iff {curve : Secp256k1} {verify : Bool}
    {profile found : Profile} :
    readTlvs curve verify (profile.entries.flatMap encodeTlv) = .ok found ↔
      ¬ (verify = true ∧ ¬ profile.pubkey.Verified curve) ∧
        readRelays profile.relays = .ok found.relays ∧
        found.pubkey = profile.pubkey := by
  rw [readTlvs_entries]
  split
  · rename_i hbad
    exact iff_of_false nofun fun hgood => hgood.1 hbad
  · rename_i hgood
    rw [and_iff_right hgood, Outcome.bind_eq_ok_iff]
    constructor
    · rintro ⟨relays, hrelays, hfound⟩
      cases hfound
      exact ⟨hrelays, rfl⟩
    · rintro ⟨hrelays, hpubkey⟩
      refine ⟨found.relays, hrelays, ?_⟩
      rw [← hpubkey]
      rfl

theorem codecCorrect_iff (curve : Secp256k1) (bech32 : Bech32) (verify : Bool)
    (profile : Profile) :
    CodecCorrect (profile.asBech32String bech32)
        (tryFromBech32String curve bech32 · verify) profile.AllFit profile ↔
      profile.AllFit ∧ profile.Encodes ∧
          ¬ (verify = true ∧ ¬ profile.pubkey.Verified curve) ∨
        ¬ profile.AllFit ∧ ¬ (profile.Encodes ∧ profile.Decodes curve verify) := by
  have hself : readTlvs curve verify (profile.entries.flatMap encodeTlv) =
      .ok profile ↔ ¬ (verify = true ∧ ¬ profile.pubkey.Verified curve) ∧
        profile.AllFit := by
    rw [readTlvs_entries_eq_ok_iff, readRelays_self_iff, and_iff_left rfl,
      AllFit]
  have hsome : (∃ found, readTlvs curve verify
      (profile.entries.flatMap encodeTlv) = .ok found) ↔
        profile.Decodes curve verify := by
    simp only [readTlvs_entries_eq_ok_iff]
    rw [Decodes, ← exists_readRelays_iff]
    constructor
    · rintro ⟨found, hgood, hrelays, _⟩
      exact ⟨hgood, found.relays, hrelays⟩
    · rintro ⟨hgood, relays, hrelays⟩
      exact ⟨⟨profile.pubkey, relays⟩, hgood, hrelays, rfl⟩
  refine (Types.codecCorrect_iff (isHrp_of_mem hrpNprofile (by decide))
    fun hvalue => (hself.mp hvalue).2).trans ?_
  rw [hself, hsome, length_entries, ← Encodes]
  refine or_congr_left ?_
  refine and_congr_right fun hfit => ?_
  rw [and_iff_left hfit]

end Profile

namespace Nrelay

/-- The relay codec has one field and its text is always short enough. -/
theorem codecCorrect_iff (bech32 : Bech32) (url : UncheckedUrl) :
    CodecCorrect (asBech32String bech32 url) (tryFromBech32String bech32)
        (Fits url.text) url ↔
      Fits url.text ∨ ¬ CutIsText url.text := by
  have hencodes : bech32Length hrpNrelay
      ((entries url).flatMap encodeTlv).length ≤ bech32CodeLength := by
    have hle := length_cutToLengthByte_le (utf8 url.text)
    have hhrpLength : hrpNrelay.toList.length = 6 := by decide
    rw [entries, List.flatMap_singleton, length_encodeTlv, bech32Length,
      hhrpLength, symbolCount, bech32CodeLength]
    dsimp only
    omega
  have hself : readTlvs ((entries url).flatMap encodeTlv) = .ok url ↔
      Fits url.text := by
    rw [readTlvs_entries, readRelay_eq_ok_iff, fromUtf8_cut_eq_some_iff]
  refine (Types.codecCorrect_iff (isHrp_of_mem hrpNrelay (by decide))
    hself.mp).trans ?_
  rw [hself, readTlvs_entries, exists_readRelay_iff, ← CutIsText,
    and_iff_right hencodes, and_iff_right hencodes, and_self]
  constructor
  · rintro (hfits | ⟨_, hcut⟩)
    · exact Or.inl hfits
    · exact Or.inr hcut
  · rintro (hfits | hcut)
    · exact Or.inl hfits
    · exact Or.inr ⟨fun hfits => hcut (CutIsText.of_fits hfits), hcut⟩

end Nrelay

namespace NEvent

def AllFit (event : NEvent) : Prop :=
  ∀ relay ∈ event.relays, Fits relay.text

def Encodes (event : NEvent) : Prop :=
  bech32Length hrpNevent (wireLength ([32] ++ relayLengths event.relays ++
      event.kind.toList.map (fun _ => 4) ++
      event.author.toList.map fun _ => 32)) ≤ bech32CodeLength

def Decodes (event : NEvent) : Prop :=
  ∀ relay ∈ event.relays, CutIsText relay.text

/-- The kind is the one of its number and the author's key is on the curve, so
that neither is changed or dropped. -/
def Kept (curve : Secp256k1) (event : NEvent) : Prop :=
  (∀ kind ∈ event.kind, kind.Canonical) ∧
    ∀ author ∈ event.author, author.Verified curve

theorem length_entries (event : NEvent) :
    (event.entries.flatMap encodeTlv).length =
      wireLength ([32] ++ relayLengths event.relays ++
        event.kind.toList.map (fun _ => 4) ++
        event.author.toList.map fun _ => 32) := by
  rw [entries, List.flatMap_append, List.flatMap_append, List.flatMap_append,
    List.length_append, List.length_append, List.length_append,
    length_relayEntries, wireLength_append, wireLength_append,
    wireLength_append]
  congr 1
  · congr 1
    · congr 1
      simp [wireLength, length_encodeTlv]
    · cases event.kind with
      | none => rfl
      | some kind => simp [wireLength, length_encodeTlv, kindBytes]
  · cases event.author with
    | none => rfl
    | some author => simp [wireLength, length_encodeTlv]

theorem readTlvs_entries_eq_ok_iff {curve : Secp256k1} {event found : NEvent} :
    readTlvs curve (event.entries.flatMap encodeTlv) = .ok found ↔
      readRelays event.relays = .ok found.relays ∧ found.id = event.id ∧
        found.kind = event.kind.map (fun kind => EventKind.ofU32 kind.toU32) ∧
        found.author =
          event.author.filter fun author => author.Verified curve := by
  rw [readTlvs_entries, Outcome.bind_eq_ok_iff]
  constructor
  · rintro ⟨relays, hrelays, hfound⟩
    cases hfound
    exact ⟨hrelays, rfl, rfl, rfl⟩
  · rintro ⟨hrelays, hid, hkind, hauthor⟩
    refine ⟨found.relays, hrelays, ?_⟩
    rw [← hid, ← hkind, ← hauthor]
    rfl

theorem kept_iff (curve : Secp256k1) (event : NEvent) :
    event.Kept curve ↔
      event.kind = event.kind.map (fun kind => EventKind.ofU32 kind.toU32) ∧
        event.author =
          event.author.filter fun author => author.Verified curve := by
  refine and_congr ?_ ?_
  · cases event.kind with
    | none => simp
    | some kind => simp [EventKind.Canonical, eq_comm]
  · cases event.author with
    | none => simp
    | some author =>
        rw [eq_comm, Option.filter_eq_some_iff]
        simp

theorem codecCorrect_iff (curve : Secp256k1) (bech32 : Bech32)
    (event : NEvent) :
    CodecCorrect (event.asBech32String bech32)
        (tryFromBech32String curve bech32) event.AllFit event ↔
      event.AllFit ∧ event.Encodes ∧ event.Kept curve ∨
        ¬ event.AllFit ∧ ¬ (event.Encodes ∧ event.Decodes) := by
  have hself : readTlvs curve (event.entries.flatMap encodeTlv) = .ok event ↔
      event.AllFit ∧ event.Kept curve := by
    rw [readTlvs_entries_eq_ok_iff, readRelays_self_iff, and_iff_right rfl,
      ← kept_iff, AllFit]
  have hsome : (∃ found, readTlvs curve (event.entries.flatMap encodeTlv) =
      .ok found) ↔ event.Decodes := by
    simp only [readTlvs_entries_eq_ok_iff]
    rw [Decodes, ← exists_readRelays_iff]
    constructor
    · rintro ⟨found, hrelays, _⟩
      exact ⟨found.relays, hrelays⟩
    · rintro ⟨relays, hrelays⟩
      exact ⟨⟨event.id, relays, _, _⟩, hrelays, rfl, rfl, rfl⟩
  refine (Types.codecCorrect_iff (isHrp_of_mem hrpNevent (by decide))
    fun hvalue => (hself.mp hvalue).1).trans ?_
  rw [hself, hsome, length_entries, ← Encodes]
  refine or_congr_left ?_
  refine and_congr_right fun hfit => ?_
  rw [and_iff_right hfit]

end NEvent

namespace NAddr

def AllFit (addr : NAddr) : Prop :=
  Fits addr.d ∧ ∀ relay ∈ addr.relays, Fits relay.text

def Encodes (addr : NAddr) : Prop :=
  bech32Length hrpNaddr (wireLength ([(utf8 addr.d).length] ++
      relayLengths addr.relays ++ [4, 32])) ≤ bech32CodeLength

/-- The key is on the curve and no field is cut within a character. -/
def Decodes (curve : Secp256k1) (addr : NAddr) : Prop :=
  CutIsText addr.d ∧ (∀ relay ∈ addr.relays, CutIsText relay.text) ∧
    addr.author.Verified curve

theorem length_entries (addr : NAddr) :
    (addr.entries.flatMap encodeTlv).length =
      wireLength ([(utf8 addr.d).length] ++ relayLengths addr.relays ++
        [4, 32]) := by
  rw [entries, List.flatMap_append, List.flatMap_append, List.length_append,
    List.length_append, length_relayEntries, wireLength_append,
    wireLength_append]
  congr 1
  · congr 1
    simp [wireLength, length_encodeTlv, length_cutToLengthByte]
  · simp [wireLength, length_encodeTlv, kindBytes]

theorem readTlvs_entries_eq_ok_iff {curve : Secp256k1} {addr found : NAddr}
    (hreplaceable : addr.kind.isReplaceable = true) :
    readTlvs curve (addr.entries.flatMap encodeTlv) = .ok found ↔
      fromUtf8 (cutToLengthByte (utf8 addr.d)) = some found.d ∧
        readRelays addr.relays = .ok found.relays ∧
        addr.author.Verified curve ∧
        found.kind = EventKind.ofU32 addr.kind.toU32 ∧
        found.author = addr.author := by
  rw [readTlvs_entries curve addr hreplaceable, Outcome.bind_eq_ok_iff]
  constructor
  · rintro ⟨d, hd, hrest⟩
    obtain ⟨relays, hrelays, hfound⟩ := Outcome.bind_eq_ok_iff.mp hrest
    rw [Outcome.okOr_eq_ok_iff] at hd
    split at hfound
    · rename_i hverified
      cases hfound
      exact ⟨hd, hrelays, hverified, rfl, rfl⟩
    · cases hfound
  · rintro ⟨hd, hrelays, hverified, hkind, hauthor⟩
    refine ⟨found.d, Outcome.okOr_eq_ok_iff.mpr hd, ?_⟩
    rw [hrelays, Outcome.ok_bind, if_pos hverified, ← hkind, ← hauthor]
    rfl

theorem codecCorrect_iff (curve : Secp256k1) (bech32 : Bech32) (addr : NAddr)
    (hreplaceable : addr.kind.isReplaceable = true) :
    CodecCorrect (addr.asBech32String bech32)
        (tryFromBech32String curve bech32) addr.AllFit addr ↔
      addr.AllFit ∧ addr.Encodes ∧ addr.author.Verified curve ∧
          addr.kind.Canonical ∨
        ¬ addr.AllFit ∧ ¬ (addr.Encodes ∧ addr.Decodes curve) := by
  have hself : readTlvs curve (addr.entries.flatMap encodeTlv) = .ok addr ↔
      addr.AllFit ∧ addr.author.Verified curve ∧ addr.kind.Canonical := by
    rw [readTlvs_entries_eq_ok_iff hreplaceable, fromUtf8_cut_eq_some_iff,
      readRelays_self_iff, and_iff_left rfl, AllFit, and_assoc,
      EventKind.Canonical, eq_comm (a := addr.kind)]
  have hsome : (∃ found, readTlvs curve (addr.entries.flatMap encodeTlv) =
      .ok found) ↔ addr.Decodes curve := by
    simp only [readTlvs_entries_eq_ok_iff hreplaceable]
    rw [Decodes, ← exists_readRelays_iff, CutIsText, Option.isSome_iff_exists]
    constructor
    · rintro ⟨found, hd, hrelays, hverified, _⟩
      exact ⟨⟨found.d, hd⟩, ⟨found.relays, hrelays⟩, hverified⟩
    · rintro ⟨⟨d, hd⟩, ⟨relays, hrelays⟩, hverified⟩
      exact ⟨⟨d, relays, _, _⟩, hd, hrelays, hverified, rfl, rfl⟩
  refine (Types.codecCorrect_iff (isHrp_of_mem hrpNaddr (by decide))
    fun hvalue => (hself.mp hvalue).1).trans ?_
  rw [hself, hsome, length_entries, ← Encodes]
  refine or_congr_left ?_
  refine and_congr_right fun hfit => ?_
  rw [and_iff_right hfit]

end NAddr

/-- The four typed codecs do what they should on exactly these values. -/
theorem typed_codecs_correct_iff (curve : Secp256k1) (bech32 : Bech32) :
    (∀ addr : { addr : NAddr // addr.kind.isReplaceable = true },
      CodecCorrect (addr.1.asBech32String bech32)
          (NAddr.tryFromBech32String curve bech32) addr.1.AllFit addr.1 ↔
        addr.1.AllFit ∧ addr.1.Encodes ∧ addr.1.author.Verified curve ∧
            addr.1.kind.Canonical ∨
          ¬ addr.1.AllFit ∧ ¬ (addr.1.Encodes ∧ addr.1.Decodes curve)) ∧
    (∀ event : NEvent,
      CodecCorrect (event.asBech32String bech32)
          (NEvent.tryFromBech32String curve bech32) event.AllFit event ↔
        event.AllFit ∧ event.Encodes ∧ event.Kept curve ∨
          ¬ event.AllFit ∧ ¬ (event.Encodes ∧ event.Decodes)) ∧
    (∀ (verify : Bool) (profile : Profile),
      CodecCorrect (profile.asBech32String bech32)
          (Profile.tryFromBech32String curve bech32 · verify) profile.AllFit
          profile ↔
        profile.AllFit ∧ profile.Encodes ∧
            ¬ (verify = true ∧ ¬ profile.pubkey.Verified curve) ∨
          ¬ profile.AllFit ∧
            ¬ (profile.Encodes ∧ profile.Decodes curve verify)) ∧
    ∀ url : UncheckedUrl,
      CodecCorrect (Nrelay.asBech32String bech32 url)
          (Nrelay.tryFromBech32String bech32) (Fits url.text) url ↔
        Fits url.text ∨ ¬ CutIsText url.text :=
  ⟨fun addr => NAddr.codecCorrect_iff curve bech32 addr.1 addr.2,
    NEvent.codecCorrect_iff curve bech32,
    Profile.codecCorrect_iff curve bech32,
    Nrelay.codecCorrect_iff bech32⟩

/-- A profile of a key on the curve with one relay of 256 letters. -/
def longRelayProfile : Profile where
  pubkey := ⟨(Vector.replicate 31 0).push 1⟩
  relays := [⟨String.ofList (List.replicate 256 'a')⟩]

/-- The relay wraps to an empty one. -/
theorem long_relay_lost :
    ¬ CodecCorrect (longRelayProfile.asBech32String Bech32.reference)
      (Profile.tryFromBech32String Secp256k1.permissive Bech32.reference · true)
      longRelayProfile.AllFit longRelayProfile := by
  rw [Profile.codecCorrect_iff]
  rintro (⟨hfit, _⟩ | ⟨_, hlost⟩)
  · have hfits := hfit _ (List.mem_singleton_self _)
    revert hfits
    decide +kernel
  · refine hlost ⟨?_, ?_, ?_⟩
    · unfold Profile.Encodes
      decide +kernel
    · decide +kernel
    · intro relay hrelay
      rw [longRelayProfile, List.mem_singleton] at hrelay
      rw [hrelay]
      decide +kernel

end Codecs

end Types

end Gnostr
