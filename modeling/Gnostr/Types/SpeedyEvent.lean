/-
Events in the binary encoding of `types/src/nostr/versioned/event3.rs`, and the
fields that are read from it without decoding the whole: the offsets of all fields
up to the content are fixed, the tags come last.
-/
import Gnostr.Lib.Layout
import Gnostr.Types.EventV3

namespace Gnostr

namespace Types

/-- A tag is written as the sequence of its fields. -/
def TagV3.writeTo (tag : TagV3) : Option Bytes := writeVec writeString tag.fields

namespace EventV3

/-- `write_to_vec`: the fields one behind the other, in the order of the
declaration. -/
def writeToVec (event : EventV3) : Option Bytes := do
  let content ← writeString event.content
  let tags ← writeVec TagV3.writeTo event.tags
  return event.id.bytes.toList ++ event.pubkey.bytes.toList ++
    leBytes 8 event.createdAt.toUInt64.toNat ++
    leBytes 4 event.kind.toU32.toNat ++ event.sig.bytes.toList ++ content ++ tags

section Peek

variable {α : Type}

/-- Read what stands at a fixed place, if the bytes reach there. -/
def peek (start stop : ℕ) (read : Bytes → Option α) (bytes : Bytes) :
    Outcome Error (Option α) :=
  if bytes.length < stop then .ok none
  else do
    let field ← Outcome.slice bytes start stop
    return read field

/-- `i64::read_from_buffer`. -/
def readI64 (buffer : Bytes) : Option Int64 :=
  if buffer.length < 8 then none
  else some (UInt64.ofNat (ofLeBytes (buffer.take 8))).toInt64

/-- `u32::read_from_buffer`. -/
def readU32 (buffer : Bytes) : Option UInt32 :=
  if buffer.length < 4 then none
  else some (UInt32.ofNat (ofLeBytes (buffer.take 4)))

def getIdFromSpeedyBytes (bytes : Bytes) : Outcome Error (Option Id) :=
  peek 0 32 (fun field => (tryIntoArray 32 field).map Id.mk) bytes

def getPubkeyFromSpeedyBytes (curve : Secp256k1) (bytes : Bytes) :
    Outcome Error (Option PublicKey) :=
  peek 32 64 (fun field => (PublicKey.fromBytes curve field false).toOption) bytes

def getCreatedAtFromSpeedyBytes (bytes : Bytes) : Outcome Error (Option Int64) :=
  peek 64 72 readI64 bytes

def getKindFromSpeedyBytes (bytes : Bytes) : Outcome Error (Option EventKind) :=
  peek 72 76 (fun field => (readU32 field).map EventKind.ofU32) bytes

/-- The length is in the byte order of the machine, here the lowest byte first.
Alone among these functions it does not look at how many bytes there are.  What
is cut out is not checked to be text; it is one when it was written as one. -/
def getContentFromSpeedyBytes (bytes : Bytes) : Outcome Error (Option String) := do
  let lengthBytes ← Outcome.slice bytes 140 144
  let array ← Outcome.unwrap (tryIntoArray 4 lengthBytes)
  let content ← Outcome.slice bytes 144 (144 + ofLeBytes array.toList)
  some <$> Outcome.unwrap (fromUtf8 content)

theorem peek_take {start stop : ℕ} {read : Bytes → Option α}
    {bytes before field : Bytes} (hlayout : before ++ field <+: bytes)
    (hstart : before.length = start) (hstop : start + field.length = stop)
    (kept : ℕ) :
    peek start stop read (bytes.take kept) =
      .ok (if stop ≤ kept then read field else none) := by
  have hlength : stop ≤ bytes.length := by
    rw [← hstop, ← hstart, ← List.length_append]
    exact hlayout.length_le
  rw [peek, slice_take_of_prefix hlayout hstart hstop, List.length_take]
  by_cases hkept : stop ≤ kept
  · rw [if_neg (Nat.not_lt.mpr (le_min hkept hlength)), if_pos hkept,
      if_pos hkept]
    rfl
  · rw [if_pos (min_lt_of_left_lt (Nat.not_le.mp hkept)), if_neg hkept]

end Peek

theorem readI64_leBytes (value : Int64) :
    readI64 (leBytes 8 value.toUInt64.toNat) = some value := by
  have hall : (leBytes 8 value.toUInt64.toNat).take 8 =
      leBytes 8 value.toUInt64.toNat := List.take_of_length_le (by simp)
  rw [readI64, if_neg (by simp), hall,
    ofLeBytes_leBytes value.toUInt64.toNat_lt, UInt64.ofNat_toNat]
  rfl

theorem readU32_leBytes (value : UInt32) :
    readU32 (leBytes 4 value.toNat) = some value := by
  have hall : (leBytes 4 value.toNat).take 4 = leBytes 4 value.toNat :=
    List.take_of_length_le (by simp)
  rw [readU32, if_neg (by simp), hall, ofLeBytes_leBytes value.toNat_lt,
    UInt32.ofNat_toNat]

section Written

variable {event : EventV3} {bytes : Bytes}

/-- Every field but the tags is at a place that does not depend on the tags. -/
theorem exists_layout (hwrite : event.writeToVec = some bytes) :
    (utf8 event.content).length < 2 ^ 32 ∧ ∃ tags : Bytes,
      bytes = event.id.bytes.toList ++ (event.pubkey.bytes.toList ++
        (leBytes 8 event.createdAt.toUInt64.toNat ++
          (leBytes 4 event.kind.toU32.toNat ++ (event.sig.bytes.toList ++
            (leBytes 4 (utf8 event.content).length ++
              (utf8 event.content ++ tags)))))) := by
  rw [writeToVec, Option.bind_eq_bind, Option.bind_eq_some_iff] at hwrite
  obtain ⟨content, hcontent, hwrite⟩ := hwrite
  rw [Option.bind_eq_some_iff] at hwrite
  obtain ⟨tags, -, hwrite⟩ := hwrite
  obtain ⟨hlength, rfl⟩ := writeString_eq_some_iff.mp hcontent
  refine ⟨hlength, tags, ?_⟩
  rw [← Option.some.inj hwrite]
  simp only [List.append_assoc]

theorem getIdFromSpeedyBytes_take (hwrite : event.writeToVec = some bytes)
    (kept : ℕ) :
    getIdFromSpeedyBytes (bytes.take kept) =
      .ok (if 32 ≤ kept then some event.id else none) := by
  obtain ⟨-, tags, hbytes⟩ := exists_layout hwrite
  have hlayout : [] ++ event.id.bytes.toList <+: bytes := by
    rw [hbytes]
    exact List.prefix_append _ _
  rw [getIdFromSpeedyBytes, peek_take hlayout List.length_nil (by simp),
    tryIntoArray_toList]
  rfl

theorem getPubkeyFromSpeedyBytes_take (curve : Secp256k1)
    (hwrite : event.writeToVec = some bytes) (kept : ℕ) :
    getPubkeyFromSpeedyBytes curve (bytes.take kept) =
      .ok (if 64 ≤ kept then some event.pubkey else none) := by
  obtain ⟨-, tags, hbytes⟩ := exists_layout hwrite
  have hlayout : event.id.bytes.toList ++ event.pubkey.bytes.toList <+: bytes := by
    rw [hbytes]
    simp only [List.prefix_append_right_inj, List.prefix_append]
  have hread : PublicKey.fromBytes curve event.pubkey.bytes.toList false =
      .ok event.pubkey := by
    rw [PublicKey.fromBytes_bytes]
    exact if_neg fun hboth => Bool.false_ne_true hboth.1
  rw [getPubkeyFromSpeedyBytes, peek_take hlayout (by simp) (by simp), hread]
  rfl

theorem getCreatedAtFromSpeedyBytes_take
    (hwrite : event.writeToVec = some bytes) (kept : ℕ) :
    getCreatedAtFromSpeedyBytes (bytes.take kept) =
      .ok (if 72 ≤ kept then some event.createdAt else none) := by
  obtain ⟨-, tags, hbytes⟩ := exists_layout hwrite
  have hlayout : event.id.bytes.toList ++ event.pubkey.bytes.toList ++
      leBytes 8 event.createdAt.toUInt64.toNat <+: bytes := by
    rw [hbytes]
    simp only [List.append_assoc, List.prefix_append_right_inj,
      List.prefix_append]
  rw [getCreatedAtFromSpeedyBytes, peek_take hlayout (by simp) (by simp),
    readI64_leBytes]

theorem getKindFromSpeedyBytes_take (hwrite : event.writeToVec = some bytes)
    (kept : ℕ) :
    getKindFromSpeedyBytes (bytes.take kept) =
      .ok (if 76 ≤ kept then some (EventKind.ofU32 event.kind.toU32)
        else none) := by
  obtain ⟨-, tags, hbytes⟩ := exists_layout hwrite
  have hlayout : event.id.bytes.toList ++ event.pubkey.bytes.toList ++
      leBytes 8 event.createdAt.toUInt64.toNat ++
        leBytes 4 event.kind.toU32.toNat <+: bytes := by
    rw [hbytes]
    simp only [List.append_assoc, List.prefix_append_right_inj,
      List.prefix_append]
  rw [getKindFromSpeedyBytes, peek_take hlayout (by simp) (by simp),
    readU32_leBytes]
  rfl

/-- The content is given where it is there whole, and nothing is checked where
it is not. -/
theorem getContentFromSpeedyBytes_take (hwrite : event.writeToVec = some bytes)
    (kept : ℕ) :
    getContentFromSpeedyBytes (bytes.take kept) =
      if 144 + (utf8 event.content).length ≤ kept then .ok (some event.content)
      else .panic := by
  obtain ⟨hlength, tags, hbytes⟩ := exists_layout hwrite
  have hcontent : event.id.bytes.toList ++ event.pubkey.bytes.toList ++
      leBytes 8 event.createdAt.toUInt64.toNat ++
        leBytes 4 event.kind.toU32.toNat ++ event.sig.bytes.toList ++
          leBytes 4 (utf8 event.content).length ++ utf8 event.content <+:
            bytes := by
    rw [hbytes]
    simp only [List.append_assoc, List.prefix_append_right_inj,
      List.prefix_append]
  have hhead := (List.prefix_append _ _).trans hcontent
  rw [getContentFromSpeedyBytes, slice_take_of_prefix hhead (by simp) (by simp)]
  by_cases hkept : 144 ≤ kept
  · have harray : tryIntoArray 4 (leBytes 4 (utf8 event.content).length) = _ :=
      dif_pos (length_leBytes _ _)
    rw [if_pos hkept, Outcome.ok_bind, harray, Outcome.unwrap_some,
      Outcome.ok_bind, Vector.toList_mk, ofLeBytes_leBytes hlength,
      slice_take_of_prefix hcontent (by simp) rfl]
    split_ifs
    · rw [Outcome.ok_bind, fromUtf8_utf8]
      rfl
    · rfl
  · rw [if_neg hkept, Outcome.panic_bind, if_neg (by omega)]

/-- A peek gives nothing or the field. -/
def PeekSound {α : Type} (result : Outcome Error (Option α)) (field : α) : Prop :=
  result = .ok none ∨ result = .ok (some field)

theorem not_peekSound_panic {α : Type} (field : α) :
    ¬ PeekSound (.panic : Outcome Error (Option α)) field := by
  rintro (hnone | hfield)
  · cases hnone
  · cases hfield

/-- Every peek gives the field of the event. -/
structure PeeksExact (curve : Secp256k1) (event : EventV3) (bytes : Bytes) :
    Prop where
  id : getIdFromSpeedyBytes bytes = .ok (some event.id)
  pubkey : getPubkeyFromSpeedyBytes curve bytes = .ok (some event.pubkey)
  createdAt : getCreatedAtFromSpeedyBytes bytes = .ok (some event.createdAt)
  kind : getKindFromSpeedyBytes bytes = .ok (some event.kind)
  content : getContentFromSpeedyBytes bytes = .ok (some event.content)

/-- Every peek gives nothing or the field of the event. -/
structure PeeksSound (curve : Secp256k1) (event : EventV3) (bytes : Bytes) :
    Prop where
  id : PeekSound (getIdFromSpeedyBytes bytes) event.id
  pubkey : PeekSound (getPubkeyFromSpeedyBytes curve bytes) event.pubkey
  createdAt : PeekSound (getCreatedAtFromSpeedyBytes bytes) event.createdAt
  kind : PeekSound (getKindFromSpeedyBytes bytes) event.kind
  content : PeekSound (getContentFromSpeedyBytes bytes) event.content

theorem PeeksExact.sound {curve : Secp256k1} {event : EventV3} {bytes : Bytes}
    (hexact : PeeksExact curve event bytes) : PeeksSound curve event bytes where
  id := .inr hexact.id
  pubkey := .inr hexact.pubkey
  createdAt := .inr hexact.createdAt
  kind := .inr hexact.kind
  content := .inr hexact.content

/-- Where the content is there whole, all fields are; the kind is read as the one
its number stands for. -/
theorem peeksExact_take_iff (curve : Secp256k1)
    (hwrite : event.writeToVec = some bytes) {kept : ℕ}
    (hkept : 144 + (utf8 event.content).length ≤ kept) :
    PeeksExact curve event (bytes.take kept) ↔ event.kind.Canonical := by
  have hkind := getKindFromSpeedyBytes_take hwrite kept
  rw [if_pos (by omega)] at hkind
  constructor
  · intro hexact
    rw [hexact.kind, Outcome.ok.injEq, Option.some.injEq] at hkind
    exact hkind.symm
  · intro hcanonical
    have hcontent := getContentFromSpeedyBytes_take hwrite kept
    have hid := getIdFromSpeedyBytes_take hwrite kept
    have hpubkey := getPubkeyFromSpeedyBytes_take curve hwrite kept
    have hcreatedAt := getCreatedAtFromSpeedyBytes_take hwrite kept
    rw [if_pos (by omega)] at hid hpubkey hcreatedAt
    rw [if_pos hkept] at hcontent
    refine ⟨hid, hpubkey, hcreatedAt, ?_, hcontent⟩
    rw [hkind, hcanonical]

/-- On the whole encoding every peek gives the field of the event exactly when
the kind is the one its number stands for.  On what is left of it when it is cut
short, every peek gives nothing or the field exactly when, besides, the cut is not
before the end of the content. -/
theorem peeks_agree_iff (curve : Secp256k1) (event : EventV3) (bytes : Bytes)
    (hwrite : event.writeToVec = some bytes) :
    (PeeksExact curve event bytes ↔ event.kind.Canonical) ∧
      ∀ kept < bytes.length, PeeksSound curve event (bytes.take kept) ↔
        144 + (utf8 event.content).length ≤ kept ∧ event.kind.Canonical := by
  constructor
  · obtain ⟨-, tags, hbytes⟩ := exists_layout hwrite
    have hlength : 144 + (utf8 event.content).length ≤ bytes.length := by
      rw [hbytes]
      simp only [List.length_append, Vector.length_toList, length_leBytes]
      omega
    rw [← peeksExact_take_iff curve hwrite hlength, List.take_length]
  · intro kept _
    constructor
    · intro hsound
      have hcontent := hsound.content
      rw [getContentFromSpeedyBytes_take hwrite] at hcontent
      split_ifs at hcontent with hkept
      · refine ⟨hkept, ?_⟩
        have hkind := hsound.kind
        rw [getKindFromSpeedyBytes_take hwrite, if_pos (by omega), PeekSound,
          Outcome.ok.injEq, Outcome.ok.injEq, Option.some.injEq] at hkind
        exact hkind.resolve_left (Option.some_ne_none _)
      · exact (not_peekSound_panic _ hcontent).elim
    · rintro ⟨hkept, hcanonical⟩
      exact ((peeksExact_take_iff curve hwrite hkept).mpr hcanonical).sound

end Written

/-- A text note with a tag and the content "Hi". -/
def greeting : EventV3 where
  id := ⟨Vector.replicate 32 1⟩
  pubkey := ⟨Vector.replicate 32 2⟩
  createdAt := 3
  kind := .wellKnown .textNote
  sig := ⟨Vector.replicate 64 4⟩
  content := "Hi"
  tags := [⟨["t", "x"]⟩]

/-- The encoding of it. -/
def greetingBytes : Bytes :=
  List.replicate 32 1 ++ List.replicate 32 2 ++ [3, 0, 0, 0, 0, 0, 0, 0] ++
    [1, 0, 0, 0] ++ List.replicate 64 4 ++ [2, 0, 0, 0, 72, 105] ++
      [1, 0, 0, 0, 2, 0, 0, 0, 1, 0, 0, 0, 116, 1, 0, 0, 0, 120]

theorem writeToVec_greeting : greeting.writeToVec = some greetingBytes := by
  decide +kernel

theorem peeks_agree_iff_greeting :
    greeting.writeToVec = some greetingBytes ∧
      (PeeksExact Secp256k1.permissive greeting greetingBytes ↔
        greeting.kind.Canonical) ∧
      ∀ kept < greetingBytes.length,
        PeeksSound Secp256k1.permissive greeting (greetingBytes.take kept) ↔
          144 + (utf8 greeting.content).length ≤ kept ∧
            greeting.kind.Canonical :=
  ⟨writeToVec_greeting, peeks_agree_iff Secp256k1.permissive greeting
    greetingBytes writeToVec_greeting⟩

/-- With the last byte of the content gone, the peek at the content panics. -/
theorem not_peeksSound_cut :
    greeting.writeToVec = some greetingBytes ∧
      getContentFromSpeedyBytes (greetingBytes.take 145) = .panic ∧
        ¬ PeeksSound Secp256k1.permissive greeting (greetingBytes.take 145) := by
  have hpanic : getContentFromSpeedyBytes (greetingBytes.take 145) = .panic := by
    decide +kernel
  refine ⟨writeToVec_greeting, hpanic, fun hsound => ?_⟩
  have hcontent := hsound.content
  rw [hpanic] at hcontent
  exact not_peekSound_panic _ hcontent

end EventV3

end Types

end Gnostr
