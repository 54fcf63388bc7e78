/-
Proof of work of `types/src/nostr/signer.rs` and `mod.rs`: the leading zero bits of
an id, and the nonce tag that is changed until there are enough of them; and the work
that `pow` of `versioned/event3.rs` finds in an event.
-/
import Gnostr.Types.EventV3
import Gnostr.Types.Tag

namespace Gnostr

namespace Types

section LeadingZeroBits

/-- `leading_zeros` of a byte. -/
def leadingZeros (b : UInt8) : ℕ := if b = 0 then 8 else 7 - b.toNat.log2

/-- The zero bits in front of the first bit that is set. -/
def leadingZeroBits : Bytes → ℕ
  | [] => 0
  | b :: bytes => if b = 0 then 8 + leadingZeroBits bytes else leadingZeros b

/-- `a + b` on 8-bit integers; whether an overflow is a panic depends on the
build. -/
def addUInt8 (overflowChecks : Bool) (a b : UInt8) : Outcome Error UInt8 :=
  if overflowChecks = true ∧ 2 ^ 8 ≤ a.toNat + b.toNat then .panic else .ok (a + b)

/-- The loop of `get_leading_zero_bits`. -/
def getLeadingZeroBitsFrom (overflowChecks : Bool) (res : UInt8) :
    Bytes → Outcome Error UInt8
  | [] => .ok res
  | b :: bytes =>
      if b = 0 then do
        let res ← addUInt8 overflowChecks res 8
        getLeadingZeroBitsFrom overflowChecks res bytes
      else addUInt8 overflowChecks res (UInt8.ofNat (leadingZeros b))

/-- Count the leading zero bits in 8 bits, which do not hold 256. -/
def getLeadingZeroBits (overflowChecks : Bool) (bytes : Bytes) :
    Outcome Error UInt8 := getLeadingZeroBitsFrom overflowChecks 0 bytes

theorem addUInt8_ofNat (overflowChecks : Bool) (res : UInt8) {n : ℕ}
    (hn : n < 2 ^ 8) :
    addUInt8 overflowChecks res (UInt8.ofNat n) =
      if overflowChecks = true ∧ 2 ^ 8 ≤ res.toNat + n then .panic
      else .ok (UInt8.ofNat (res.toNat + n)) := by
  rw [addUInt8, UInt8.toNat_ofNat_of_lt' hn, UInt8.ofNat_add, UInt8.ofNat_toNat]

theorem leadingZeros_lt (b : UInt8) : leadingZeros b < 2 ^ 8 := by
  unfold leadingZeros
  split <;> omega

/-- The loop counts the leading zero bits, as far as 8 bits hold them. -/
theorem getLeadingZeroBitsFrom_eq (overflowChecks : Bool) (bytes : Bytes)
    (res : UInt8) :
    getLeadingZeroBitsFrom overflowChecks res bytes =
      if overflowChecks = true ∧ 2 ^ 8 ≤ res.toNat + leadingZeroBits bytes then
        .panic
      else .ok (UInt8.ofNat (res.toNat + leadingZeroBits bytes)) := by
  induction bytes generalizing res with
  | nil =>
      have hlt := res.toNat_lt
      rw [getLeadingZeroBitsFrom, leadingZeroBits, if_neg (by omega), Nat.add_zero,
        UInt8.ofNat_toNat]
  | cons b bytes ih =>
      rw [getLeadingZeroBitsFrom, leadingZeroBits]
      by_cases hzero : b = 0
      · rw [if_pos hzero, if_pos hzero]
        have hadd := addUInt8_ofNat overflowChecks res (by decide : 8 < 2 ^ 8)
        rw [show (8 : UInt8) = UInt8.ofNat 8 from rfl, hadd]
        by_cases hover : overflowChecks = true ∧ 2 ^ 8 ≤ res.toNat + 8
        · have hover' : overflowChecks = true ∧
              2 ^ 8 ≤ res.toNat + (8 + leadingZeroBits bytes) :=
            ⟨hover.1, hover.2.trans (by omega)⟩
          rw [if_pos hover, if_pos hover', Outcome.panic_bind]
        · rw [if_neg hover, Outcome.ok_bind, ih, ← Nat.add_assoc]
          cases overflowChecks with
          | false =>
              simp only [Bool.false_eq_true, false_and, if_false]
              rw [UInt8.ofNat_add, UInt8.ofNat_toNat, ← UInt8.ofNat_add]
          | true =>
              have hlt : res.toNat + 8 < 2 ^ 8 := by
                by_contra hge
                exact hover ⟨rfl, Nat.not_lt.mp hge⟩
              rw [UInt8.toNat_ofNat_of_lt' hlt]
      · rw [if_neg hzero, if_neg hzero, addUInt8_ofNat _ _ (leadingZeros_lt b)]

/-- What is counted is never too much. -/
theorem le_leadingZeroBits {overflowChecks : Bool} {bytes : Bytes}
    {leading : UInt8}
    (hcount : getLeadingZeroBits overflowChecks bytes = .ok leading) :
    leading.toNat ≤ leadingZeroBits bytes := by
  rw [getLeadingZeroBits, getLeadingZeroBitsFrom_eq] at hcount
  split at hcount
  · cases hcount
  · rw [Outcome.ok.injEq] at hcount
    rw [← hcount, UInt8.toNat_ofNat', UInt8.toNat_zero, Nat.zero_add]
    exact Nat.mod_le _ _

end LeadingZeroBits

section Nonce

/-- Parse a nonce tag. -/
def TagV3.parseNonce (tag : TagV3) : Outcome Error (UInt64 × Option UInt32) :=
  match tag.fields with
  | name :: value :: rest =>
      if name ≠ "nonce" then .err .tagMismatch
      else do
        let nonce ← Outcome.okOr .parseInt (parseUnsigned (2 ^ 64) value.toList)
        match rest with
        | [] => return (UInt64.ofNat nonce, none)
        | target :: _ => do
            let target ← Outcome.okOr .parseInt
              (parseUnsigned (2 ^ 32) target.toList)
            return (UInt64.ofNat nonce, some (UInt32.ofNat target))
  | _ => .err .tagMismatch

/-- A nonce tag that commits to a number of bits. -/
def nonceTag (nonce : UInt64) (zeroBits : UInt8) : TagV3 :=
  ⟨["nonce", String.ofList (decimal nonce.toNat),
    String.ofList (decimal zeroBits.toNat)]⟩

/-- Strip the nonce tags, and add one to the end. -/
def powInput (input : PreEventV3) (zeroBits : UInt8) : PreEventV3 :=
  { input with
    tags := (input.tags.filter fun t => t.tagname ≠ "nonce") ++
      [⟨["nonce", "0", String.ofList (decimal zeroBits.toNat)]⟩] }

/-- `input.tags[index].set_index(1, format!("{attempt}"))`. -/
def PreEventV3.setNonce (input : PreEventV3) (index : ℕ) (attempt : UInt64) :
    PreEventV3 :=
  { input with
    tags := input.tags.modify index fun tag =>
      tag.setIndex 1 (String.ofList (decimal attempt.toNat)) }

theorem TagV3.setIndex_setIndex (tag : TagV3) (index : ℕ)
    (first second : String) :
    (tag.setIndex index first).setIndex index second = tag.setIndex index second := by
  have hlength : index + 1 ≤
      ((tag.fields.rightpad (index + 1) "").set index first).length := by
    rw [List.length_set, List.length_rightpad]
    exact Nat.le_max_left _ _
  unfold TagV3.setIndex
  dsimp only
  rw [List.rightpad, Nat.sub_eq_zero_of_le hlength, List.replicate_zero,
    List.append_nil, List.set_set]

/-- An attempt overwrites the one before. -/
theorem PreEventV3.setNonce_setNonce (input : PreEventV3) (index : ℕ)
    (first second : UInt64) :
    (input.setNonce index first).setNonce index second =
      input.setNonce index second := by
  unfold PreEventV3.setNonce
  dsimp only
  rw [List.modify_modify_eq]
  congr 2
  funext tag
  exact tag.setIndex_setIndex 1 _ _

/-- The last tag is the one that an attempt changes. -/
theorem setNonce_powInput (input : PreEventV3) (zeroBits : UInt8)
    (attempt : UInt64) :
    (powInput input zeroBits).setNonce
        ((powInput input zeroBits).tags.length - 1) attempt =
      { input with
        tags := (input.tags.filter fun t => t.tagname ≠ "nonce") ++
          [nonceTag attempt zeroBits] } := by
  unfold PreEventV3.setNonce powInput
  dsimp only
  rw [List.length_append, List.length_singleton, Nat.add_sub_cancel,
    List.modify_eq_take_drop, List.take_left, List.drop_left]
  rfl

end Nonce

section CarriesWork

/-- The event is the input with its nonce tags replaced by one at the end, which
commits to the zero bits that the id begins with. -/
structure CarriesWork (input : PreEventV3) (zeroBits : UInt8) (event : EventV3) :
    Prop where
  work : zeroBits.toNat ≤ leadingZeroBits event.id.bytes.toList
  nonce_tag : ∃ tag nonce, event.tags.getLast? = some tag ∧
    event.tags.filter (fun t => t.tagname = "nonce") = [tag] ∧
      tag.parseNonce = .ok (nonce, some zeroBits.toUInt32)
  other_tags : event.tags.filter (fun t => t.tagname ≠ "nonce") =
    input.tags.filter (fun t => t.tagname ≠ "nonce")
  pubkey_eq : event.pubkey = input.pubkey
  createdAt_eq : event.createdAt = input.createdAt
  kind_eq : event.kind = input.kind
  content_eq : event.content = input.content

theorem parseNonce_nonceTag (nonce : UInt64) (zeroBits : UInt8) :
    (nonceTag nonce zeroBits).parseNonce = .ok (nonce, some zeroBits.toUInt32) := by
  have hlt : zeroBits.toNat < 2 ^ 32 :=
    zeroBits.toNat_lt.trans (by decide)
  have hsame : UInt32.ofNat zeroBits.toNat = zeroBits.toUInt32 := by
    rw [← UInt32.toNat_inj, UInt32.toNat_ofNat_of_lt' hlt, UInt8.toNat_toUInt32]
  unfold TagV3.parseNonce nonceTag
  simp only [ne_eq, not_true_eq_false, if_false, String.toList_ofList,
    parseUnsigned_decimal nonce.toNat_lt, parseUnsigned_decimal hlt,
    Outcome.okOr_some, Outcome.ok_bind, UInt64.ofNat_toNat, hsame]
  rfl

/-- Of what is signed with a nonce, only the work is left to show. -/
theorem carriesWork_iff {input : PreEventV3} {zeroBits : UInt8}
    {nonce : UInt64} {event : EventV3}
    (hevent : event.preEvent = { input with
      tags := (input.tags.filter fun t => t.tagname ≠ "nonce") ++
        [nonceTag nonce zeroBits] }) :
    CarriesWork input zeroBits event ↔
      zeroBits.toNat ≤ leadingZeroBits event.id.bytes.toList := by
  refine ⟨CarriesWork.work, fun hwork => ?_⟩
  have htags : event.tags = (input.tags.filter fun t => t.tagname ≠ "nonce") ++
      [nonceTag nonce zeroBits] := congrArg PreEventV3.tags hevent
  have hname : (nonceTag nonce zeroBits).tagname = "nonce" := rfl
  exact {
    work := hwork
    nonce_tag := by
      refine ⟨nonceTag nonce zeroBits, nonce, ?_, ?_, parseNonce_nonceTag _ _⟩
      · rw [htags, List.getLast?_concat]
      · rw [htags, List.filter_append, List.filter_filter]
        simp [hname]
    other_tags := by
      rw [htags, List.filter_append, List.filter_filter]
      simp [hname]
    pubkey_eq := congrArg PreEventV3.pubkey hevent
    createdAt_eq := congrArg PreEventV3.createdAt hevent
    kind_eq := congrArg PreEventV3.kind hevent
    content_eq := congrArg PreEventV3.content hevent }

end CarriesWork

section Pow

/-- The target that a nonce tag commits to. -/
def TagV3.committedTarget (tag : TagV3) : Option UInt32 :=
  match tag.parseNonce with
  | .ok (_, some target) => some target
  | _ => none

/-- `a.min(b)` on 8-bit integers. -/
def minUInt8 (a b : UInt8) : UInt8 := if a ≤ b then a else b

/-- Get the proof-of-work count of leading bits. -/
def EventV3.pow (overflowChecks : Bool) (event : EventV3) : Outcome Error UInt8 := do
  let zeroes ← getLeadingZeroBits overflowChecks event.id.bytes.toList
  match event.tags.findSome? TagV3.committedTarget with
  | some target => return minUInt8 zeroes target.toUInt8
  | none => return 0

/-- The leading zero bits, as far as they were meant. -/
def EventV3.committedWork (event : EventV3) : ℕ :=
  match event.tags.findSome? TagV3.committedTarget with
  | some target => min (leadingZeroBits event.id.bytes.toList) target.toNat
  | none => 0

/-- The work of an event is counted in every build. -/
def EventV3.CountsWork (event : EventV3) : Prop :=
  ∀ overflowChecks, ∃ work, event.pow overflowChecks = .ok work ∧
    work.toNat = event.committedWork

/-- Only zeros have a zero bit in every place. -/
theorem leadingZeroBits_lt_iff {bytes : Bytes} :
    leadingZeroBits bytes < 8 * bytes.length ↔ ∃ b ∈ bytes, b ≠ 0 := by
  induction bytes with
  | nil => simp [leadingZeroBits]
  | cons b bytes ih =>
      rw [leadingZeroBits, List.length_cons, List.exists_mem_cons_iff, ← ih]
      split
      · rename_i hzero
        rw [hzero, or_iff_right (not_not_intro rfl)]
        omega
      · rename_i hset
        refine iff_of_true ?_ (.inl hset)
        rw [leadingZeros, if_neg hset]
        omega

theorem toNat_minUInt8 (a b : UInt8) : (minUInt8 a b).toNat = min a.toNat b.toNat := by
  rw [minUInt8]
  split
  · rename_i hle
    rw [Nat.min_eq_left (UInt8.le_iff_toNat_le.mp hle)]
  · rename_i hlt
    rw [UInt8.le_iff_toNat_le] at hlt
    rw [Nat.min_eq_right (Nat.le_of_not_le hlt)]

/-- What is returned, unless the leading zero bits overflow. -/
theorem EventV3.pow_eq (overflowChecks : Bool) (event : EventV3) :
    event.pow overflowChecks =
      if overflowChecks = true ∧ 2 ^ 8 ≤ leadingZeroBits event.id.bytes.toList then .panic
      else .ok (match event.tags.findSome? TagV3.committedTarget with
        | some target =>
            minUInt8 (UInt8.ofNat (leadingZeroBits event.id.bytes.toList)) target.toUInt8
        | none => 0) := by
  rw [pow, getLeadingZeroBits, getLeadingZeroBitsFrom_eq, UInt8.toNat_zero, Nat.zero_add]
  split
  · rfl
  · rw [Outcome.ok_bind]
    cases event.tags.findSome? TagV3.committedTarget <;> rfl

/-- The work of an event is counted exactly when a bit of its id is set, and the target
is less than 256 or the lowest 8 bits of it are no less than the leading zero bits. -/
theorem EventV3.countsWork_iff (event : EventV3) :
    event.CountsWork ↔
      (∃ b ∈ event.id.bytes.toList, b ≠ 0) ∧
        ∀ target, event.tags.findSome? TagV3.committedTarget = some target →
          target.toNat < 2 ^ 8 ∨
            leadingZeroBits event.id.bytes.toList ≤ target.toNat % 2 ^ 8 := by
  have hlength : event.id.bytes.toList.length = 32 := Vector.length_toList
  rw [← leadingZeroBits_lt_iff, hlength]
  constructor
  · intro hcounts
    have hlt : leadingZeroBits event.id.bytes.toList < 8 * 32 := by
      by_contra hover
      obtain ⟨work, hwork, -⟩ := hcounts true
      rw [pow_eq, if_pos ⟨rfl, Nat.not_lt.mp hover⟩] at hwork
      cases hwork
    refine ⟨hlt, fun target htarget => ?_⟩
    obtain ⟨work, hwork, heq⟩ := hcounts false
    rw [pow_eq, if_neg (by simp), htarget, Outcome.ok.injEq] at hwork
    rw [committedWork, htarget, ← hwork, toNat_minUInt8, UInt32.toNat_toUInt8,
      UInt8.toNat_ofNat_of_lt' hlt] at heq
    dsimp only at heq
    omega
  · rintro ⟨hlt, htarget⟩ overflowChecks
    rw [pow_eq, if_neg (by omega), committedWork]
    refine ⟨_, rfl, ?_⟩
    cases hfound : event.tags.findSome? TagV3.committedTarget with
    | none => rfl
    | some target =>
        dsimp only
        rw [toNat_minUInt8, UInt32.toNat_toUInt8, UInt8.toNat_ofNat_of_lt' hlt]
        have hmod := htarget target hfound
        omega

/-- An event with this id and this target. -/
def committedNote (id : Id) (target : String) : EventV3 where
  id := id
  pubkey := ⟨Vector.replicate 32 1⟩
  createdAt := 1700000000
  kind := .wellKnown .textNote
  sig := ⟨Vector.replicate 64 0⟩
  content := ""
  tags := [⟨["nonce", "0", target]⟩]

/-- A target of 256 bits is taken for none, and an id of zeros is too much to count. -/
theorem EventV3.not_countsWork_committedNote :
    (¬ (committedNote ⟨Vector.replicate 32 1⟩ "256").CountsWork) ∧
      ¬ (committedNote ⟨Vector.replicate 32 0⟩ "20").CountsWork := by
  constructor
  · intro hcounts
    obtain ⟨work, hwork, heq⟩ := hcounts false
    have hpow : (committedNote ⟨Vector.replicate 32 1⟩ "256").pow false = .ok 0 := by
      decide +kernel
    rw [hpow, Outcome.ok.injEq] at hwork
    rw [← hwork] at heq
    revert heq
    decide +kernel
  · intro hcounts
    obtain ⟨work, hwork, -⟩ := hcounts true
    have hpow : (committedNote ⟨Vector.replicate 32 0⟩ "20").pow true = .panic := by
      decide +kernel
    rw [hpow] at hwork
    cases hwork

end Pow

end Types

end Gnostr
