/-
Delegations of `types/src/nostr/nip26.rs`: the conditions that are written into a tag
and signed are the ones that `verify` reads out of it.
-/
import Gnostr.Types.Delegation

namespace Gnostr

namespace Types

namespace Nip26

open DelegationConditions

/-- A delegation, which allows one key to sign an event on behalf of another key. -/
structure Delegation where
  delegator : Vector UInt8 32
  delegatee : Vector UInt8 32
  eventKind : UInt16
  until_ : Option UInt64
  since : Option UInt64
deriving Repr, DecidableEq

namespace Delegation

variable (delegation : Delegation)

def buildConditionsString : String :=
  let conditions := "kind=" ++ String.ofList (decimal delegation.eventKind.toNat)
  let conditions := match delegation.until_ with
    | some until_ => conditions ++ "&created_at<" ++ String.ofList (decimal until_.toNat)
    | none => conditions
  match delegation.since with
  | some since => conditions ++ "&created_at>" ++ String.ofList (decimal since.toNat)
  | none => conditions

section CreateTag

variable (hex : Hex) (prims : Primitives) {curve : Secp256k1} (schnorr : Schnorr curve)
  (privateKey : SecretKey curve) (random : Vector UInt8 32)

/-- What is signed. -/
def message : String :=
  token (hex.encode delegation.delegatee.toList) delegation.buildConditionsString

def signature : Signature :=
  schnorr.sign privateKey (prims.sha256 (utf8 (delegation.message hex))) random

/-- Create a delegation tag. -/
def createTag : String :=
  String.ofList (tagText hex ⟨delegation.delegator⟩ delegation.buildConditionsString
    (delegation.signature hex prims schnorr privateKey random))

end CreateTag

/-- The events that are delegated: of the kind, and between the two times. -/
structure Covers (eventKind : UInt16) (createdAt : UInt64) : Prop where
  kind : eventKind = delegation.eventKind
  since : ∀ since, delegation.since = some since → since < createdAt
  until_ : ∀ until_, delegation.until_ = some until_ → createdAt < until_

end Delegation

section Conditions

/-- The parts of the conditions, as they are written between the signs. -/
def Delegation.parts (delegation : Delegation) : List (List Char) :=
  (kindClause ++ decimal delegation.eventKind.toNat) ::
    ((delegation.until_.map fun until_ =>
        createdBeforeClause ++ decimal until_.toNat).toList ++
      (delegation.since.map fun since =>
        createdAfterClause ++ decimal since.toNat).toList)

theorem not_mem_clause {c : Char} {name : List Char} (hname : c ∉ name)
    (hdigit : c.isDigit = false) (number : ℕ) : c ∉ name ++ decimal number := by
  rw [List.mem_append, not_or]
  exact ⟨hname, not_mem_decimal hdigit number⟩

/-- No part has a sign that ends it. -/
theorem Delegation.not_mem_parts (delegation : Delegation) {c : Char}
    (hclause : ∀ name ∈ [kindClause, createdBeforeClause, createdAfterClause], c ∉ name)
    (hdigit : c.isDigit = false) : ∀ part ∈ delegation.parts, c ∉ part := by
  simp only [List.forall_mem_cons, List.not_mem_nil, false_imp_iff, implies_true,
    and_true] at hclause
  obtain ⟨hkind, hbefore, hafter⟩ := hclause
  intro part hpart
  rw [parts, List.mem_cons, List.mem_append, Option.mem_toList, Option.mem_toList,
    Option.map_eq_some_iff, Option.map_eq_some_iff] at hpart
  rcases hpart with rfl | ⟨until_, -, rfl⟩ | ⟨since, -, rfl⟩
  · exact not_mem_clause hkind hdigit _
  · exact not_mem_clause hbefore hdigit _
  · exact not_mem_clause hafter hdigit _

theorem Delegation.toList_buildConditionsString (delegation : Delegation) :
    delegation.buildConditionsString.toList =
      ['&'].intercalate delegation.parts := by
  have hbefore : "&created_at<".toList = '&' :: createdBeforeClause := by decide +kernel
  have hafter : "&created_at>".toList = '&' :: createdAfterClause := by decide +kernel
  unfold buildConditionsString parts
  cases delegation.until_ <;> cases delegation.since <;>
    simp [String.toList_append, hbefore, hafter, kindClause, List.intercalate_cons_cons]

theorem Delegation.splitOn_buildConditionsString (delegation : Delegation) :
    delegation.buildConditionsString.toList.splitOn '&' = delegation.parts := by
  rw [toList_buildConditionsString]
  exact List.splitOn_intercalate '&'
    (delegation.not_mem_parts (by decide) (by decide)) (List.cons_ne_nil _ _)

/-- What stands between the parts is the sign or stands in a part. -/
theorem not_mem_intercalate {c sign : Char} (hsign : c ≠ sign) {parts : List (List Char)}
    (hparts : ∀ part ∈ parts, c ∉ part) : c ∉ [sign].intercalate parts := by
  induction parts with
  | nil => exact List.not_mem_nil
  | cons part parts ih =>
      rw [List.forall_mem_cons] at hparts
      cases parts with
      | nil =>
          rw [List.intercalate_singleton]
          exact hparts.1
      | cons next parts =>
          rw [List.intercalate_cons_cons, List.append_assoc, List.mem_append,
            List.mem_append, List.mem_singleton, not_or, not_or]
          exact ⟨hparts.1, hsign, ih hparts.2⟩

/-- A colon would end the field. -/
theorem Delegation.colon_not_mem_buildConditionsString (delegation : Delegation) :
    ':' ∉ delegation.buildConditionsString.toList := by
  rw [toList_buildConditionsString]
  exact not_mem_intercalate (by decide)
    (delegation.not_mem_parts (by decide) (by decide))

variable (eventKind : UInt16) (createdAt : UInt64)

theorem verifyConditions_kind {number : ℕ} (hnumber : number < 2 ^ 16)
    (parts : List (List Char)) :
    verifyConditions eventKind createdAt ((kindClause ++ decimal number) :: parts) =
      if number ≠ eventKind.toNat then some false
      else verifyConditions eventKind createdAt parts := by
  have hkind : (kindClause ++ decimal number).dropPrefix? kindClause =
      some (decimal number) := List.dropPrefix?_append_of_beq _ (beq_self_eq_true _)
  rw [verifyConditions, hkind]
  dsimp only
  rw [parseUnsigned_decimal hnumber, Option.bind_eq_bind, Option.bind_some]

theorem verifyConditions_before {number : ℕ} (hnumber : number < 2 ^ 64)
    (parts : List (List Char)) :
    verifyConditions eventKind createdAt
        ((createdBeforeClause ++ decimal number) :: parts) =
      if number ≤ createdAt.toNat then some false
      else verifyConditions eventKind createdAt parts := by
  have hbefore : (createdBeforeClause ++ decimal number).dropPrefix?
      createdBeforeClause = some (decimal number) :=
    List.dropPrefix?_append_of_beq _ (beq_self_eq_true _)
  rw [verifyConditions, Clause.dropPrefix?_eq_none hbefore (by decide), hbefore]
  dsimp only
  rw [parseUnsigned_decimal hnumber, Option.bind_eq_bind, Option.bind_some]

theorem verifyConditions_after {number : ℕ} (hnumber : number < 2 ^ 64)
    (parts : List (List Char)) :
    verifyConditions eventKind createdAt
        ((createdAfterClause ++ decimal number) :: parts) =
      if createdAt.toNat ≤ number then some false
      else verifyConditions eventKind createdAt parts := by
  have hafter : (createdAfterClause ++ decimal number).dropPrefix?
      createdAfterClause = some (decimal number) :=
    List.dropPrefix?_append_of_beq _ (beq_self_eq_true _)
  rw [verifyConditions, Clause.dropPrefix?_eq_none hafter (by decide)]
  dsimp only
  rw [Clause.dropPrefix?_eq_none hafter (by decide), hafter]
  dsimp only
  rw [parseUnsigned_decimal hnumber, Option.bind_eq_bind, Option.bind_some]

/-- A check of the loop, and the rest of it. -/
theorem ite_eq_some_true_iff {test : Prop} [Decidable test] {rest : Option Bool} :
    (if test then some false else rest) = some true ↔ ¬ test ∧ rest = some true := by
  split
  · rename_i htest
    exact iff_of_false (by simp) fun hboth => hboth.1 htest
  · rename_i htest
    exact (and_iff_right htest).symm

/-- A time that is absent is no bound. -/
theorem verifyConditions_until_iff (until_ : Option UInt64) (parts : List (List Char)) :
    verifyConditions eventKind createdAt
        ((until_.map fun until_ => createdBeforeClause ++ decimal until_.toNat).toList ++
          parts) = some true ↔
      (∀ bound, until_ = some bound → createdAt < bound) ∧
        verifyConditions eventKind createdAt parts = some true := by
  cases until_ with
  | none => simp
  | some bound =>
      have hcheck := verifyConditions_before eventKind createdAt bound.toNat_lt parts
      rw [Option.map_some, Option.toList_some, List.singleton_append, hcheck,
        ite_eq_some_true_iff, Nat.not_le, ← UInt64.lt_iff_toNat_lt]
      simp

theorem verifyConditions_since_iff (since : Option UInt64) :
    verifyConditions eventKind createdAt
        (since.map fun since => createdAfterClause ++ decimal since.toNat).toList =
          some true ↔
      ∀ bound, since = some bound → bound < createdAt := by
  cases since with
  | none => simp [verifyConditions]
  | some bound =>
      have hcheck := verifyConditions_after eventKind createdAt bound.toNat_lt []
      rw [Option.map_some, Option.toList_some, hcheck, ite_eq_some_true_iff, Nat.not_le,
        ← UInt64.lt_iff_toNat_lt]
      simp [verifyConditions]

/-- The conditions that are written hold of the events that are delegated. -/
theorem verifyConditions_parts_iff (delegation : Delegation) :
    verifyConditions eventKind createdAt delegation.parts = some true ↔
      delegation.Covers eventKind createdAt := by
  rw [Delegation.parts, verifyConditions_kind _ _ delegation.eventKind.toNat_lt,
    ite_eq_some_true_iff, not_not, UInt16.toNat_inj, verifyConditions_until_iff,
    verifyConditions_since_iff]
  exact ⟨fun ⟨hkind, huntil, hsince⟩ => ⟨hkind.symm, hsince, huntil⟩,
    fun hcovers => ⟨hcovers.kind.symm, hcovers.until_, hcovers.since⟩⟩

end Conditions

section Verify

theorem toList_token (delegatee conditions : String) :
    (token delegatee conditions).toList =
      "nostr:delegation:".toList ++ (delegatee.toList ++ ':' :: conditions.toList) := by
  have hcolon : ":".toList = [':'] := by decide +kernel
  unfold token
  rw [String.toList_append, String.toList_append, String.toList_append, hcolon,
    List.append_assoc, List.append_assoc, List.singleton_append]

/-- A delegatee and conditions are told apart in the text that is signed. -/
theorem token_inj {first second conditions conditions' : String}
    (hfirst : ':' ∉ first.toList) (hsecond : ':' ∉ second.toList)
    (htoken : token first conditions = token second conditions') :
    first = second ∧ conditions = conditions' := by
  have htext : first.toList ++ ':' :: conditions.toList =
      second.toList ++ ':' :: conditions'.toList := by
    have htoList := congrArg String.toList htoken
    rw [toList_token, toList_token] at htoList
    exact List.append_cancel_left htoList
  have hsplit := congrArg (List.splitOn ':') htext
  rw [List.splitOn_append_cons_self_of_not_mem hfirst,
    List.splitOn_append_cons_self_of_not_mem hsecond] at hsplit
  have hname := (List.cons.inj hsplit).1
  rw [hname] at htext
  have hconditions := (List.cons.inj (List.append_cancel_left htext)).2
  exact ⟨String.toList_inj.mp hname, String.toList_inj.mp hconditions⟩

theorem encode_injective (hex : Hex) : Function.Injective hex.encode := by
  intro first second hsame
  have hdecode := congrArg hex.decode hsame
  rwa [hex.decode_encode, hex.decode_encode, Option.some.injEq] at hdecode

variable {hex : LowerHex} {prims : Primitives} {curve : Secp256k1}
  {schnorr : Schnorr curve} {delegation : Delegation} {key : SecretKey curve}
  {random : Vector UInt8 32}

/-- A tag that carries the signature is accepted for the delegatee and the conditions
that were signed, and no others. -/
theorem verify_signed_iff
    (hdelegator : delegation.delegator = curve.xOnlyPublicKey key.bytes)
    (hsignature : ∀ hash, schnorr.verify
      (delegation.signature hex.toHex prims schnorr key random) hash delegation.delegator =
        true → hash = prims.sha256 (utf8 (delegation.message hex.toHex)))
    (hsha256 : ∀ text, prims.sha256 text =
      prims.sha256 (utf8 (delegation.message hex.toHex)) →
        text = utf8 (delegation.message hex.toHex))
    {tag : String} {conditions : List Char} {rest : List (List Char)}
    (hsplit : tag.toList.splitOn ':' = "delegation".toList ::
      (hex.encode delegation.delegator.toList).toList :: conditions ::
        ((delegation.signature hex.toHex prims schnorr key random).asHexString
          hex.toHex).toList :: rest)
    (delegatee : Vector UInt8 32) (eventKind : UInt16) (createdAt : UInt64) :
    verify hex.toHex prims schnorr tag delegatee eventKind createdAt = some true ↔
      delegatee = delegation.delegatee ∧
        conditions = delegation.buildConditionsString.toList ∧
          delegation.Covers eventKind createdAt := by
  have hfields : tag.toList.splitOn ':' = "delegation".toList ::
      ((⟨delegation.delegator⟩ : PublicKey).asHexString hex.toHex).toList :: conditions ::
        ((delegation.signature hex.toHex prims schnorr key random).asHexString
          hex.toHex).toList :: rest := hsplit
  have hverify := verify_of_splitOn hex.toHex prims schnorr hfields ⟨delegatee⟩ eventKind
    createdAt
  rw [PublicKey.verify_eq_ok_iff] at hverify
  rw [hverify]
  have hcolon : ∀ bytes, ':' ∉ (hex.encode bytes).toList :=
    hex.not_mem_encode (by decide)
  constructor
  · rintro ⟨⟨-, hvalid⟩, hconditions⟩
    have htext := utf8_injective (hsha256 _ (hsignature _ hvalid))
    obtain ⟨hdelegatee, hbuilt⟩ := token_inj (hcolon _) (hcolon _) htext
    have hbytes := Vector.toList_inj.mp (encode_injective hex.toHex hdelegatee)
    have hlist : conditions = delegation.buildConditionsString.toList := by
      rw [← hbuilt, String.toList_ofList]
    rw [hlist, Delegation.splitOn_buildConditionsString,
      verifyConditions_parts_iff] at hconditions
    exact ⟨hbytes, hlist, hconditions⟩
  · rintro ⟨rfl, rfl, hcovers⟩
    rw [Delegation.splitOn_buildConditionsString, verifyConditions_parts_iff,
      String.ofList_toList]
    refine ⟨⟨?_, ?_⟩, hcovers⟩
    · have hverified := curve.isXOnlyPublicKey_xOnlyPublicKey key.isSecretKey
      rw [← hdelegator] at hverified
      exact hverified
    · have hvalid := schnorr.verify_sign key
        (prims.sha256 (utf8 (delegation.message hex.toHex))) random
      rw [← hdelegator] at hvalid
      exact hvalid

variable (hex prims schnorr delegation key random)

/-- Which events a tag is accepted for: a signature is taken to be valid for nothing
else than what it was made for, and no other text to have the same hash. -/
theorem verify_createTag_iff
    (hdelegator : delegation.delegator = curve.xOnlyPublicKey key.bytes)
    (hsignature : ∀ hash, schnorr.verify
      (delegation.signature hex.toHex prims schnorr key random) hash delegation.delegator =
        true → hash = prims.sha256 (utf8 (delegation.message hex.toHex)))
    (hsha256 : ∀ text, prims.sha256 text =
      prims.sha256 (utf8 (delegation.message hex.toHex)) →
        text = utf8 (delegation.message hex.toHex)) :
    (∀ eventKind createdAt, verify hex.toHex prims schnorr
        (delegation.createTag hex.toHex prims schnorr key random) delegation.delegatee
          eventKind createdAt = some true ↔ delegation.Covers eventKind createdAt) ∧
      (∀ delegatee, delegatee ≠ delegation.delegatee → ∀ eventKind createdAt,
        verify hex.toHex prims schnorr
          (delegation.createTag hex.toHex prims schnorr key random) delegatee
            eventKind createdAt ≠ some true) ∧
        ∀ (altered : String) (conditions : List Char) (rest : List (List Char)),
          altered.toList.splitOn ':' = "delegation".toList ::
              (hex.encode delegation.delegator.toList).toList :: conditions ::
                ((delegation.signature hex.toHex prims schnorr key random).asHexString
                  hex.toHex).toList :: rest →
            conditions ≠ delegation.buildConditionsString.toList →
              ∀ delegatee eventKind createdAt,
                verify hex.toHex prims schnorr altered delegatee eventKind createdAt ≠
                  some true := by
  have hcreated := verify_signed_iff hdelegator hsignature hsha256
    (splitOn_tagText_of_not_mem hex ⟨delegation.delegator⟩
      delegation.colon_not_mem_buildConditionsString
        (delegation.signature hex.toHex prims schnorr key random))
  refine ⟨fun eventKind createdAt => ?_, fun delegatee hother eventKind createdAt => ?_,
    fun altered conditions rest hsplit hconditions delegatee eventKind createdAt => ?_⟩
  · refine (hcreated _ eventKind createdAt).trans ?_
    rw [and_iff_right rfl, and_iff_right rfl]
  · exact fun haccepted => hother ((hcreated _ eventKind createdAt).mp haccepted).1
  · intro haccepted
    exact hconditions ((verify_signed_iff hdelegator hsignature hsha256 hsplit
      delegatee eventKind createdAt).mp haccepted).2.1

end Verify

section Window

/-- A signature that holds a message. -/
def holding (message : Vector UInt8 32) : Signature :=
  ⟨message ++ (Vector.replicate 32 0 : Vector UInt8 32)⟩

theorem take_holding (message : Vector UInt8 32) :
    (holding message).bytes.toList.take 32 = message.toList := by
  have hlist : (holding message).bytes.toList =
      message.toList ++ (Vector.replicate 32 (0 : UInt8)).toList :=
    Vector.toList_append
  rw [hlist, List.take_left' Vector.length_toList]

/-- Signatures that hold what they were made for, for runs on which none is forged. -/
def holdingMessages (curve : Secp256k1) : Schnorr curve where
  sign _ message _ := holding message
  verify signature message _ := signature.bytes.toList.take 32 == message.toList
  verify_sign _ message _ := by rw [take_holding, beq_self_eq_true]

/-- A hash that tells one text from all others. -/
def recognizing (text : Bytes) : Primitives :=
  { Primitives.transparent with
    sha256 := fun other =>
      if other = text then Vector.replicate 32 1 else Vector.replicate 32 0 }

theorem eq_of_recognizing {text other : Bytes}
    (hsame : (recognizing text).sha256 other = (recognizing text).sha256 text) :
    other = text := by
  by_contra hother
  have hdigest : (recognizing text).sha256 other = Vector.replicate 32 0 := if_neg hother
  have hsigned : (recognizing text).sha256 text = Vector.replicate 32 1 := if_pos rfl
  rw [hdigest, hsigned] at hsame
  exact absurd hsame (by decide)

/-- Notes between two times. -/
def windowDelegation : Delegation where
  delegator := Vector.replicate 32 1
  delegatee := Vector.replicate 32 2
  eventKind := 1
  until_ := some 200
  since := some 100

theorem verify_createTag_windowDelegation :
    let prims := recognizing (utf8 (windowDelegation.message Hex.reference))
    let tag := windowDelegation.createTag Hex.reference prims
      (holdingMessages Secp256k1.permissive) ⟨Vector.replicate 32 1, rfl⟩
        (Vector.replicate 32 0)
    verify Hex.reference prims (holdingMessages Secp256k1.permissive) tag
        windowDelegation.delegatee 1 150 = some true ∧
      verify Hex.reference prims (holdingMessages Secp256k1.permissive) tag
          windowDelegation.delegatee 1 200 ≠ some true ∧
        verify Hex.reference prims (holdingMessages Secp256k1.permissive) tag
          (Vector.replicate 32 3) 1 150 ≠ some true := by
  intro prims tag
  have hwindow := verify_createTag_iff Hex.referenceLower prims
    (holdingMessages Secp256k1.permissive) windowDelegation ⟨Vector.replicate 32 1, rfl⟩
      (Vector.replicate 32 0) rfl
      (fun hash hvalid => by
        have hheld : (holding _).bytes.toList.take 32 = hash.toList := beq_iff_eq.mp hvalid
        rw [take_holding] at hheld
        exact (Vector.toList_inj.mp hheld).symm)
      (fun _ => eq_of_recognizing)
  refine ⟨(hwindow.1 1 150).mpr ⟨rfl, ?_, ?_⟩, fun haccepted => ?_,
    hwindow.2.1 _ (by decide) 1 150⟩
  · rintro since ⟨⟩
    decide
  · rintro until_ ⟨⟩
    decide
  · exact absurd (((hwindow.1 1 200).mp haccepted).until_ 200 rfl) (by decide)

end Window

end Nip26

end Types

end Gnostr
