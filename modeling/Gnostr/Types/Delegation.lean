/-
Delegated events: `EventV3::delegation` of `types/src/nostr/versioned/event3.rs`
beside `verify` of `types/src/nostr/nip26.rs`.  The first looks at the last
clause of each sort and takes a bound for a time within it; the second looks at
every clause and does not.
-/
import Gnostr.Types.EventV3

namespace Gnostr

namespace Types

/-- Delegation information for an event. -/
inductive EventDelegation where
  | notDelegated
  | invalidDelegation (reason : String)
  | delegatedBy (key : PublicKey)
deriving Repr, DecidableEq

section Delegation

variable (hex : Hex) (prims : Primitives) {curve : Secp256k1}
  (schnorr : Schnorr curve) (display : Error → String)

/-- Parse a delegation tag. -/
def TagV3.parseDelegation (curve : Secp256k1) (tag : TagV3) :
    Outcome Error (PublicKey × DelegationConditions × Signature) :=
  match tag.fields with
  | name :: pubkey :: conditions :: sig :: _ =>
      if name ≠ "delegation" then .err .tagMismatch
      else do
        let pk ← PublicKey.tryFromHexString curve hex pubkey true
        let conditions ← DelegationConditions.tryFromStr conditions
        let sig ← Signature.tryFromHexString hex sig
        return (pk, conditions, sig)
  | _ => .err .tagMismatch

/-- The conditions on the kind and on the time, in their order. -/
def EventV3.checkConditions (event : EventV3) (pk : PublicKey)
    (conditions : DelegationConditions) : EventDelegation :=
  if conditions.kind.any fun kind => event.kind != kind then
    .invalidDelegation "Event Kind not delegated"
  else if conditions.createdAfter.any fun time => event.createdAt < time then
    .invalidDelegation "Event created before delegation started"
  else if conditions.createdBefore.any fun time => time < event.createdAt then
    .invalidDelegation "Event created after delegation ended"
  else .delegatedBy pk

/-- The loop over the tags; the first delegation tag decides. -/
def EventV3.delegationOf (event : EventV3) :
    List TagV3 → Outcome Error EventDelegation
  | [] => .ok .notDelegated
  | tag :: tags =>
      match tag.parseDelegation hex curve with
      | .ok (pk, conditions, sig) =>
          match conditions.verifySignature hex prims schnorr pk event.pubkey sig with
          | .ok _ => .ok (event.checkConditions pk conditions)
          | .err e => .ok (.invalidDelegation (display e))
          | .panic => .panic
      | .err _ => event.delegationOf tags
      | .panic => .panic

/-- Was this event delegated, was that valid, and by whom? -/
def EventV3.delegation (event : EventV3) : Outcome Error EventDelegation :=
  event.delegationOf hex prims schnorr display event.tags

end Delegation

namespace Nip26

open DelegationConditions

/-- The loop over the conditions; an error is `none`. -/
def verifyConditions (eventKind : UInt16) (createdAt : UInt64) :
    List (List Char) → Option Bool
  | [] => some true
  | condition :: conditions =>
      match condition.dropPrefix? kindClause with
      | some value => do
          let value ← parseUnsigned (2 ^ 16) value
          if value ≠ eventKind.toNat then some false
          else verifyConditions eventKind createdAt conditions
      | none =>
          match condition.dropPrefix? createdBeforeClause with
          | some value => do
              let value ← parseUnsigned (2 ^ 64) value
              if value ≤ createdAt.toNat then some false
              else verifyConditions eventKind createdAt conditions
          | none =>
              match condition.dropPrefix? createdAfterClause with
              | some value => do
                  let value ← parseUnsigned (2 ^ 64) value
                  if createdAt.toNat ≤ value then some false
                  else verifyConditions eventKind createdAt conditions
              | none => verifyConditions eventKind createdAt conditions

/-- Verify a delegation tag, given as a text with colons. -/
def verify (hex : Hex) (prims : Primitives) {curve : Secp256k1}
    (schnorr : Schnorr curve) (delegationTag : String)
    (delegateePubkey : Vector UInt8 32) (eventKind : UInt16)
    (createdAt : UInt64) : Option Bool :=
  match delegationTag.toList.splitOn ':' with
  | name :: parts =>
      if name ≠ "delegation".toList then some false
      else
        match parts with
        | delegatorStr :: conditions :: signatureStr :: _ => do
            let message := token (hex.encode delegateePubkey.toList)
              (String.ofList conditions)
            let signatureVec ← hex.decode (String.ofList signatureStr)
            let signature ← tryIntoArray 64 signatureVec
            let delegatorVec ← hex.decode (String.ofList delegatorStr)
            let delegator ← xOnlyFromSlice curve delegatorVec
            if schnorr.verify ⟨signature⟩ (prims.sha256 (utf8 message)) delegator then
              verifyConditions eventKind createdAt (conditions.splitOn '&')
            else none
        | _ => none
  | [] => some false

end Nip26

section Clauses

open DelegationConditions

/-- The clause holds for the event; a bound is not within. -/
def Clause.Holds (event : EventV3) : Clause → Prop
  | .kind number => event.kind.toU32 = number
  | .createdAfter time => time < event.createdAt
  | .createdBefore time => event.createdAt < time
  | .other => True

/-- The event is of the very time that the clause names. -/
def Clause.AtBound (event : EventV3) : Clause → Prop
  | .createdAfter time => time = event.createdAt
  | .createdBefore time => time = event.createdAt
  | _ => False

/-- What `checkConditions` demands of the conditions it has. -/
def DelegationConditions.Admits (conditions : DelegationConditions)
    (event : EventV3) : Prop :=
  (∀ kind ∈ conditions.kind, event.kind = kind) ∧
    (∀ time ∈ conditions.createdAfter, time ≤ event.createdAt) ∧
      ∀ time ∈ conditions.createdBefore, event.createdAt ≤ time

theorem EventV3.checkConditions_eq_delegatedBy_iff {event : EventV3}
    {pk key : PublicKey} {conditions : DelegationConditions} :
    event.checkConditions pk conditions = .delegatedBy key ↔
      pk = key ∧ conditions.Admits event := by
  have hkind : (conditions.kind.any fun kind => event.kind != kind) = true ↔
      ¬ ∀ kind ∈ conditions.kind, event.kind = kind := by
    cases conditions.kind <;> simp
  have hafter : (conditions.createdAfter.any
      fun time => event.createdAt < time) = true ↔
        ¬ ∀ time ∈ conditions.createdAfter, time ≤ event.createdAt := by
    cases conditions.createdAfter <;> simp
  have hbefore : (conditions.createdBefore.any
      fun time => time < event.createdAt) = true ↔
        ¬ ∀ time ∈ conditions.createdBefore, event.createdAt ≤ time := by
    cases conditions.createdBefore <;> simp
  rw [EventV3.checkConditions, DelegationConditions.Admits]
  split_ifs with hfirst hsecond hthird
  · exact iff_of_false nofun fun hall => hkind.mp hfirst hall.2.1
  · exact iff_of_false nofun fun hall => hafter.mp hsecond hall.2.2.1
  · exact iff_of_false nofun fun hall => hbefore.mp hthird hall.2.2.2
  · rw [hkind, not_not] at hfirst
    rw [hafter, not_not] at hsecond
    rw [hbefore, not_not] at hthird
    rw [EventDelegation.delegatedBy.injEq, iff_self_and]
    exact fun _ => ⟨hfirst, hsecond, hthird⟩

theorem Clause.not_atBound_of_holds {event : EventV3} {clause : Clause}
    (hholds : clause.Holds event) : ¬ clause.AtBound event := by
  cases clause with
  | createdAfter time =>
      rintro rfl
      exact Int64.lt_irrefl hholds
  | createdBefore time =>
      rintro rfl
      exact Int64.lt_irrefl hholds
  | kind _ => exact not_false
  | other => exact not_false

/-- Conditions that came from clauses admit an event for which every clause
holds. -/
theorem Clause.holds_of_admits {event : EventV3} {clauses : List Clause}
    {output : DelegationConditions}
    (hadmits : (clauses.foldl set output).Admits event)
    (hoverwritten : clauses.Pairwise fun clause later =>
      clause.SameSort later → clause.Holds event)
    (hbound : ∀ clause ∈ clauses, ¬ clause.AtBound event) :
    ∀ clause ∈ clauses, clause.Holds event := by
  induction clauses generalizing output with
  | nil => simp
  | cons clause later ih =>
      rw [List.pairwise_cons] at hoverwritten
      rw [List.forall_mem_cons] at hbound ⊢
      refine ⟨?_, ih hadmits hoverwritten.2 hbound.2⟩
      by_cases hlater : ∃ next ∈ later, clause.SameSort next
      · obtain ⟨next, hnext, hsort⟩ := hlater
        exact hoverwritten.1 next hnext hsort
      · -- the clause is the last one of its sort, and so the one that is kept
        push Not at hlater
        rw [List.foldl_cons] at hadmits
        cases clause with
        | kind number =>
            have hkept : (later.foldl set (set output (.kind number))).kind =
                some (EventKind.ofU32 number) := by
              rw [foldl_set_frame DelegationConditions.kind]
              · rfl
              · intro next hnext _
                cases next with
                | kind _ => exact absurd trivial (hlater _ hnext)
                | _ => rfl
            have hkind := hadmits.1 _ hkept
            rw [Holds, hkind, EventKind.toU32_ofU32]
        | createdAfter time =>
            have hkept : (later.foldl set
                (set output (.createdAfter time))).createdAfter = some time := by
              rw [foldl_set_frame DelegationConditions.createdAfter]
              · rfl
              · intro next hnext _
                cases next with
                | createdAfter _ => exact absurd trivial (hlater _ hnext)
                | _ => rfl
            exact Int64.lt_of_le_of_ne (hadmits.2.1 _ hkept) hbound.1
        | createdBefore time =>
            have hkept : (later.foldl set
                (set output (.createdBefore time))).createdBefore = some time := by
              rw [foldl_set_frame DelegationConditions.createdBefore]
              · rfl
              · intro next hnext _
                cases next with
                | createdBefore _ => exact absurd trivial (hlater _ hnext)
                | _ => rfl
            exact Int64.lt_of_le_of_ne (hadmits.2.2 _ hkept) fun heq => hbound.1 heq.symm
        | other => trivial

end Clauses

section Nip26

open DelegationConditions

/-- No time of the part has a sign; `verify` of NIP-26 parses unsigned ones. -/
def Unsigned (part : List Char) : Prop :=
  ∀ name ∈ [createdAfterClause, createdBeforeClause],
    ∀ value, part.dropPrefix? name = some value → value.head? ≠ some '-'

/-- A time without a sign is parsed alike by both. -/
theorem exists_parseUnsigned_of_parseSigned {value : List Char} {time : ℤ}
    (htime : parseSigned (2 ^ 63) value = some time)
    (hminus : value.head? ≠ some '-') :
    ∃ number : ℕ, parseUnsigned (2 ^ 64) value = some number ∧
      (Int64.ofInt time).toInt = number := by
  rw [parseSigned_of_not_minus hminus, Option.map_eq_some_iff] at htime
  obtain ⟨number, hnumber, rfl⟩ := htime
  have hlt := lt_of_parseUnsigned hnumber
  refine ⟨number, parseUnsigned_mono (by decide) hnumber, ?_⟩
  rw [Int.ofNat_eq_natCast]
  exact Int64.toInt_ofInt_of_le (by omega) (by omega)

/-- A part with a clause that holds is passed over. -/
theorem Nip26.verifyConditions_cons {event : EventV3} {eventKind : UInt16}
    {createdAt : UInt64} (hkind : eventKind.toNat = event.kind.toU32.toNat)
    (htime : (createdAt.toNat : ℤ) = event.createdAt.toInt) {part : List Char}
    {clause : Clause} (hread : Clause.read part = some clause)
    (hholds : clause.Holds event) (hunsigned : Unsigned part)
    (parts : List (List Char)) :
    verifyConditions eventKind createdAt (part :: parts) =
      verifyConditions eventKind createdAt parts := by
  rw [verifyConditions]
  unfold Clause.read at hread
  cases hpart : part.dropPrefix? kindClause with
  | some value =>
      rw [hpart] at hread
      obtain ⟨number, hnumber, rfl⟩ := Option.map_eq_some_iff.mp hread
      have hlt := lt_of_parseUnsigned hnumber
      have hsame : number = eventKind.toNat := by
        have htoNat := congrArg UInt32.toNat hholds
        rw [UInt32.toNat_ofNat_of_lt' hlt] at htoNat
        omega
      have hparse : parseUnsigned (2 ^ 16) value = some number :=
        parseUnsigned_of_lt (hsame ▸ eventKind.toNat_lt) hnumber
      dsimp only
      rw [hparse, Option.bind_eq_bind, Option.bind_some,
        if_neg (not_not_intro hsame)]
  | none =>
      rw [hpart] at hread
      cases hafter : part.dropPrefix? createdAfterClause with
      | some value =>
          rw [hafter] at hread
          obtain ⟨time, htime', rfl⟩ := Option.map_eq_some_iff.mp hread
          obtain ⟨number, hnumber, hvalue⟩ := exists_parseUnsigned_of_parseSigned
            htime' (hunsigned _ List.mem_cons_self _ hafter)
          have hlt := Int64.lt_iff_toInt_lt.mp hholds
          rw [Clause.dropPrefix?_eq_none hafter (by decide)]
          dsimp only
          rw [hnumber, Option.bind_eq_bind, Option.bind_some, if_neg (by omega)]
      | none =>
          rw [hafter] at hread
          cases hbefore : part.dropPrefix? createdBeforeClause with
          | some value =>
              rw [hbefore] at hread
              obtain ⟨time, htime', rfl⟩ := Option.map_eq_some_iff.mp hread
              obtain ⟨number, hnumber, hvalue⟩ :=
                exists_parseUnsigned_of_parseSigned htime'
                  (hunsigned _ (List.mem_cons_of_mem _ List.mem_cons_self) _ hbefore)
              have hlt := Int64.lt_iff_toInt_lt.mp hholds
              dsimp only
              rw [hnumber, Option.bind_eq_bind, Option.bind_some,
                if_neg (by omega)]
          | none => rfl

theorem Nip26.verifyConditions_of_holds {event : EventV3} {eventKind : UInt16}
    {createdAt : UInt64} (hkind : eventKind.toNat = event.kind.toU32.toNat)
    (htime : (createdAt.toNat : ℤ) = event.createdAt.toInt)
    {parts : List (List Char)} {clauses : List Clause}
    (hread : parts.mapM Clause.read = some clauses)
    (hholds : ∀ clause ∈ clauses, clause.Holds event)
    (hunsigned : ∀ part ∈ parts, Unsigned part) :
    verifyConditions eventKind createdAt parts = some true := by
  induction parts generalizing clauses with
  | nil => rfl
  | cons part parts ih =>
      rw [List.mapM_cons] at hread
      obtain ⟨clause, hclause, hrest⟩ := Option.bind_eq_some_iff.mp hread
      obtain ⟨rest, hparts, hclauses⟩ := Option.bind_eq_some_iff.mp hrest
      cases hclauses
      rw [List.forall_mem_cons] at hholds hunsigned
      rw [verifyConditions_cons hkind htime hclause hholds.1 hunsigned.1,
        ih hparts hholds.2 hunsigned.2]

/-- A check that leads on has parsed its number. -/
theorem Nip26.exists_of_check {value : Option ℕ} {test : ℕ → Prop}
    [DecidablePred test] {rest : Option Bool}
    (hcheck : (value.bind fun number =>
      if test number then some false else rest) = some true) :
    (∃ number, value = some number) ∧ rest = some true := by
  obtain ⟨number, hvalue, hrest⟩ := Option.bind_eq_some_iff.mp hcheck
  refine ⟨⟨number, hvalue⟩, ?_⟩
  split at hrest
  · cases hrest
  · exact hrest

theorem unsigned_of_clauses {part : List Char}
    (hafter : ∀ value, part.dropPrefix? createdAfterClause = some value →
      value.head? ≠ some '-')
    (hbefore : ∀ value, part.dropPrefix? createdBeforeClause = some value →
      value.head? ≠ some '-') : Unsigned part := by
  intro name hname
  rcases List.mem_pair.mp hname with rfl | rfl
  · exact hafter
  · exact hbefore

theorem head?_ne_minus_of_none {part name : List Char}
    (hnone : part.dropPrefix? name = none) (value : List Char)
    (hvalue : part.dropPrefix? name = some value) : value.head? ≠ some '-' := by
  rw [hnone] at hvalue
  cases hvalue

/-- What parses as an unsigned number has no minus sign. -/
theorem head?_ne_minus_of_parse {part name value : List Char} {number : ℕ}
    (hvalue : part.dropPrefix? name = some value)
    (hnumber : parseUnsigned (2 ^ 64) value = some number) (other : List Char)
    (hother : part.dropPrefix? name = some other) : other.head? ≠ some '-' := by
  intro hminus
  rw [hvalue, Option.some.injEq] at hother
  rw [hother, parseUnsigned_of_minus hminus] at hnumber
  cases hnumber

/-- A part that is accepted has no sign. -/
theorem Nip26.unsigned_of_verifyConditions {eventKind : UInt16}
    {createdAt : UInt64} {parts : List (List Char)}
    (hverify : verifyConditions eventKind createdAt parts = some true) :
    ∀ part ∈ parts, Unsigned part := by
  induction parts with
  | nil => simp
  | cons part parts ih =>
      rw [verifyConditions] at hverify
      rw [List.forall_mem_cons]
      cases hkind : part.dropPrefix? kindClause with
      | some value =>
          rw [hkind] at hverify
          refine ⟨unsigned_of_clauses (head?_ne_minus_of_none ?_)
            (head?_ne_minus_of_none ?_), ih (exists_of_check hverify).2⟩
          · exact Clause.dropPrefix?_eq_none hkind (by decide)
          · exact Clause.dropPrefix?_eq_none hkind (by decide)
      | none =>
          rw [hkind] at hverify
          cases hbefore : part.dropPrefix? createdBeforeClause with
          | some value =>
              rw [hbefore] at hverify
              obtain ⟨⟨number, hnumber⟩, hrest⟩ := exists_of_check hverify
              have hafter := Clause.dropPrefix?_eq_none hbefore
                (by decide : ¬ createdBeforeClause <+: createdAfterClause ∧ _)
              exact ⟨unsigned_of_clauses (head?_ne_minus_of_none hafter)
                (head?_ne_minus_of_parse hbefore hnumber), ih hrest⟩
          | none =>
              rw [hbefore] at hverify
              cases hafter : part.dropPrefix? createdAfterClause with
              | some value =>
                  rw [hafter] at hverify
                  obtain ⟨⟨number, hnumber⟩, hrest⟩ := exists_of_check hverify
                  exact ⟨unsigned_of_clauses
                    (head?_ne_minus_of_parse hafter hnumber)
                    (head?_ne_minus_of_none hbefore), ih hrest⟩
              | none =>
                  rw [hafter] at hverify
                  exact ⟨unsigned_of_clauses (head?_ne_minus_of_none hafter)
                    (head?_ne_minus_of_none hbefore), ih hverify⟩

/-- The text of a delegation tag with colons, as `create_tag` formats it. -/
def Nip26.tagText (hex : Hex) (delegator : PublicKey) (conditions : String)
    (sig : Signature) : List Char :=
  "delegation".toList ++ ':' :: ((delegator.asHexString hex).toList ++
    ':' :: (conditions.toList ++ ':' :: (sig.asHexString hex).toList))

theorem Nip26.splitOn_tagText (hex : LowerHex) (delegator : PublicKey)
    (conditions : String) (sig : Signature) :
    (tagText hex.toHex delegator conditions sig).splitOn ':' =
      "delegation".toList :: (delegator.asHexString hex.toHex).toList ::
        (conditions.toList ++ ':' :: (sig.asHexString hex.toHex).toList).splitOn
          ':' := by
  have hdelegator : ':' ∉ (delegator.asHexString hex.toHex).toList :=
    hex.not_mem_encode (by decide) _
  have hname : ':' ∉ "delegation".toList := by decide +kernel
  exact (List.splitOn_append_cons_self_of_not_mem hname _).trans
    (congrArg _ (List.splitOn_append_cons_self_of_not_mem hdelegator _))

/-- `verify` of NIP-26 reads the very conditions out of the tag and accepts
them for the kind and the time of the event. -/
def Nip26.Accepts (hex : Hex) (prims : Primitives) {curve : Secp256k1}
    (schnorr : Schnorr curve) (event : EventV3) (delegator : PublicKey)
    (conditions : String) (sig : Signature) : Prop :=
  ∃ (eventKind : UInt16) (createdAt : UInt64),
    eventKind.toNat = event.kind.toU32.toNat ∧
      (createdAt.toNat : ℤ) = event.createdAt.toInt ∧
        event.pubkey.Verified curve ∧
          ((tagText hex delegator conditions sig).splitOn ':')[2]? =
              some conditions.toList ∧
            verify hex prims schnorr
              (String.ofList (tagText hex delegator conditions sig))
              event.pubkey.bytes eventKind createdAt = some true

/-- The event and the conditions can be put to `verify` of NIP-26: its kind is of
16 bits and its time not negative, its author is on the curve, and the conditions
have no colon and no sign. -/
structure Nip26.Readable (curve : Secp256k1) (event : EventV3)
    (conditions : String) : Prop where
  kind : event.kind.toU32.toNat < 2 ^ 16
  createdAt : 0 ≤ event.createdAt.toInt
  pubkey : event.pubkey.Verified curve
  colon : ':' ∉ conditions.toList
  unsigned : ∀ part ∈ conditions.toList.splitOn '&', Unsigned part

/-- What stands before the first colon is all of it exactly when there is no other
colon. -/
theorem head?_splitOn_append_eq_iff {text rest : List Char} :
    ((text ++ ':' :: rest).splitOn ':').head? = some text ↔ ':' ∉ text := by
  constructor
  · intro hhead hmem
    obtain ⟨before, after, rfl, hbefore⟩ := List.eq_append_cons_of_mem hmem
    rw [List.append_assoc, List.cons_append,
      List.splitOn_append_cons_self_of_not_mem hbefore, List.head?_cons,
      Option.some.injEq] at hhead
    simp at hhead
  · intro hnot
    rw [List.splitOn_append_cons_self_of_not_mem hnot, List.head?_cons]

/-- What decides on a tag of these fields, whatever stands behind them. -/
theorem Nip26.verify_of_splitOn (hex : Hex) (prims : Primitives) {curve : Secp256k1}
    (schnorr : Schnorr curve) {tag : String} {delegator : PublicKey}
    {conditions : List Char} {sig : Signature} {rest : List (List Char)}
    (hsplit : tag.toList.splitOn ':' = "delegation".toList ::
      (delegator.asHexString hex).toList :: conditions ::
        (sig.asHexString hex).toList :: rest)
    (delegatee : PublicKey) (eventKind : UInt16) (createdAt : UInt64) :
    verify hex prims schnorr tag delegatee.bytes eventKind createdAt = some true ↔
      delegator.verify prims schnorr (utf8 (token (delegatee.asHexString hex)
        (String.ofList conditions))) sig = .ok () ∧
          verifyConditions eventKind createdAt (conditions.splitOn '&') = some true := by
  unfold verify
  rw [hsplit, PublicKey.verify_eq_ok_iff]
  dsimp only
  rw [if_neg (not_not_intro rfl)]
  simp only [String.ofList_toList, PublicKey.asHexString, Signature.asHexString,
    hex.decode_encode, tryIntoArray_toList, Option.bind_eq_bind, Option.bind_some,
    xOnlyFromSlice]
  by_cases hverified : delegator.Verified curve
  · rw [Option.filter_some_pos hverified, Option.bind_some]
    split
    · rename_i hvalid
      exact (and_iff_right ⟨hverified, hvalid⟩).symm
    · rename_i hinvalid
      exact iff_of_false (by simp) fun hvalid => hinvalid hvalid.1.2
  · rw [Option.filter_some_neg (Bool.eq_false_iff.mpr hverified)]
    exact iff_of_false (by simp) fun hvalid => hverified hvalid.1.1

/-- The fields of a tag whose conditions have no colon. -/
theorem Nip26.splitOn_tagText_of_not_mem (hex : LowerHex) (delegator : PublicKey)
    {conditions : String} (hcolon : ':' ∉ conditions.toList) (sig : Signature) :
    (String.ofList (tagText hex.toHex delegator conditions sig)).toList.splitOn ':' =
      ["delegation".toList, (delegator.asHexString hex.toHex).toList,
        conditions.toList, (sig.asHexString hex.toHex).toList] := by
  have hsig : ':' ∉ (sig.asHexString hex.toHex).toList :=
    hex.not_mem_encode (by decide) _
  rw [String.toList_ofList, splitOn_tagText,
    List.splitOn_append_cons_self_of_not_mem hcolon, List.splitOn_eq_singleton hsig]

theorem Nip26.verify_tagText (hex : LowerHex) (prims : Primitives)
    {curve : Secp256k1} (schnorr : Schnorr curve) {delegator : PublicKey}
    {conditions : String} {sig : Signature} (hcolon : ':' ∉ conditions.toList)
    (delegatee : PublicKey) (eventKind : UInt16) (createdAt : UInt64) :
    verify hex.toHex prims schnorr
        (String.ofList (tagText hex.toHex delegator conditions sig))
        delegatee.bytes eventKind createdAt = some true ↔
      delegator.verify prims schnorr (utf8 (token (delegatee.asHexString hex.toHex)
        conditions)) sig = .ok () ∧
          verifyConditions eventKind createdAt (conditions.toList.splitOn '&') =
            some true := by
  have hverify := verify_of_splitOn hex.toHex prims schnorr
    (splitOn_tagText_of_not_mem hex delegator hcolon sig) delegatee eventKind createdAt
  rwa [String.ofList_toList] at hverify

theorem Nip26.accepts_iff_readable (hex : LowerHex) (prims : Primitives)
    {curve : Secp256k1} (schnorr : Schnorr curve) {event : EventV3}
    {delegator : PublicKey} {conditions : String} {sig : Signature}
    {clauses : List Clause} (hread : Clause.readAll conditions = some clauses)
    (hholds : ∀ clause ∈ clauses, clause.Holds event)
    (hsig : delegator.verify prims schnorr
      (utf8 (token (event.pubkey.asHexString hex.toHex) conditions)) sig = .ok ()) :
    Accepts hex.toHex prims schnorr event delegator conditions sig ↔
      Readable curve event conditions := by
  constructor
  · rintro ⟨eventKind, createdAt, hkind, htime, hpubkey, hparts, hverify⟩
    rw [splitOn_tagText] at hparts
    rw [List.getElem?_cons_succ, List.getElem?_cons_succ, ← List.head?_eq_getElem?] at hparts
    have hcolon : ':' ∉ conditions.toList := head?_splitOn_append_eq_iff.mp hparts
    have hparts := ((verify_tagText hex prims schnorr hcolon _ _ _).mp hverify).2
    exact {
      kind := hkind ▸ eventKind.toNat_lt
      createdAt := htime ▸ Int.natCast_nonneg _
      pubkey := hpubkey
      colon := hcolon
      unsigned := unsigned_of_verifyConditions hparts
    }
  · intro hreadable
    have htime := hreadable.createdAt
    have hlt := event.createdAt.toInt_lt
    have hkind : (UInt16.ofNat event.kind.toU32.toNat).toNat =
        event.kind.toU32.toNat := UInt16.toNat_ofNat_of_lt' hreadable.kind
    have hcreatedAt : ((UInt64.ofNat event.createdAt.toInt.toNat).toNat : ℤ) =
        event.createdAt.toInt := by
      rw [UInt64.toNat_ofNat_of_lt' (by rw [UInt64.size]; omega)]
      omega
    refine ⟨_, _, hkind, hcreatedAt, hreadable.pubkey, ?_, ?_⟩
    · rw [splitOn_tagText]
      have hhead : ((conditions.toList ++
          ':' :: (sig.asHexString hex.toHex).toList).splitOn ':').head? =
            some conditions.toList :=
        head?_splitOn_append_eq_iff.mpr hreadable.colon
      rwa [List.head?_eq_getElem?] at hhead
    · refine (verify_tagText hex prims schnorr hreadable.colon _ _ _).mpr ⟨hsig, ?_⟩
      exact verifyConditions_of_holds hkind hcreatedAt hread hholds
        hreadable.unsigned

end Nip26

section Soundness

variable (hex : Hex) (prims : Primitives) {curve : Secp256k1}
  (schnorr : Schnorr curve)

/-- What the first delegation tag that can be parsed holds. -/
def EventV3.delegationTag (curve : Secp256k1) (event : EventV3) :
    Option (PublicKey × DelegationConditions × Signature) :=
  event.tags.findSome? fun tag => (tag.parseDelegation hex curve).toOption

/-- The delegator signed the conditions of the tag for the author, every clause
of theirs holds, and `verify` of NIP-26 accepts them. -/
def EventV3.SoundlyDelegatedBy (event : EventV3) (key : PublicKey) : Prop :=
  ∃ conditions sig, event.delegationTag hex curve = some (key, conditions, sig) ∧
    conditions.verifySignature hex prims schnorr key event.pubkey sig = .ok () ∧
      (∃ clauses, Clause.readAll conditions.asString = some clauses ∧
        ∀ clause ∈ clauses, clause.Holds event) ∧
      Nip26.Accepts hex prims schnorr event key conditions.asString sig

/-- What a delegation that is let through has to be beyond that: the event is not
of a time that bounds it, a clause that a later one of its sort overwrites holds
as well, and `verify` of NIP-26 can read the conditions. -/
def DelegationConditions.Plain (curve : Secp256k1)
    (conditions : DelegationConditions) (event : EventV3) : Prop :=
  (∀ clauses, Clause.readAll conditions.asString = some clauses →
    (∀ clause ∈ clauses, ¬ clause.AtBound event) ∧
      clauses.Pairwise fun clause later =>
        clause.SameSort later → clause.Holds event) ∧
    Nip26.Readable curve event conditions.asString

theorem TagV3.returns_parseDelegation (tag : TagV3) :
    (tag.parseDelegation hex curve).Returns := by
  unfold TagV3.parseDelegation
  split
  · split
    · exact Outcome.returns_err _
    · refine Outcome.returns_bind_iff.mpr
        ⟨PublicKey.returns_tryFromHexString _ _ _ _, fun _ _ => ?_⟩
      refine Outcome.returns_bind_iff.mpr
        ⟨Clause.returns_tryFromStr _, fun _ _ => ?_⟩
      exact Outcome.returns_bind_pure_iff.mpr (Signature.returns_tryFromHexString _ _)
  · exact Outcome.returns_err _

/-- The conditions of a tag are read from the string they give back. -/
theorem EventV3.exists_clauses_of_delegationTag {event : EventV3}
    {key : PublicKey} {conditions : DelegationConditions} {sig : Signature}
    (htag : event.delegationTag hex curve = some (key, conditions, sig)) :
    ∃ clauses, Clause.readAll conditions.asString = some clauses ∧
      { clauses.foldl Clause.set ⟨none, none, none, none⟩ with
        fullString := some conditions.asString } = conditions := by
  obtain ⟨tag, _, hparse⟩ := List.exists_of_findSome?_eq_some htag
  rw [Outcome.toOption_eq_some_iff] at hparse
  unfold TagV3.parseDelegation at hparse
  split at hparse
  · split at hparse
    · cases hparse
    · obtain ⟨pk, _, hparse⟩ := Outcome.bind_eq_ok_iff.mp hparse
      obtain ⟨found, hfound, hparse⟩ := Outcome.bind_eq_ok_iff.mp hparse
      obtain ⟨_, _, hparse⟩ := Outcome.bind_eq_ok_iff.mp hparse
      cases hparse
      obtain ⟨clauses, hread, rfl⟩ := Clause.tryFromStr_eq_ok_iff.mp hfound
      exact ⟨clauses, hread, rfl⟩
  · cases hparse

theorem EventV3.delegation_eq_delegatedBy_iff (display : Error → String)
    {event : EventV3} {key : PublicKey} :
    event.delegation hex prims schnorr display = .ok (.delegatedBy key) ↔
      ∃ conditions sig,
        event.delegationTag hex curve = some (key, conditions, sig) ∧
          conditions.verifySignature hex prims schnorr key event.pubkey sig =
              .ok () ∧
            conditions.Admits event := by
  unfold EventV3.delegation EventV3.delegationTag
  induction event.tags with
  | nil => simp [EventV3.delegationOf]
  | cons tag tags ih =>
      rw [EventV3.delegationOf, List.findSome?_cons]
      cases hparse : tag.parseDelegation hex curve with
      | ok found =>
          obtain ⟨pk, conditions, sig⟩ := found
          dsimp only [Outcome.toOption_ok]
          cases hverify : conditions.verifySignature hex prims schnorr pk
              event.pubkey sig with
          | ok done =>
              simp only [Outcome.ok.injEq,
                EventV3.checkConditions_eq_delegatedBy_iff, Option.some.injEq,
                Prod.mk.injEq]
              constructor
              · rintro ⟨rfl, hadmits⟩
                exact ⟨conditions, sig, ⟨rfl, rfl, rfl⟩, hverify, hadmits⟩
              · rintro ⟨_, _, ⟨rfl, rfl, rfl⟩, _, hadmits⟩
                exact ⟨rfl, hadmits⟩
          | err error =>
              refine iff_of_false nofun ?_
              rintro ⟨_, _, hfound, hvalid, _⟩
              cases hfound
              rw [hverify] at hvalid
              cases hvalid
          | panic =>
              refine iff_of_false nofun ?_
              rintro ⟨_, _, hfound, hvalid, _⟩
              cases hfound
              rw [hverify] at hvalid
              cases hvalid
      | err error => exact ih
      | panic => exact absurd hparse (TagV3.returns_parseDelegation hex tag)

/-- A delegation is sound exactly when, if the first delegation tag is signed and
its last clauses admit the event, the conditions are plain for the event. -/
theorem EventV3.delegation_sound_iff (hex : LowerHex) (display : Error → String)
    (event : EventV3) :
    (∀ key, event.delegation hex.toHex prims schnorr display =
        .ok (.delegatedBy key) →
      event.SoundlyDelegatedBy hex.toHex prims schnorr key) ↔
    ∀ key conditions sig,
      event.delegationTag hex.toHex curve = some (key, conditions, sig) →
      conditions.verifySignature hex.toHex prims schnorr key event.pubkey sig =
        .ok () →
      conditions.Admits event → conditions.Plain curve event := by
  constructor
  · intro hsound key conditions sig htag hverify hadmits
    have hdelegation := (EventV3.delegation_eq_delegatedBy_iff hex.toHex prims
      schnorr display).mpr ⟨conditions, sig, htag, hverify, hadmits⟩
    obtain ⟨_, _, hfound, _, ⟨clauses, hread, hholds⟩, haccepts⟩ :=
      hsound key hdelegation
    rw [htag] at hfound
    cases hfound
    refine ⟨fun others hothers => ?_,
      (Nip26.accepts_iff_readable hex prims schnorr hread hholds hverify).mp haccepts⟩
    rw [hread] at hothers
    cases hothers
    exact ⟨fun clause hclause => Clause.not_atBound_of_holds (hholds clause hclause),
      List.pairwise_iff_forall_sublist.mpr fun hsublist _ =>
        hholds _ (hsublist.subset List.mem_cons_self)⟩
  · intro hplain key hdelegation
    obtain ⟨conditions, sig, htag, hverify, hadmits⟩ :=
      (EventV3.delegation_eq_delegatedBy_iff hex.toHex prims schnorr display).mp
        hdelegation
    obtain ⟨hclauses, hreadable⟩ := hplain key conditions sig htag hverify hadmits
    obtain ⟨clauses, hread, hconditions⟩ :=
      EventV3.exists_clauses_of_delegationTag hex.toHex htag
    have hkept : (clauses.foldl Clause.set ⟨none, none, none, none⟩).Admits
        event := by
      rw [← hconditions] at hadmits
      exact hadmits
    have hholds := Clause.holds_of_admits hkept (hclauses clauses hread).2
      (hclauses clauses hread).1
    exact ⟨conditions, sig, htag, hverify, ⟨clauses, hread, hholds⟩,
      (Nip26.accepts_iff_readable hex prims schnorr hread hholds hverify).mpr
        hreadable⟩

/-- A clause that fails makes the delegation unsound. -/
theorem EventV3.not_soundlyDelegatedBy {event : EventV3} {key : PublicKey}
    (s : String) (clauses : List Clause) {clause : Clause}
    (htag : (event.delegationTag hex curve).map
      (fun found => found.2.1.asString) = some s)
    (hread : Clause.readAll s = some clauses) (hclause : clause ∈ clauses)
    (hfails : ¬ clause.Holds event) :
    ¬ event.SoundlyDelegatedBy hex prims schnorr key := by
  rintro ⟨conditions, sig, hfound, _, ⟨others, hothers, hholds⟩, _⟩
  rw [hfound, Option.map_some, Option.some.injEq] at htag
  rw [htag, hread] at hothers
  cases hothers
  exact hfails (hholds clause hclause)

/-- A text note of second 100 with a delegation tag. -/
def delegatedNote (conditions : String) : EventV3 where
  id := ⟨Vector.replicate 32 0⟩
  pubkey := ⟨Vector.replicate 32 1⟩
  createdAt := 100
  kind := .wellKnown .textNote
  sig := ⟨Vector.replicate 64 0⟩
  content := ""
  tags := [⟨["delegation", String.ofList (List.replicate 64 '2'), conditions,
    String.ofList (List.replicate 128 '0')]⟩]

/-- The tag is parsed, whatever its conditions are. -/
theorem delegationTag_delegatedNote {conditions : String}
    {parsed : DelegationConditions}
    (hparse : DelegationConditions.tryFromStr conditions = .ok parsed) :
    (delegatedNote conditions).delegationTag Hex.reference
        Secp256k1.permissive =
      some (⟨Vector.replicate 32 34⟩, parsed, ⟨Vector.replicate 64 0⟩) := by
  have hkey : PublicKey.tryFromHexString Secp256k1.permissive Hex.reference
      (String.ofList (List.replicate 64 '2')) true =
        .ok ⟨Vector.replicate 32 34⟩ := by
    have htext : String.ofList (List.replicate 64 '2') =
        PublicKey.asHexString Hex.reference ⟨Vector.replicate 32 34⟩ :=
      congrArg String.ofList (by decide +kernel)
    rw [htext, PublicKey.tryFromHexString_asHexString]
    rfl
  have hsig : Signature.tryFromHexString Hex.reference
      (String.ofList (List.replicate 128 '0')) = .ok ⟨Vector.replicate 64 0⟩ := by
    have htext : String.ofList (List.replicate 128 '0') =
        Signature.asHexString Hex.reference ⟨Vector.replicate 64 0⟩ :=
      congrArg String.ofList (by decide +kernel)
    rw [htext, Signature.tryFromHexString_asHexString]
  unfold EventV3.delegationTag delegatedNote
  rw [List.findSome?_cons]
  unfold TagV3.parseDelegation
  dsimp only
  rw [if_neg (by decide), hkey, Outcome.ok_bind, hparse, Outcome.ok_bind, hsig]
  rfl

/-- The note is delegated with conditions that it does not meet. -/
def LetThrough (conditions : String) : Prop :=
  ∃ key, (delegatedNote conditions).delegation Hex.reference
        Primitives.transparent (Schnorr.permissive Secp256k1.permissive)
        (fun _ => "") = .ok (.delegatedBy key) ∧
    ¬ (delegatedNote conditions).SoundlyDelegatedBy Hex.reference
      Primitives.transparent (Schnorr.permissive Secp256k1.permissive) key

theorem letThrough_of_admits {conditions : String} {parsed : DelegationConditions}
    (hparse : DelegationConditions.tryFromStr conditions = .ok parsed)
    (hadmits : parsed.Admits (delegatedNote conditions)) (clauses : List Clause)
    {clause : Clause} (hread : Clause.readAll conditions = some clauses)
    (hclause : clause ∈ clauses)
    (hfails : ¬ clause.Holds (delegatedNote conditions)) :
    LetThrough conditions := by
  have htag := delegationTag_delegatedNote hparse
  obtain ⟨_, _, hfull⟩ := Clause.tryFromStr_eq_ok_iff.mp hparse
  refine ⟨⟨Vector.replicate 32 34⟩, ?_, ?_⟩
  · exact (EventV3.delegation_eq_delegatedBy_iff _ _ _ _).mpr
      ⟨parsed, _, htag, (PublicKey.verify_eq_ok_iff _ _).mpr ⟨rfl, rfl⟩, hadmits⟩
  · refine EventV3.not_soundlyDelegatedBy _ _ _ conditions clauses ?_ hread hclause
      hfails
    rw [htag, ← hfull]
    rfl

/-- A note of the second in which the delegation ends is let through, and so is one
of a kind that the first of two clauses does not allow. -/
theorem delegation_lets_through :
    LetThrough "created_at<100" ∧ LetThrough "kind=7&kind=1" := by
  constructor
  · have hparse : DelegationConditions.tryFromStr "created_at<100" =
        .ok ⟨none, none, some 100, some "created_at<100"⟩ := by
      decide +kernel
    have hlast : ∀ time ∈ some (100 : Int64), (100 : Int64) ≤ time := by
      rintro _ ⟨⟩
      exact Int64.le_refl _
    exact letThrough_of_admits hparse ⟨nofun, nofun, hlast⟩ [.createdBefore 100]
      (by decide +kernel) List.mem_cons_self Int64.lt_irrefl
  · have hparse : DelegationConditions.tryFromStr "kind=7&kind=1" =
        .ok ⟨some (.wellKnown .textNote), none, none, some "kind=7&kind=1"⟩ := by
      decide +kernel
    have hkind : ∀ kind ∈ some (EventKind.wellKnown .textNote),
        EventKind.wellKnown .textNote = kind := by
      rintro _ ⟨⟩
      rfl
    refine letThrough_of_admits hparse ⟨hkind, nofun, nofun⟩ [.kind 7, .kind 1]
      (by decide +kernel) List.mem_cons_self ?_
    rw [Clause.Holds]
    decide

end Soundness

end Types

end Gnostr
