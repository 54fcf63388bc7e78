/-
Conditions of a delegation, of `types/src/nostr/delegation.rs`: a string of
clauses, of which the last one of each sort is kept beside the string.
-/
import Gnostr.Lib.Decimal
import Gnostr.Types.EventKind
import Gnostr.Types.Signature

namespace Gnostr

namespace Types

/-- Conditions of delegation. -/
structure DelegationConditions where
  kind : Option EventKind
  createdAfter : Option Int64
  createdBefore : Option Int64
  fullString : Option String
deriving Repr, DecidableEq

namespace DelegationConditions

/-- Compile the full string from the parts. -/
def compileFullString (conditions : DelegationConditions) : String :=
  "&".intercalate
    ((conditions.kind.map fun kind =>
        "kind=" ++ String.ofList (decimal kind.toU32.toNat)).toList ++
      (conditions.createdAfter.map fun time =>
        "created_at>" ++ String.ofList (decimalInt time.toInt)).toList ++
      (conditions.createdBefore.map fun time =>
        "created_at<" ++ String.ofList (decimalInt time.toInt)).toList)

/-- The stored string, or the one compiled from the parts. -/
def asString (conditions : DelegationConditions) : String :=
  conditions.fullString.getD conditions.compileFullString

def kindClause : List Char := "kind=".toList
def createdAfterClause : List Char := "created_at>".toList
def createdBeforeClause : List Char := "created_at<".toList

/-- Read one part of the string; a clause overwrites an earlier one of its
sort. -/
def readPart (output : DelegationConditions) (part : List Char) :
    Outcome Error DelegationConditions := do
  let output ← match part.dropPrefix? kindClause with
    | some kindstr => do
        let eventNum ← Outcome.okOr Error.parseInt (parseUnsigned (2 ^ 32) kindstr)
        pure { output with kind := some (EventKind.ofU32 (UInt32.ofNat eventNum)) }
    | none => pure output
  let output ← match part.dropPrefix? createdAfterClause with
    | some timestr => do
        let time ← Outcome.okOr Error.parseInt (parseSigned (2 ^ 63) timestr)
        pure { output with createdAfter := some (Int64.ofInt time) }
    | none => pure output
  match part.dropPrefix? createdBeforeClause with
  | some timestr => do
      let time ← Outcome.okOr .parseInt (parseSigned (2 ^ 63) timestr)
      return { output with createdBefore := some (Int64.ofInt time) }
  | none => return output

/-- Convert from a string, which is stored as well. -/
def tryFromStr (s : String) : Outcome Error DelegationConditions := do
  let output ← (s.toList.splitOn '&').foldlM readPart ⟨none, none, none, none⟩
  return { output with fullString := some s }

section Signature

variable (hex : Hex) (prims : Primitives) {curve : Secp256k1}
  (schnorr : Schnorr curve)

/-- The text of a delegation that is signed. -/
def token (pubkeyDelegatee : String) (conditions : String) : String :=
  "nostr:delegation:" ++ pubkeyDelegatee ++ ":" ++ conditions

/-- Verify the signature part of a delegation tag. -/
def verifySignature (conditions : DelegationConditions)
    (pubkeyDelegater pubkeyDelegatee : PublicKey) (signature : Signature) :
    Outcome Error Unit :=
  pubkeyDelegater.verify prims schnorr
    (utf8 (token (pubkeyDelegatee.asHexString hex) conditions.asString)) signature

end Signature

end DelegationConditions

/-- What one part of a condition string says. -/
inductive Clause where
  | kind (number : UInt32)
  | createdAfter (time : Int64)
  | createdBefore (time : Int64)
  | other
deriving Repr, DecidableEq

namespace Clause

open DelegationConditions

/-- The clause of a part, if its number can be parsed. -/
def read (part : List Char) : Option Clause :=
  match part.dropPrefix? kindClause with
  | some value =>
      (parseUnsigned (2 ^ 32) value).map fun number => kind (UInt32.ofNat number)
  | none =>
      match part.dropPrefix? createdAfterClause with
      | some value =>
          (parseSigned (2 ^ 63) value).map fun time =>
            createdAfter (Int64.ofInt time)
      | none =>
          match part.dropPrefix? createdBeforeClause with
          | some value =>
              (parseSigned (2 ^ 63) value).map fun time =>
                createdBefore (Int64.ofInt time)
          | none => some other

/-- Put a clause in the place of an earlier one. -/
def set (output : DelegationConditions) : Clause → DelegationConditions
  | kind number => { output with kind := some (EventKind.ofU32 number) }
  | createdAfter time => { output with createdAfter := some time }
  | createdBefore time => { output with createdBefore := some time }
  | other => output

/-- Of two clause names, none begins with the other. -/
theorem dropPrefix?_eq_none {first second part value : List Char}
    (hfirst : part.dropPrefix? first = some value)
    (hdiffer : ¬ first <+: second ∧ ¬ second <+: first) :
    part.dropPrefix? second = none := by
  cases hsecond : part.dropPrefix? second with
  | none => rfl
  | some other =>
      obtain ⟨before, hpart, hbefore⟩ := List.dropPrefix?_eq_some_iff.mp hfirst
      obtain ⟨before', hpart', hbefore'⟩ := List.dropPrefix?_eq_some_iff.mp hsecond
      have hfirst' : first <+: part := ⟨value, by rw [hpart, eq_of_beq hbefore]⟩
      have hsecond' : second <+: part := ⟨other, by rw [hpart', eq_of_beq hbefore']⟩
      rcases List.prefix_or_prefix_of_prefix hfirst' hsecond' with h | h
      · exact absurd h hdiffer.1
      · exact absurd h hdiffer.2

/-- The three tests on a part amount to one reading of it. -/
theorem readPart_eq (output : DelegationConditions) (part : List Char) :
    readPart output part =
      Outcome.okOr .parseInt ((read part).map (set output)) := by
  unfold readPart read
  cases hkind : part.dropPrefix? kindClause with
  | some value =>
      rw [dropPrefix?_eq_none hkind (by decide), dropPrefix?_eq_none hkind (by decide)]
      dsimp only
      cases parseUnsigned (2 ^ 32) value <;> rfl
  | none =>
      cases hafter : part.dropPrefix? createdAfterClause with
      | some value =>
          rw [dropPrefix?_eq_none hafter (by decide)]
          dsimp only
          cases parseSigned (2 ^ 63) value <;> rfl
      | none =>
          cases part.dropPrefix? createdBeforeClause with
          | some value =>
              dsimp only
              cases parseSigned (2 ^ 63) value <;> rfl
          | none => rfl

/-- The clauses of a condition string. -/
def readAll (s : String) : Option (List Clause) :=
  (s.toList.splitOn '&').mapM read

theorem foldlM_readPart_eq_ok_iff {output result : DelegationConditions}
    {parts : List (List Char)} :
    parts.foldlM readPart output = .ok result ↔
      ∃ clauses, parts.mapM read = some clauses ∧
        clauses.foldl set output = result := by
  induction parts generalizing output with
  | nil => simp
  | cons part parts ih =>
      rw [List.foldlM_cons, readPart_eq, List.mapM_cons]
      cases read part with
      | none => simp
      | some clause =>
          rw [Option.map_some, Outcome.okOr_some, Outcome.ok_bind, ih]
          cases parts.mapM read <;> simp

theorem tryFromStr_eq_ok_iff {s : String} {conditions : DelegationConditions} :
    tryFromStr s = .ok conditions ↔
      ∃ clauses, readAll s = some clauses ∧
        { clauses.foldl set ⟨none, none, none, none⟩ with fullString := some s } =
          conditions := by
  rw [tryFromStr, Outcome.bind_eq_ok_iff]
  simp only [foldlM_readPart_eq_ok_iff, Outcome.pure_eq, Outcome.ok.injEq]
  constructor
  · rintro ⟨_, ⟨clauses, hread, rfl⟩, hresult⟩
    exact ⟨clauses, hread, hresult⟩
  · rintro ⟨clauses, hread, hresult⟩
    exact ⟨_, ⟨clauses, hread, rfl⟩, hresult⟩

theorem returns_foldlM_readPart (output : DelegationConditions)
    (parts : List (List Char)) : (parts.foldlM readPart output).Returns := by
  induction parts generalizing output with
  | nil => exact Outcome.returns_ok _
  | cons part parts ih =>
      rw [List.foldlM_cons, readPart_eq]
      exact Outcome.returns_bind_iff.mpr
        ⟨Outcome.returns_okOr _ _, fun _ _ => ih _⟩

theorem returns_tryFromStr (s : String) : (tryFromStr s).Returns :=
  Outcome.returns_bind_pure_iff.mpr (returns_foldlM_readPart _ _)

/-- Both clauses are on the kind, on the start or on the end. -/
def SameSort : Clause → Clause → Prop
  | kind _, kind _ => True
  | createdAfter _, createdAfter _ => True
  | createdBefore _, createdBefore _ => True
  | _, _ => False

/-- What no later clause sets stays as it is. -/
theorem foldl_set_frame {α : Type} (field : DelegationConditions → α)
    {later : List Clause} (output : DelegationConditions)
    (hframe : ∀ clause ∈ later, ∀ output,
      field (set output clause) = field output) :
    field (later.foldl set output) = field output := by
  induction later generalizing output with
  | nil => rfl
  | cons clause later ih =>
      rw [List.foldl_cons, ih _ fun next hnext =>
          hframe next (List.mem_cons_of_mem _ hnext),
        hframe clause List.mem_cons_self]

end Clause

end Types

end Gnostr
