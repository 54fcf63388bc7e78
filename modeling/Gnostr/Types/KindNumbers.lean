/-
Kinds by their numbers: the visitor of `types/src/nostr/event_kind.rs`, which takes a
number of 64 bits and keeps the lower 32.
-/
import Gnostr.Types.EventV3

namespace Gnostr

namespace Types

namespace EventKind

/-- An unsigned integer is taken if it has 64 bits, and cut to 32. -/
theorem deserializeEventKind_natCast (v : ℕ) :
    deserializeEventKind (.int v) =
      if v < 2 ^ 64 then some (ofU32 (UInt32.ofNat v)) else none := by
  rw [deserializeEventKind, Int.toNat_natCast]
  refine if_congr ?_ rfl rfl
  omega

theorem toNat_toU32_ofNat (v : ℕ) :
    (ofU32 (UInt32.ofNat v)).toU32.toNat = v % 2 ^ 32 := by
  rw [toU32_ofU32, UInt32.toNat_ofNat']

/-- Two numbers give one kind exactly when their lower 32 bits are the same. -/
theorem deserializeEventKind_eq_iff {v w : ℕ} (hv : v < 2 ^ 64) (hw : w < 2 ^ 64) :
    deserializeEventKind (.int v) = deserializeEventKind (.int w) ↔
      v % 2 ^ 32 = w % 2 ^ 32 := by
  rw [deserializeEventKind_natCast, deserializeEventKind_natCast, if_pos hv, if_pos hw,
    Option.some.injEq]
  constructor
  · intro hsame
    have hnumber := congrArg (fun kind => kind.toU32.toNat) hsame
    rwa [toNat_toU32_ofNat, toNat_toU32_ofNat] at hnumber
  · intro hsame
    have hnumber : UInt32.ofNat v = UInt32.ofNat w := by
      rw [← UInt32.toNat_inj, UInt32.toNat_ofNat', UInt32.toNat_ofNat', hsame]
    rw [hnumber]

/-- A number is refused or gives a kind of this very number. -/
def DecodesFaithfully (v : ℕ) : Prop :=
  ∀ kind, deserializeEventKind (.int v) = some kind → kind.toU32.toNat = v

/-- A number that fits into 32 bits is decoded faithfully, and one that does not fit
into 64 is refused; those between lose their upper bits. -/
theorem decodesFaithfully_iff_and_toU32_ofU32 (v : ℕ) (number : UInt32) :
    (DecodesFaithfully v ↔ v < 2 ^ 32 ∨ 2 ^ 64 ≤ v) ∧
      (ofU32 number).toU32 = number := by
  refine ⟨?_, toU32_ofU32 number⟩
  unfold DecodesFaithfully
  rw [deserializeEventKind_natCast]
  by_cases hv : v < 2 ^ 64
  · rw [if_pos hv]
    have hnumber : (∀ kind, some (ofU32 (UInt32.ofNat v)) = some kind →
        kind.toU32.toNat = v) ↔ v % 2 ^ 32 = v := by
      rw [← toNat_toU32_ofNat]
      exact ⟨fun hall => hall _ rfl, fun hsame _ hkind => Option.some.inj hkind ▸ hsame⟩
    rw [hnumber]
    omega
  · rw [if_neg hv]
    exact iff_of_true (fun _ hkind => absurd hkind.symm (Option.some_ne_none _))
      (.inr (Nat.le_of_not_lt hv))

/-- With a 33rd bit the number 1 is a text note still. -/
theorem not_decodesFaithfully_wrapped :
    ¬ ((∀ v : ℕ, DecodesFaithfully v) ∧
      ∀ number : UInt32, (ofU32 number).toU32 = number) := by
  rintro ⟨hall, -⟩
  have hsame := (deserializeEventKind_eq_iff (by decide) (by decide)).mpr
    (by decide : (2 ^ 32 + 1) % 2 ^ 32 = 1 % 2 ^ 32)
  have htextNote : deserializeEventKind (.int (1 : ℕ)) = some (.wellKnown .textNote) := by
    decide
  have hnumber := hall _ _ (hsame.trans htextNote)
  revert hnumber
  decide

end EventKind

end Types

end Gnostr
