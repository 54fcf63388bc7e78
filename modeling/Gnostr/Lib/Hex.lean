/-
Hexadecimal texts: two digits a byte, written in lower case and read in either.
-/
import Gnostr.Lib.Bytes

namespace Gnostr

structure Hex where
  encode : Bytes → String
  decode : String → Option Bytes
  decode_encode : ∀ bytes : Bytes, decode (encode bytes) = some bytes

namespace Hex

def hexDigits : List Char := "0123456789abcdef".toList

end Hex

/-- A codec that writes lower-case digits and nothing else. -/
structure LowerHex extends Hex where
  mem_hexDigits_of_mem_encode : ∀ {bytes : Bytes} {c : Char},
    c ∈ (encode bytes).toList → c ∈ Hex.hexDigits

namespace LowerHex

/-- A character that is no digit does not stand in the text of bytes. -/
theorem not_mem_encode (hex : LowerHex) {c : Char} (hc : c ∉ Hex.hexDigits)
    (bytes : Bytes) : c ∉ (hex.encode bytes).toList :=
  fun hmem => hc (hex.mem_hexDigits_of_mem_encode hmem)

end LowerHex

namespace Hex

section Reference

def hexDigitValue (c : Char) : Option ℕ :=
  hexDigits.idxOf? (if c.isUpper then c.toLower else c)

def hexChars (bytes : Bytes) : List Char :=
  bytes.flatMap fun byte =>
    [hexDigits.getD (byte.toNat / 16) '0', hexDigits.getD (byte.toNat % 16) '0']

def hexBytes : List Char → Option Bytes
  | [] => some []
  | [_] => none
  | high :: low :: rest => do
      let high ← hexDigitValue high
      let low ← hexDigitValue low
      let bytes ← hexBytes rest
      return UInt8.ofNat (16 * high + low) :: bytes

theorem hexDigitValue_getD : ∀ digit < 16,
    hexDigitValue (hexDigits.getD digit '0') = some digit := by
  decide +kernel

theorem hexBytes_hexChars (bytes : Bytes) :
    hexBytes (hexChars bytes) = some bytes := by
  induction bytes with
  | nil => rfl
  | cons byte bytes ih =>
      have hhigh : byte.toNat / 16 < 16 :=
        Nat.div_lt_of_lt_mul byte.toNat_lt
      have hlow : byte.toNat % 16 < 16 := Nat.mod_lt _ (by decide)
      have hdigits := Nat.div_add_mod byte.toNat 16
      rw [hexChars, List.flatMap_cons, ← hexChars]
      simp only [List.cons_append, List.nil_append, hexBytes,
        hexDigitValue_getD _ hhigh, hexDigitValue_getD _ hlow, ih, Option.bind_eq_bind, Option.bind_some, hdigits, UInt8.ofNat_toNat]
      rfl

def reference : Hex where
  encode bytes := String.ofList (hexChars bytes)
  decode text := hexBytes text.toList
  decode_encode := by
    intro bytes
    rw [String.toList_ofList, hexBytes_hexChars]

example : reference.decode "00fF" = some [0, 255] := by decide +kernel

theorem getD_mem_hexDigits : ∀ digit < 16,
    hexDigits.getD digit '0' ∈ hexDigits := by
  decide +kernel

def referenceLower : LowerHex where
  toHex := reference
  mem_hexDigits_of_mem_encode := by
    intro bytes c hc
    unfold reference at hc
    rw [String.toList_ofList, hexChars, List.mem_flatMap] at hc
    obtain ⟨byte, _, hc⟩ := hc
    have hhigh : byte.toNat / 16 < 16 := Nat.div_lt_of_lt_mul byte.toNat_lt
    have hlow : byte.toNat % 16 < 16 := Nat.mod_lt _ (by decide)
    rcases List.mem_pair.mp hc with rfl | rfl
    · exact getD_mem_hexDigits _ hhigh
    · exact getD_mem_hexDigits _ hlow

end Reference

end Hex

end Gnostr
