/-
Byte strings: the UTF-8 bytes of a text, arrays of a fixed size, and numbers
in big-endian bytes.
-/
import Mathlib.Data.List.Basic
import Mathlib.Data.Nat.Log
import Mathlib.Tactic.Ring

namespace Gnostr

abbrev Bytes := List UInt8

/-- `as_bytes`. -/
def utf8 (text : String) : Bytes := text.toByteArray.data.toList

/-- `from_utf8`. -/
def fromUtf8 (bytes : Bytes) : Option String :=
  String.fromUTF8? bytes.toByteArray

theorem fromUtf8_eq_some_iff {bytes : Bytes} {text : String} :
    fromUtf8 bytes = some text ↔ utf8 text = bytes := by
  unfold fromUtf8 String.fromUTF8? utf8
  constructor
  · intro hsome
    split at hsome
    · rw [Option.some.injEq] at hsome
      rw [← hsome]
      exact List.toList_data_toByteArray
    · cases hsome
  · intro hbytes
    have harray : bytes.toByteArray = text.toByteArray := by
      apply ByteArray.ext
      rw [List.data_toByteArray, ← hbytes, Array.toArray_toList]
    rw [dif_pos (harray ▸ text.isValidUTF8), Option.some.injEq]
    exact String.toByteArray_inj.mp harray

@[simp] theorem fromUtf8_utf8 (text : String) :
    fromUtf8 (utf8 text) = some text := fromUtf8_eq_some_iff.mpr rfl

theorem utf8_injective : Function.Injective utf8 := by
  intro first second hsame
  have htext := congrArg fromUtf8 hsame
  rwa [fromUtf8_utf8, fromUtf8_utf8, Option.some.injEq] at htext

@[simp] theorem utf8_append (first second : String) :
    utf8 (first ++ second) = utf8 first ++ utf8 second := by
  rw [utf8, String.toByteArray_append, ByteArray.data_append,
    Array.toList_append]
  rfl

theorem utf8_ofList (chars : List Char) :
    utf8 (String.ofList chars) = chars.flatMap String.utf8EncodeChar := by
  rw [utf8, String.toByteArray_ofList, List.utf8Encode,
    List.toList_data_toByteArray]

/-- A character takes one to four bytes. -/
theorem length_utf8_ofList_bounds (chars : List Char) :
    chars.length ≤ (utf8 (String.ofList chars)).length ∧
      (utf8 (String.ofList chars)).length ≤ 4 * chars.length := by
  rw [utf8_ofList]
  induction chars with
  | nil => exact ⟨Nat.le_refl 0, Nat.le_refl 0⟩
  | cons c chars ih =>
      have hpos := c.utf8Size_pos
      have hle := c.utf8Size_le_four
      rw [List.flatMap_cons, List.length_append, String.length_utf8EncodeChar,
        List.length_cons]
      omega

theorem utf8_eq_flatMap (text : String) :
    utf8 text = text.toList.flatMap String.utf8EncodeChar := by
  rw [← utf8_ofList, String.ofList_toList]

/-- The length of the UTF-8 sequence a byte begins, none if it begins none. -/
def utf8CharWidth (byte : UInt8) : Option ℕ :=
  if byte < 0x80 then some 1
  else if 0xC2 ≤ byte ∧ byte < 0xE0 then some 2
  else if 0xE0 ≤ byte ∧ byte < 0xF0 then some 3
  else if 0xF0 ≤ byte ∧ byte < 0xF5 then some 4
  else none

/-- The second bytes that may follow a first one. -/
def isUtf8Second (byte second : UInt8) : Bool :=
  let lowest : UInt8 := if byte = 0xE0 then 0xA0 else if byte = 0xF0 then 0x90 else 0x80
  let highest : UInt8 := if byte = 0xED then 0x9F else if byte = 0xF4 then 0x8F else 0xBF
  lowest ≤ second && second ≤ highest

/-- How many bytes from here on belong together: a sequence, or the longest
beginning of one, at least one byte. -/
def maximalSubpart (byte : UInt8) (rest : Bytes) : ℕ :=
  match utf8CharWidth byte, rest with
  | none, _ => 1
  | some _, [] => 1
  | some width, second :: rest =>
      if width = 1 ∨ !isUtf8Second byte second then 1
      else 2 + ((rest.take (width - 2)).takeWhile fun next =>
        0x80 ≤ next && next ≤ 0xBF).length

/-- The text of the bytes after the next `skip`, with a replacement character
for every part that is no sequence. -/
def replaceInvalid : ℕ → Bytes → String
  | _, [] => ""
  | skip + 1, _ :: rest => replaceInvalid skip rest
  | 0, byte :: rest =>
      let length := maximalSubpart byte rest
      (fromUtf8 ((byte :: rest).take length)).getD "\uFFFD" ++
        replaceInvalid (length - 1) rest

/-- `from_utf8_lossy`. -/
def fromUtf8Lossy (bytes : Bytes) : String :=
  (fromUtf8 bytes).getD (replaceInvalid 0 bytes)

@[simp] theorem fromUtf8Lossy_utf8 (text : String) :
    fromUtf8Lossy (utf8 text) = text := by
  rw [fromUtf8Lossy, fromUtf8_utf8, Option.getD_some]

/-- `try_into` a fixed-size array. -/
def tryIntoArray (n : ℕ) (bytes : Bytes) : Option (Vector UInt8 n) :=
  if hlength : bytes.length = n then some ⟨bytes.toArray, hlength⟩ else none

@[simp] theorem tryIntoArray_toList {n : ℕ} (array : Vector UInt8 n) :
    tryIntoArray n array.toList = some array := by
  rw [tryIntoArray, dif_pos Vector.length_toList, Option.some.injEq]
  exact Vector.toList_inj.mp rfl

theorem tryIntoArray_eq_none_iff {n : ℕ} {bytes : Bytes} :
    tryIntoArray n bytes = none ↔ bytes.length ≠ n := by
  unfold tryIntoArray
  split <;> simp_all

theorem exists_tryIntoArray {n : ℕ} {bytes : Bytes}
    (hlength : bytes.length = n) :
    ∃ array : Vector UInt8 n,
      tryIntoArray n bytes = some array ∧ array.toList = bytes :=
  ⟨⟨bytes.toArray, hlength⟩, dif_pos hlength, rfl⟩

/-- The last `width` base-256 digits of a number, the highest first. -/
def beBytes : ℕ → ℕ → Bytes
  | 0, _ => []
  | width + 1, number => beBytes width (number / 256) ++ [UInt8.ofNat number]

def ofBeBytes (bytes : Bytes) : ℕ :=
  bytes.foldl (fun number byte => 256 * number + byte.toNat) 0

@[simp] theorem length_beBytes (width number : ℕ) :
    (beBytes width number).length = width := by
  induction width generalizing number with
  | zero => rfl
  | succ width ih => simp [beBytes, ih]

theorem ofBeBytes_beBytes {width number : ℕ} (hlt : number < 256 ^ width) :
    ofBeBytes (beBytes width number) = number := by
  induction width generalizing number with
  | zero =>
      rw [pow_zero, Nat.lt_one_iff] at hlt
      rw [hlt]
      rfl
  | succ width ih =>
      have hdiv : number / 256 < 256 ^ width :=
        Nat.div_lt_of_lt_mul (by rw [← pow_succ']; exact hlt)
      have hbytes := ih hdiv
      unfold ofBeBytes at hbytes ⊢
      rw [beBytes, List.foldl_append, hbytes]
      have hbyte : (UInt8.ofNat number).toNat = number % 256 := by simp
      rw [List.foldl_cons, List.foldl_nil, hbyte, Nat.div_add_mod]

end Gnostr
