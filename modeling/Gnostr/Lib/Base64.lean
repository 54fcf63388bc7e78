/-
Base64 engines with the standard alphabet, canonical padding and no stray
trailing bits, and the reference one.
-/
import Gnostr.Lib.BitGroups
import Gnostr.Lib.Bytes

namespace Gnostr

/-- The letters, digits and signs of the standard alphabet, and the padding. -/
def isBase64Byte (byte : UInt8) : Bool :=
  (65 ≤ byte && byte ≤ 90) || (97 ≤ byte && byte ≤ 122) ||
    (48 ≤ byte && byte ≤ 57) || byte == 43 || byte == 47 || byte == 61

/-- A strict engine: every byte string has one text, which is the only text it
is decoded from. -/
structure Base64 where
  encode : Bytes → String
  decode : Bytes → Option Bytes
  decode_eq_some_iff : ∀ {text bytes : Bytes},
    decode text = some bytes ↔ utf8 (encode bytes) = text
  length_encode : ∀ bytes : Bytes,
    (utf8 (encode bytes)).length = 4 * ((bytes.length + 2) / 3)
  isBase64Byte_of_mem : ∀ {bytes : Bytes} {byte : UInt8},
    byte ∈ utf8 (encode bytes) → isBase64Byte byte = true

namespace Base64

@[simp] theorem decode_encode (engine : Base64) (bytes : Bytes) :
    engine.decode (utf8 (engine.encode bytes)) = some bytes :=
  engine.decode_eq_some_iff.mpr rfl

theorem ne_of_mem_encode (engine : Base64) {bytes : Bytes} {byte other : UInt8}
    (hother : isBase64Byte other = false)
    (hmem : byte ∈ utf8 (engine.encode bytes)) : byte ≠ other := by
  rintro rfl
  rw [engine.isBase64Byte_of_mem hmem] at hother
  cases hother

section Reference

def base64Alphabet : List Char :=
  "ABCDEFGHIJKLMNOPQRSTUVWXYZabcdefghijklmnopqrstuvwxyz0123456789+/".toList

def base64Chars (bytes : Bytes) : List Char :=
  let symbols := symbolsOfBytes 6 bytes
  symbols.map (base64Alphabet.getD · '=') ++
    List.replicate ((4 - symbols.length % 4) % 4) '='

/-- What a text decodes to if it is the text of anything. -/
def base64Candidate (text : Bytes) : Bytes :=
  bytesOfSymbols 6 ((text.takeWhile (· != 61)).map fun byte =>
    base64Alphabet.idxOf (Char.ofNat byte.toNat))

theorem base64Alphabet_spec : ∀ symbol < 64,
    String.utf8EncodeChar (base64Alphabet.getD symbol '=') =
      [UInt8.ofNat (base64Alphabet.getD symbol '=').toNat] ∧
    isBase64Byte (UInt8.ofNat (base64Alphabet.getD symbol '=').toNat) = true ∧
    UInt8.ofNat (base64Alphabet.getD symbol '=').toNat ≠ 61 ∧
    base64Alphabet.idxOf (Char.ofNat
      (UInt8.ofNat (base64Alphabet.getD symbol '=').toNat).toNat) = symbol := by
  decide +kernel

/-- The text of a byte string, byte by byte. -/
theorem utf8_base64Chars (bytes : Bytes) :
    utf8 (String.ofList (base64Chars bytes)) =
      (symbolsOfBytes 6 bytes).map (fun symbol =>
        UInt8.ofNat (base64Alphabet.getD symbol '=').toNat) ++
      List.replicate ((4 - (symbolsOfBytes 6 bytes).length % 4) % 4) 61 := by
  have hsymbols : ∀ symbols : List ℕ, (∀ symbol ∈ symbols, symbol < 64) →
      (symbols.map (base64Alphabet.getD · '=')).flatMap
          String.utf8EncodeChar =
        symbols.map fun symbol =>
          UInt8.ofNat (base64Alphabet.getD symbol '=').toNat := by
    intro symbols hlt
    induction symbols with
    | nil => rfl
    | cons symbol symbols ih =>
        rw [List.map_cons, List.flatMap_cons, List.map_cons,
          (base64Alphabet_spec symbol (hlt symbol List.mem_cons_self)).1,
          ih fun other hother => hlt other (List.mem_cons_of_mem _ hother)]
        rfl
  have hpadding : ∀ count : ℕ,
      (List.replicate count '=').flatMap String.utf8EncodeChar =
        List.replicate count 61 := by
    intro count
    induction count with
    | zero => rfl
    | succ count ih =>
        rw [List.replicate_succ, List.flatMap_cons, ih, List.replicate_succ]
        rfl
  rw [utf8_ofList, base64Chars, List.flatMap_append, hpadding,
    hsymbols _ fun symbol hsymbol => lt_of_mem_symbolsOfBytes hsymbol]

theorem base64Candidate_base64Chars (bytes : Bytes) :
    base64Candidate (utf8 (String.ofList (base64Chars bytes))) = bytes := by
  have hlt : ∀ symbol ∈ symbolsOfBytes 6 bytes, symbol < 64 :=
    fun symbol hsymbol => lt_of_mem_symbolsOfBytes hsymbol
  have htake : (utf8 (String.ofList (base64Chars bytes))).takeWhile (· != 61) =
      (symbolsOfBytes 6 bytes).map fun symbol =>
        UInt8.ofNat (base64Alphabet.getD symbol '=').toNat := by
    rw [utf8_base64Chars, List.takeWhile_append_of_pos]
    · rw [List.takeWhile_replicate]
      simp
    · intro byte hbyte
      obtain ⟨symbol, hsymbol, rfl⟩ := List.mem_map.mp hbyte
      exact bne_iff_ne.mpr (base64Alphabet_spec symbol (hlt _ hsymbol)).2.2.1
  have hindex : ((symbolsOfBytes 6 bytes).map fun symbol =>
      UInt8.ofNat (base64Alphabet.getD symbol '=').toNat).map (fun byte =>
        base64Alphabet.idxOf (Char.ofNat byte.toNat)) =
      symbolsOfBytes 6 bytes := by
    rw [List.map_map]
    refine (List.map_congr_left ?_).trans (List.map_id _)
    intro symbol hsymbol
    exact (base64Alphabet_spec symbol (hlt _ hsymbol)).2.2.2
  rw [base64Candidate, htake, hindex,
    bytesOfSymbols_symbolsOfBytes (by decide) (by decide)]

/-- What is encoded to the text is the candidate of the text. -/
theorem candidate_eq_some_iff {text bytes : Bytes} :
    (if utf8 (String.ofList (base64Chars (base64Candidate text))) = text then
        some (base64Candidate text)
      else none) = some bytes ↔
      utf8 (String.ofList (base64Chars bytes)) = text := by
  constructor
  · intro hdecode
    split at hdecode
    · rename_i htext
      rw [Option.some.injEq] at hdecode
      rw [← hdecode]
      exact htext
    · cases hdecode
  · rintro rfl
    rw [base64Candidate_base64Chars, if_pos rfl]

theorem length_base64Chars (bytes : Bytes) :
    (utf8 (String.ofList (base64Chars bytes))).length =
      4 * ((bytes.length + 2) / 3) := by
  rw [utf8_base64Chars, List.length_append, List.length_map,
    List.length_replicate, length_symbolsOfBytes, symbolCount]
  omega

theorem isBase64Byte_of_mem_base64Chars {bytes : Bytes} {byte : UInt8}
    (hbyte : byte ∈ utf8 (String.ofList (base64Chars bytes))) :
    isBase64Byte byte = true := by
  rw [utf8_base64Chars] at hbyte
  rcases List.mem_append.mp hbyte with hbody | hpadding
  · obtain ⟨symbol, hsymbol, rfl⟩ := List.mem_map.mp hbody
    have hlt : symbol < 2 ^ 6 := lt_of_mem_symbolsOfBytes hsymbol
    exact (base64Alphabet_spec symbol hlt).2.1
  · rw [List.eq_of_mem_replicate hpadding]
    rfl

/-- The reference engine: a text is decoded when it is what its candidate is
encoded to. -/
def reference : Base64 where
  encode bytes := String.ofList (base64Chars bytes)
  decode text :=
    let candidate := base64Candidate text
    if utf8 (String.ofList (base64Chars candidate)) = text then some candidate
    else none
  decode_eq_some_iff := candidate_eq_some_iff
  length_encode := length_base64Chars
  isBase64Byte_of_mem := isBase64Byte_of_mem_base64Chars

example : reference.encode [104, 105] = "aGk=" := by decide +kernel

end Reference

end Base64

end Gnostr
