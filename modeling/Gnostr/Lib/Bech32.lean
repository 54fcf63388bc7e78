/-
Bech32 codecs: a human-readable part, a separator, the data in symbols of five
bits and a checksum of six, at most 1023 characters in all.
-/
import Gnostr.Lib.BitGroups
import Gnostr.Lib.Bytes

namespace Gnostr

/-- The human-readable parts in use are words of lower-case letters. -/
def IsHrp (hrp : String) : Prop :=
  hrp.toList ≠ [] ∧ ∀ c ∈ hrp.toList, c.isLower = true

instance (hrp : String) : Decidable (IsHrp hrp) :=
  decidable_of_iff (hrp.toList ≠ [] ∧ hrp.toList.all Char.isLower = true)
    (and_congr Iff.rfl List.all_eq_true)

/-- The longest text the checksum is good for. -/
def bech32CodeLength : ℕ := 1023

/-- The length of a text: its parts, the separator and the checksum. -/
def bech32Length (hrp : String) (dataLength : ℕ) : ℕ :=
  hrp.toList.length + 1 + symbolCount 5 (8 * dataLength) + 6

structure Bech32 where
  encode : String → Bytes → Option String
  decode : String → Option (String × Bytes)
  decode_of_encode : ∀ {hrp text : String} {data : Bytes}, IsHrp hrp →
    encode hrp data = some text → decode text = some (hrp, data)
  prefix_of_encode : ∀ {hrp text : String} {data : Bytes}, IsHrp hrp →
    encode hrp data = some text → hrp.toList ++ ['1'] <+: text.toList
  isSome_encode_iff : ∀ {hrp : String} {data : Bytes}, IsHrp hrp →
    ((encode hrp data).isSome = true ↔
      bech32Length hrp data.length ≤ bech32CodeLength)

/-- A codec that writes letters and digits and nothing else. -/
structure AlnumBech32 extends Bech32 where
  isAlphanum_of_encode : ∀ {hrp text : String} {data : Bytes}, IsHrp hrp →
    encode hrp data = some text → ∀ c ∈ text.toList, c.isAlphanum = true

namespace Bech32

theorem exists_encode_iff (codec : Bech32) {hrp : String} (hhrp : IsHrp hrp)
    {data : Bytes} :
    (∃ text, codec.encode hrp data = some text) ↔
      bech32Length hrp data.length ≤ bech32CodeLength := by
  rw [← codec.isSome_encode_iff hhrp, Option.isSome_iff_exists]

section Reference

def bech32Charset : List Char := "qpzry9x8gf2tvdw0s3jn54khce6mua7l".toList

/-- One step of the checksum's polynomial remainder. -/
def polymodStep (remainder value : ℕ) : ℕ :=
  let top := remainder >>> 25
  let generators :=
    [0x3b6a57b2, 0x26508e6d, 0x1ea119fa, 0x3d4233dd, 0x2a1462b3]
  generators.zipIdx.foldl
    (fun sum generator =>
      if top.testBit generator.2 then sum ^^^ generator.1 else sum)
    (((remainder &&& 0x1ffffff) <<< 5) ^^^ value)

def polymod (values : List ℕ) : ℕ := values.foldl polymodStep 1

def expandHrp (hrp : List Char) : List ℕ :=
  hrp.map (fun c => c.toNat >>> 5) ++ [0] ++ hrp.map (fun c => c.toNat &&& 31)

def bech32Checksum (hrp : List Char) (symbols : List ℕ) : List ℕ :=
  let remainder :=
    polymod (expandHrp hrp ++ symbols ++ List.replicate 6 0) ^^^ 1
  (List.range 6).map fun i => (remainder >>> (5 * (5 - i))) &&& 31

def bech32Chars (hrp : List Char) (data : Bytes) : List Char :=
  let symbols := symbolsOfBytes 5 data
  hrp ++ ['1'] ++ (symbols ++ bech32Checksum hrp symbols).map
    (bech32Charset.getD · 'q')

def bech32Encode (hrp : String) (data : Bytes) : Option String :=
  if bech32Length hrp data.length ≤ bech32CodeLength then
    some (String.ofList (bech32Chars hrp.toList data))
  else none

/-- The parts of a text if it is the text of anything: what stands before and
after the last separator. -/
def bech32Candidate (text : String) : String × Bytes :=
  let tail := (text.toList.reverse.takeWhile (· != '1')).reverse
  let hrp := text.toList.take (text.toList.length - tail.length - 1)
  let symbols := (tail.take (tail.length - 6)).map bech32Charset.idxOf
  (String.ofList hrp, bytesOfSymbols 5 symbols)

theorem bech32Charset_spec : ∀ symbol < 32,
    bech32Charset.getD symbol 'q' ≠ '1' ∧
      bech32Charset.idxOf (bech32Charset.getD symbol 'q') = symbol := by
  decide +kernel

theorem length_bech32Checksum (hrp : List Char) (symbols : List ℕ) :
    (bech32Checksum hrp symbols).length = 6 := by
  rw [bech32Checksum, List.length_map, List.length_range]

theorem lt_of_mem_bech32Checksum {hrp : List Char} {symbols : List ℕ}
    {symbol : ℕ} (hsymbol : symbol ∈ bech32Checksum hrp symbols) :
    symbol < 32 := by
  obtain ⟨i, _, rfl⟩ := List.mem_map.mp hsymbol
  exact Nat.and_lt_two_pow _ (by decide : 31 < 2 ^ 5)

theorem bech32Candidate_bech32Chars (hrp : String) (data : Bytes) :
    bech32Candidate (String.ofList (bech32Chars hrp.toList data)) =
      (hrp, data) := by
  have hlt : ∀ symbol ∈ symbolsOfBytes 5 data ++
      bech32Checksum hrp.toList (symbolsOfBytes 5 data), symbol < 32 := by
    intro symbol hsymbol
    rcases List.mem_append.mp hsymbol with hdata | hchecksum
    · exact lt_of_mem_symbolsOfBytes hdata
    · exact lt_of_mem_bech32Checksum hchecksum
  have htail : ((bech32Chars hrp.toList data).reverse.takeWhile
      (· != '1')).reverse =
      (symbolsOfBytes 5 data ++ bech32Checksum hrp.toList
        (symbolsOfBytes 5 data)).map (bech32Charset.getD · 'q') := by
    rw [bech32Chars, List.reverse_append, List.takeWhile_append_of_pos,
      List.reverse_append, List.reverse_reverse, List.reverse_append,
      List.reverse_singleton, List.singleton_append,
      List.takeWhile_cons_of_neg (by decide), List.reverse_nil,
      List.nil_append]
    intro c hc
    obtain ⟨symbol, hsymbol, rfl⟩ := List.mem_map.mp (List.mem_reverse.mp hc)
    exact bne_iff_ne.mpr (bech32Charset_spec symbol (hlt _ hsymbol)).1
  have hindex : ((symbolsOfBytes 5 data).map
      (bech32Charset.getD · 'q')).map bech32Charset.idxOf =
      symbolsOfBytes 5 data := by
    rw [List.map_map]
    refine (List.map_congr_left ?_).trans (List.map_id _)
    intro symbol hsymbol
    exact (bech32Charset_spec symbol
      (hlt _ (List.mem_append_left _ hsymbol))).2
  rw [bech32Candidate, String.toList_ofList, htail, List.length_map,
    List.length_append, length_bech32Checksum, Nat.add_sub_cancel,
    List.map_append, List.take_left' (List.length_map _), hindex,
    bytesOfSymbols_symbolsOfBytes (by decide) (by decide)]
  have hlength : (bech32Chars hrp.toList data).length -
      ((symbolsOfBytes 5 data).length + 6) - 1 = hrp.toList.length := by
    rw [bech32Chars, List.length_append, List.length_append,
      List.length_singleton, List.length_map, List.length_append,
      length_bech32Checksum]
    omega
  rw [hlength, bech32Chars, List.append_assoc, List.take_left,
    String.ofList_toList]

/-- The reference codec writes and reads lower case only, under the first of
the two checksums. -/
def reference : Bech32 where
  encode := bech32Encode
  decode text :=
    let candidate := bech32Candidate text
    if bech32Encode candidate.1 candidate.2 = some text then some candidate
    else none
  decode_of_encode := by
    intro hrp text data _ hencode
    have htext : String.ofList (bech32Chars hrp.toList data) = text := by
      unfold bech32Encode at hencode
      split at hencode
      · exact Option.some.inj hencode
      · cases hencode
    have hcandidate : bech32Candidate text = (hrp, data) := by
      rw [← htext]
      exact bech32Candidate_bech32Chars hrp data
    dsimp only
    rw [hcandidate, if_pos hencode]
  prefix_of_encode := by
    intro hrp text data _ hencode
    unfold bech32Encode at hencode
    split at hencode
    · rw [← Option.some.inj hencode, String.toList_ofList, bech32Chars]
      exact List.prefix_append _ _
    · cases hencode
  isSome_encode_iff := by
    intro hrp data _
    unfold bech32Encode
    split <;> simp_all

theorem isAlphanum_bech32Charset : ∀ symbol < 32,
    (bech32Charset.getD symbol 'q').isAlphanum = true := by
  decide +kernel

def referenceAlnum : AlnumBech32 where
  toBech32 := reference
  isAlphanum_of_encode := by
    intro hrp text data hhrp hencode c hc
    change bech32Encode hrp data = some text at hencode
    unfold bech32Encode at hencode
    split at hencode
    · rw [← Option.some.inj hencode, String.toList_ofList, bech32Chars, List.mem_append,
        List.mem_append, List.mem_singleton] at hc
      rcases hc with (hc | rfl) | hc
      · change (c.isUpper || c.isLower || c.isDigit) = true
        rw [hhrp.2 c hc, Bool.or_true, Bool.true_or]
      · rfl
      · obtain ⟨symbol, hsymbol, rfl⟩ := List.mem_map.mp hc
        refine isAlphanum_bech32Charset symbol ?_
        rcases List.mem_append.mp hsymbol with hdata | hchecksum
        · exact lt_of_mem_symbolsOfBytes hdata
        · exact lt_of_mem_bech32Checksum hchecksum
    · cases hencode

example : reference.encode "note" (List.replicate 32 0) =
    some "note1qqqqqqqqqqqqqqqqqqqqqqqqqqqqqqqqqqqqqqqqqqqqqqqqqqqqn2l0z3" := by
  decide +kernel

end Reference

end Bech32

end Gnostr
