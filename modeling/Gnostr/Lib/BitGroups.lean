/-
Regrouping: a string of symbols of one width, read as bits, is cut into symbols
of another width, the last of which is filled up with zero bits.
-/
import Mathlib.Data.List.Basic
import Mathlib.Data.List.Induction
import Mathlib.Tactic.Ring

namespace Gnostr

/-- The last `width` bits of a number, the highest first. -/
def bitsOf : ℕ → ℕ → List Bool
  | 0, _ => []
  | width + 1, number => bitsOf width (number / 2) ++ [decide (number % 2 = 1)]

def ofBits (bits : List Bool) : ℕ :=
  bits.foldl (fun number bit => 2 * number + bit.toNat) 0

@[simp] theorem length_bitsOf (width number : ℕ) :
    (bitsOf width number).length = width := by
  induction width generalizing number with
  | zero => rfl
  | succ width ih => simp [bitsOf, ih]

theorem ofBits_append_singleton (bits : List Bool) (bit : Bool) :
    ofBits (bits ++ [bit]) = 2 * ofBits bits + bit.toNat := by
  rw [ofBits, List.foldl_append]
  rfl

theorem ofBits_bitsOf {width number : ℕ} (hlt : number < 2 ^ width) :
    ofBits (bitsOf width number) = number := by
  induction width generalizing number with
  | zero =>
      rw [pow_zero, Nat.lt_one_iff] at hlt
      rw [hlt]
      rfl
  | succ width ih =>
      have hhalf : number / 2 < 2 ^ width :=
        Nat.div_lt_of_lt_mul (by rw [← pow_succ']; exact hlt)
      rw [bitsOf, ofBits_append_singleton, ih hhalf]
      rcases Nat.mod_two_eq_zero_or_one number with hmod | hmod
      · rw [hmod]
        simp
        omega
      · rw [hmod]
        simp
        omega

theorem ofBits_lt (bits : List Bool) : ofBits bits < 2 ^ bits.length := by
  induction bits using List.reverseRecOn with
  | nil => exact Nat.one_pos
  | append_singleton bits bit ih =>
      rw [ofBits_append_singleton, List.length_append, List.length_singleton,
        pow_succ]
      have hbit := bit.toNat_le
      omega

theorem bitsOf_ofBits (bits : List Bool) :
    bitsOf bits.length (ofBits bits) = bits := by
  induction bits using List.reverseRecOn with
  | nil => rfl
  | append_singleton bits bit ih =>
      have hbit := bit.toNat_le
      have hhalf : (2 * ofBits bits + bit.toNat) / 2 = ofBits bits := by omega
      rw [ofBits_append_singleton, List.length_append, List.length_singleton,
        bitsOf, hhalf, ih]
      cases bit <;> simp

/-- The bits of a string of symbols. -/
def unpack (width : ℕ) (symbols : List ℕ) : List Bool :=
  symbols.flatMap (bitsOf width)

/-- The first `count` symbols of a string of bits, which zero bits continue. -/
def pack (width : ℕ) : ℕ → List Bool → List ℕ
  | 0, _ => []
  | count + 1, bits =>
      ofBits ((bits.take width).rightpad width false) ::
        pack width count (bits.drop width)

/-- How many symbols hold `length` bits. -/
def symbolCount (width length : ℕ) : ℕ := (length + width - 1) / width

@[simp] theorem length_unpack (width : ℕ) (symbols : List ℕ) :
    (unpack width symbols).length = width * symbols.length := by
  induction symbols with
  | nil => rfl
  | cons symbol symbols ih =>
      rw [unpack, List.flatMap_cons, List.length_append, length_bitsOf,
        ← unpack, ih, List.length_cons]
      ring

@[simp] theorem length_pack (width count : ℕ) (bits : List Bool) :
    (pack width count bits).length = count := by
  induction count generalizing bits with
  | zero => rfl
  | succ count ih => rw [pack, List.length_cons, ih]

theorem length_rightpad_take (width : ℕ) (bits : List Bool) :
    ((bits.take width).rightpad width false).length = width := by
  rw [List.rightpad, List.length_append, List.length_replicate,
    List.length_take]
  omega

theorem lt_of_mem_pack {width count symbol : ℕ} {bits : List Bool}
    (hsymbol : symbol ∈ pack width count bits) : symbol < 2 ^ width := by
  induction count generalizing bits with
  | zero => cases hsymbol
  | succ count ih =>
      rcases List.mem_cons.mp hsymbol with rfl | hsymbol
      · have hlt := ofBits_lt ((bits.take width).rightpad width false)
        rwa [length_rightpad_take] at hlt
      · exact ih hsymbol

/-- Packing what was unpacked gives the symbols back, whatever bits follow. -/
theorem pack_unpack_append {width : ℕ} {symbols : List ℕ}
    (hlt : ∀ symbol ∈ symbols, symbol < 2 ^ width) (rest : List Bool) :
    pack width symbols.length (unpack width symbols ++ rest) = symbols := by
  induction symbols with
  | nil => rfl
  | cons symbol symbols ih =>
      have htail := ih fun other hother =>
        hlt other (List.mem_cons_of_mem symbol hother)
      have hfull : (bitsOf width symbol).rightpad width false =
          bitsOf width symbol := by
        rw [List.rightpad, length_bitsOf, Nat.sub_self, List.replicate_zero,
          List.append_nil]
      rw [List.length_cons, pack, unpack, List.flatMap_cons, List.append_assoc,
        List.take_left' (length_bitsOf width symbol),
        List.drop_left' (length_bitsOf width symbol), ← unpack, htail, hfull,
        ofBits_bitsOf (hlt symbol List.mem_cons_self)]

/-- Unpacking what was packed gives the bits back, with the zero bits that
filled up the last symbol. -/
theorem unpack_pack {width count : ℕ} {bits : List Bool}
    (hlength : bits.length ≤ width * count) :
    unpack width (pack width count bits) =
      bits ++ List.replicate (width * count - bits.length) false := by
  induction count generalizing bits with
  | zero =>
      have hnil : bits = [] :=
        List.eq_nil_of_length_eq_zero (by simpa using hlength)
      rw [hnil]
      rfl
  | succ count ih =>
      have hhead := bitsOf_ofBits ((bits.take width).rightpad width false)
      rw [length_rightpad_take] at hhead
      rw [Nat.mul_succ] at hlength ⊢
      have htail := @ih (bits.drop width) (by rw [List.length_drop]; omega)
      rw [pack, unpack, List.flatMap_cons, hhead, ← unpack, htail,
        List.length_drop]
      rcases Nat.le_total width bits.length with hle | hle
      · rw [List.rightpad, List.length_take, Nat.min_eq_left hle, Nat.sub_self,
          List.replicate_zero, List.append_nil, ← List.append_assoc,
          List.take_append_drop]
        congr 2
        omega
      · rw [List.take_of_length_le hle, List.drop_of_length_le hle,
          List.rightpad, List.nil_append, List.append_assoc,
          List.replicate_append_replicate]
        congr 2
        omega

theorem le_mul_symbolCount {width : ℕ} (hwidth : 0 < width) (length : ℕ) :
    length ≤ width * symbolCount width length := by
  have hlt := Nat.lt_mul_div_succ (length + width - 1) hwidth
  rw [symbolCount]
  rw [Nat.mul_add, Nat.mul_one] at hlt
  omega

theorem mul_symbolCount_lt {width : ℕ} (hwidth : 0 < width) (length : ℕ) :
    width * symbolCount width length < length + width := by
  have hle := Nat.mul_div_le (length + width - 1) width
  rw [symbolCount]
  omega

section Bytes

/-- Bytes as symbols of another width. -/
def symbolsOfBytes (width : ℕ) (bytes : List UInt8) : List ℕ :=
  let bits := unpack 8 (bytes.map UInt8.toNat)
  pack width (symbolCount width bits.length) bits

/-- The bytes in a string of symbols; bits that fill no byte are dropped. -/
def bytesOfSymbols (width : ℕ) (symbols : List ℕ) : List UInt8 :=
  let bits := unpack width symbols
  (pack 8 (bits.length / 8) bits).map UInt8.ofNat

@[simp] theorem length_symbolsOfBytes (width : ℕ) (bytes : List UInt8) :
    (symbolsOfBytes width bytes).length =
      symbolCount width (8 * bytes.length) := by
  rw [symbolsOfBytes, length_pack, length_unpack, List.length_map]

theorem lt_of_mem_symbolsOfBytes {width symbol : ℕ} {bytes : List UInt8}
    (hsymbol : symbol ∈ symbolsOfBytes width bytes) : symbol < 2 ^ width :=
  lt_of_mem_pack hsymbol

/-- Symbols of at most eight bits keep the bytes they were made from. -/
theorem bytesOfSymbols_symbolsOfBytes {width : ℕ} (hpos : 0 < width)
    (hwidth : width ≤ 8) (bytes : List UInt8) :
    bytesOfSymbols width (symbolsOfBytes width bytes) = bytes := by
  have hlength : (unpack 8 (bytes.map UInt8.toNat)).length =
      8 * bytes.length := by rw [length_unpack, List.length_map]
  have hfits := le_mul_symbolCount hpos (8 * bytes.length)
  have htight := mul_symbolCount_lt hpos (8 * bytes.length)
  have hcount : width * symbolCount width (8 * bytes.length) / 8 =
      (bytes.map UInt8.toNat).length := by
    rw [List.length_map]
    omega
  have hbytes : ∀ symbol ∈ bytes.map UInt8.toNat, symbol < 2 ^ 8 := by
    intro symbol hsymbol
    obtain ⟨byte, _, rfl⟩ := List.mem_map.mp hsymbol
    exact byte.toNat_lt
  rw [bytesOfSymbols, length_unpack, length_symbolsOfBytes, hcount,
    symbolsOfBytes, hlength, unpack_pack (hlength ▸ hfits),
    pack_unpack_append hbytes, List.map_map]
  exact (List.map_congr_left fun byte _ => UInt8.ofNat_toNat).trans
    (List.map_id bytes)

end Bytes

end Gnostr
