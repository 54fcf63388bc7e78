/-
The padding schedule of NIP-44: the padded length is no less than the length and than 32,
it is monotone and idempotent, and the padding of a long message is at most a quarter of it.
-/
import Gnostr.Crypto.Nip44
import Mathlib.Order.Monotone.Defs

namespace Gnostr

namespace Types

namespace Nip44

section RoundUp

theorem roundUp_mono {len longer : ℕ} (chunk : ℕ) (hle : len ≤ longer) :
    chunk * ((len - 1) / chunk + 1) ≤ chunk * ((longer - 1) / chunk + 1) := by
  have hquotient : (len - 1) / chunk ≤ (longer - 1) / chunk :=
    Nat.div_le_div_right (by omega)
  exact Nat.mul_le_mul_left _ (Nat.succ_le_succ hquotient)

/-- A multiple of the chunk is not rounded. -/
theorem roundUp_mul {chunk : ℕ} (hchunk : 0 < chunk) (count : ℕ) :
    chunk * ((chunk * (count + 1) - 1) / chunk + 1) = chunk * (count + 1) := by
  have hlast : chunk * (count + 1) - 1 = chunk * count + (chunk - 1) := by
    rw [Nat.mul_succ]
    omega
  have hquotient : (chunk * (count + 1) - 1) / chunk = count := by
    rw [hlast, Nat.mul_add_div hchunk, Nat.div_eq_of_lt (Nat.sub_lt hchunk one_pos),
      Nat.add_zero]
  rw [hquotient]

/-- Rounding adds less than a chunk. -/
theorem roundUp_le_add {chunk : ℕ} (len : ℕ) :
    chunk * ((len - 1) / chunk + 1) ≤ len - 1 + chunk := by
  have hmul := Nat.mul_div_le (len - 1) chunk
  rw [Nat.mul_succ]
  omega

end RoundUp

section Schedule

/-- An eighth of the power of two above, and no less than 32. -/
def chunkAt (exponent : ℕ) : ℕ :=
  if 2 ^ (exponent + 1) ≤ 256 then 32 else 2 ^ (exponent + 1) / 8

theorem chunkAt_pos {exponent : ℕ} (hexponent : 5 ≤ exponent) : 0 < chunkAt exponent :=
  Nat.pos_of_dvd_of_pos (chunk_dvd hexponent) (Nat.two_pow_pos _)

theorem calcPadding_eq {len : ℕ} (hlt : 32 < len) :
    calcPadding len =
      chunkAt (len - 1).log2 * ((len - 1) / chunkAt (len - 1).log2 + 1) := by
  unfold calcPadding chunkAt
  rw [if_neg (by omega), Nat.one_shiftLeft]
  dsimp only
  rw [if_neg (by omega : ¬ len ≤ 32)]

theorem five_le_log2 {len : ℕ} (hlt : 32 < len) : 5 ≤ (len - 1).log2 :=
  (Nat.le_log2 (by omega)).mpr (by omega : 2 ^ 5 ≤ len - 1)

theorem thirtyTwo_le_calcPadding (len : ℕ) : 32 ≤ calcPadding len := by
  by_cases hle : len ≤ 32
  · rw [calcPadding_of_le hle]
  · exact (Nat.le_of_lt (Nat.not_le.mp hle)).trans (le_calcPadding len)

theorem calcPadding_mono : Monotone calcPadding := by
  intro len longer hle
  by_cases hshort : len ≤ 32
  · rw [calcPadding_of_le hshort]
    exact thirtyTwo_le_calcPadding longer
  · have hlen : 32 < len := Nat.not_le.mp hshort
    have hlonger : 32 < longer := hlen.trans_le hle
    have hself := Nat.log2_self_le (show len - 1 ≠ 0 by omega)
    have hlog : (len - 1).log2 ≤ (longer - 1).log2 :=
      (Nat.le_log2 (by omega)).mpr (by omega)
    rcases Nat.eq_or_lt_of_le hlog with hsame | hless
    · rw [calcPadding_eq hlen, calcPadding_eq hlonger, hsame]
      exact roundUp_mono _ hle
    · -- the power of two above the shorter length is no more than the longer one
      calc calcPadding len ≤ 2 ^ ((len - 1).log2 + 1) := (calcPadding_of_lt hlen).2
        _ ≤ 2 ^ (longer - 1).log2 := Nat.pow_le_pow_right (by decide) hless
        _ ≤ longer - 1 := Nat.log2_self_le (by omega)
        _ ≤ longer := Nat.sub_le _ _
        _ ≤ calcPadding longer := le_calcPadding longer

/-- A padded length lies under the same power of two. -/
theorem log2_calcPadding {len : ℕ} (hlt : 32 < len) :
    (calcPadding len - 1).log2 = (len - 1).log2 := by
  have hbounds := calcPadding_of_lt hlt
  have hself := Nat.log2_self_le (show len - 1 ≠ 0 by omega)
  exact (Nat.log2_eq_iff (by omega)).mpr ⟨by omega, by omega⟩

theorem calcPadding_calcPadding (len : ℕ) :
    calcPadding (calcPadding len) = calcPadding len := by
  by_cases hshort : len ≤ 32
  · rw [calcPadding_of_le hshort, calcPadding_of_le le_rfl]
  · have hlen : 32 < len := Nat.not_le.mp hshort
    have hpadded : 32 < calcPadding len := hlen.trans_le (le_calcPadding len)
    rw [calcPadding_eq hpadded, log2_calcPadding hlen, calcPadding_eq hlen]
    exact roundUp_mul (chunkAt_pos (five_le_log2 hlen)) _

/-- Above 256 the chunk is at most a quarter of the length. -/
theorem chunkAt_le {len : ℕ} (hlt : 256 < len) :
    chunkAt (len - 1).log2 ≤ (len - 1) / 4 := by
  have hlog : 8 ≤ (len - 1).log2 :=
    (Nat.le_log2 (by omega)).mpr (by omega : 2 ^ 8 ≤ len - 1)
  have hself := Nat.log2_self_le (show len - 1 ≠ 0 by omega)
  have hpower : 256 < 2 ^ ((len - 1).log2 + 1) :=
    Nat.pow_lt_pow_right (a := 2) (by decide) (by omega : 8 < (len - 1).log2 + 1)
  rw [chunkAt, if_neg (by omega), Nat.pow_succ]
  omega

theorem calcPadding_lt {len : ℕ} (hlt : 256 < len) :
    calcPadding len < len + len / 4 + 1 := by
  have hchunk := chunkAt_le hlt
  rw [calcPadding_eq (by omega)]
  have hround := @roundUp_le_add (chunkAt (len - 1).log2) len
  omega

end Schedule

section Usize

/-- An operation of `usize`: what does not fit panics, or wraps where overflow is not
checked. -/
def usizeOf (overflowChecks : Bool) (exact : ℕ) (wrapped : UInt64) :
    Outcome Nip44Error UInt64 :=
  if overflowChecks = true ∧ 2 ^ 64 ≤ exact then .panic else .ok wrapped

/-- `calc_padding` in the arithmetic of a machine with words of 64 bits. -/
def calcPaddingUsize (overflowChecks : Bool) (len : UInt64) : Outcome Nip44Error UInt64 :=
  if len < 32 then .ok 32
  else do
    let exponent := (len - 1).toNat.log2 + 1
    let nextpower ← usizeOf overflowChecks (2 ^ exponent) (1 <<< UInt64.ofNat exponent)
    let chunk := if nextpower ≤ 256 then 32 else nextpower / 8
    if len ≤ 32 then .ok 32
    else do
      let count ← usizeOf overflowChecks (((len - 1) / chunk).toNat + 1)
        ((len - 1) / chunk + 1)
      usizeOf overflowChecks (chunk.toNat * count.toNat) (chunk * count)

theorem usizeOf_of_lt (overflowChecks : Bool) {exact : ℕ} {wrapped : UInt64}
    (hexact : exact < 2 ^ 64) :
    usizeOf overflowChecks exact wrapped = .ok wrapped :=
  if_neg fun hover => absurd hover.2 (Nat.not_le.mpr hexact)

theorem toNat_one_shiftLeft {exponent : ℕ} (hexponent : exponent < 64) :
    (1 <<< UInt64.ofNat exponent : UInt64).toNat = 2 ^ exponent := by
  have hpower : 2 ^ exponent < 2 ^ 64 := Nat.pow_lt_pow_right (a := 2) (by decide) hexponent
  rw [UInt64.toNat_shiftLeft, UInt64.toNat_ofNat_of_lt' (hexponent.trans (by decide)),
    Nat.mod_eq_of_lt hexponent, UInt64.toNat_one, Nat.one_shiftLeft,
    Nat.mod_eq_of_lt hpower]

theorem toNat_chunk {nextpower : UInt64} {exponent : ℕ}
    (hnext : nextpower.toNat = 2 ^ (exponent + 1)) :
    (if nextpower ≤ 256 then 32 else nextpower / 8 : UInt64).toNat = chunkAt exponent := by
  have hle : nextpower ≤ 256 ↔ 2 ^ (exponent + 1) ≤ 256 := by
    rw [UInt64.le_iff_toNat_le, hnext]
    rfl
  rw [chunkAt]
  split_ifs with hsmall hpower hpower
  · rfl
  · exact absurd (hle.mp hsmall) hpower
  · exact absurd (hle.mpr hpower) hsmall
  · rw [UInt64.toNat_div, hnext]
    rfl

/-- No length of a text is too large for the arithmetic of the machine. -/
theorem calcPaddingUsize_eq (overflowChecks : Bool) {len : UInt64}
    (hlen : len.toNat ≤ 2 ^ 63) :
    calcPaddingUsize overflowChecks len = .ok (UInt64.ofNat (calcPadding len.toNat)) := by
  rcases Nat.lt_trichotomy len.toNat 32 with hshort | hshort | hlong
  · rw [calcPadding_of_le hshort.le, calcPaddingUsize,
      if_pos (UInt64.lt_iff_toNat_lt.mpr hshort)]
    rfl
  · obtain rfl : len = 32 := UInt64.toNat_inj.mp hshort
    cases overflowChecks <;> rfl
  · have hpred : (len - 1).toNat = len.toNat - 1 :=
      UInt64.toNat_sub_of_le _ _ (UInt64.le_iff_toNat_le.mpr (by
        rw [UInt64.toNat_one]
        omega))
    have hexponent : (len.toNat - 1).log2 + 1 < 64 := by
      have hlog : (len.toNat - 1).log2 < 63 := (Nat.log2_lt (by omega)).mpr (by omega)
      omega
    have hpower : 2 ^ ((len.toNat - 1).log2 + 1) < 2 ^ 64 :=
      Nat.pow_lt_pow_right (a := 2) (by decide) hexponent
    have hpadded := (calcPadding_of_lt hlong).2.trans_lt hpower
    have hchunk := toNat_chunk (toNat_one_shiftLeft hexponent)
    generalize hvalue : (if (1 <<< UInt64.ofNat ((len.toNat - 1).log2 + 1) : UInt64) ≤ 256
      then 32 else (1 <<< UInt64.ofNat ((len.toNat - 1).log2 + 1)) / 8 : UInt64) = chunk
      at hchunk
    have hcount : ((len - 1) / chunk).toNat =
        (len.toNat - 1) / chunkAt (len.toNat - 1).log2 := by
      rw [UInt64.toNat_div, hpred, hchunk]
    have hcountLt : ((len - 1) / chunk).toNat + 1 < 2 ^ 64 := by
      rw [hcount]
      have hdiv := Nat.div_le_self (len.toNat - 1) (chunkAt (len.toNat - 1).log2)
      omega
    have hsucc : ((len - 1) / chunk + 1).toNat =
        (len.toNat - 1) / chunkAt (len.toNat - 1).log2 + 1 := by
      rw [UInt64.toNat_add, UInt64.toNat_one, Nat.mod_eq_of_lt hcountLt, hcount]
    have hproduct :
        chunk.toNat * ((len - 1) / chunk + 1).toNat = calcPadding len.toNat := by
      rw [hchunk, hsucc, calcPadding_eq hlong]
    have hnotLt : ¬ len < 32 := fun hlt =>
      absurd hlong (UInt64.lt_iff_toNat_lt.mp hlt).not_gt
    have hnotLe : ¬ len ≤ 32 := fun hle =>
      absurd hlong (UInt64.le_iff_toNat_le.mp hle).not_gt
    rw [calcPaddingUsize, if_neg hnotLt, hpred]
    dsimp only
    rw [usizeOf_of_lt overflowChecks hpower, Outcome.ok_bind, hvalue,
      if_neg hnotLe,
      usizeOf_of_lt overflowChecks hcountLt, Outcome.ok_bind,
      usizeOf_of_lt overflowChecks (hproduct.trans_lt hpadded)]
    congr 1
    apply UInt64.toNat_inj.mp
    rw [UInt64.toNat_mul, hproduct, UInt64.toNat_ofNat']

end Usize

/-- The padding schedule, in exact arithmetic and in that of the machine. -/
theorem calcPadding_schedule :
    (∀ len, 1 ≤ len → len ≤ calcPadding len ∧ 32 ≤ calcPadding len ∧
      calcPadding (calcPadding len) = calcPadding len) ∧
    Monotone calcPadding ∧
    (∀ len, 256 < len → calcPadding len < len + len / 4 + 1) ∧
    ∀ overflowChecks (len : UInt64), len.toNat ≤ 2 ^ 63 →
      calcPaddingUsize overflowChecks len = .ok (UInt64.ofNat (calcPadding len.toNat)) := by
  refine ⟨fun len _ => ?_, calcPadding_mono, fun len hlt => calcPadding_lt hlt,
    fun overflowChecks len hlen => calcPaddingUsize_eq overflowChecks hlen⟩
  exact ⟨le_calcPadding len, thirtyTwo_le_calcPadding len, calcPadding_calcPadding len⟩

theorem calcPadding_schedule_threeHundred :
    calcPadding 300 < 300 + 300 / 4 + 1 ∧
      calcPaddingUsize true 300 = .ok (UInt64.ofNat (calcPadding 300)) :=
  ⟨calcPadding_schedule.2.2.1 300 (by decide),
    calcPadding_schedule.2.2.2 true 300 (by decide)⟩

end Nip44

end Types

end Gnostr
