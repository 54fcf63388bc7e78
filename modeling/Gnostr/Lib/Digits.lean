/-
Numbers in a base of at most sixteen, padded with zeros to a width.
-/
import Gnostr.Lib.Hex
import Mathlib.Tactic.Ring

namespace Gnostr

/-- The digits of a number, with zeros before them up to the width. -/
def paddedDigits (base width number : ℕ) : List Char :=
  (Nat.toDigits base number).leftpad width '0'

/-- The number that digits in lower case stand for. -/
def valueOfDigits (base : ℕ) (digits : List Char) : ℕ :=
  digits.foldl (fun value c => base * value + Hex.hexDigits.idxOf c) 0

variable {base : ℕ}

theorem digitChar_spec : ∀ digit < 16,
    Hex.hexDigits.idxOf (Nat.digitChar digit) = digit ∧
      Nat.digitChar digit ∈ Hex.hexDigits := by
  decide +kernel

theorem valueOfDigits_append_singleton (digits : List Char) (c : Char) :
    valueOfDigits base (digits ++ [c]) =
      base * valueOfDigits base digits + Hex.hexDigits.idxOf c := by
  rw [valueOfDigits, List.foldl_append]
  rfl

theorem valueOfDigits_toDigits (hbase : 1 < base) (hle : base ≤ 16) (number : ℕ) :
    valueOfDigits base (Nat.toDigits base number) = number := by
  induction number using Nat.strongRecOn with
  | ind number ih =>
      rw [Nat.toDigits_eq_if hbase]
      split
      · rename_i hlt
        rw [← List.nil_append [Nat.digitChar number], valueOfDigits_append_singleton,
          (digitChar_spec number (hlt.trans_le hle)).1]
        exact Nat.zero_add number
      · rename_i hge
        have hmod : number % base < 16 :=
          (Nat.mod_lt number (Nat.zero_lt_of_lt hbase)).trans_le hle
        have hdiv : number / base < number :=
          Nat.div_lt_self (Nat.lt_of_lt_of_le (Nat.zero_lt_of_lt hbase) (Nat.not_lt.mp hge))
            hbase
        rw [valueOfDigits_append_singleton, ih _ hdiv, (digitChar_spec _ hmod).1,
          Nat.div_add_mod]

/-- Zeros in front do not count. -/
theorem valueOfDigits_paddedDigits (hbase : 1 < base) (hle : base ≤ 16)
    (width number : ℕ) : valueOfDigits base (paddedDigits base width number) = number := by
  have hzeros : ∀ zeros : ℕ, (List.replicate zeros '0').foldl
      (fun value c => base * value + Hex.hexDigits.idxOf c) 0 = 0 := by
    intro zeros
    induction zeros with
    | zero => rfl
    | succ zeros ih =>
        rw [List.replicate_succ, List.foldl_cons, Nat.mul_zero, Nat.zero_add]
        exact ih
  rw [paddedDigits, List.leftpad, valueOfDigits, List.foldl_append, hzeros]
  exact valueOfDigits_toDigits hbase hle number

theorem paddedDigits_injective (hbase : 1 < base) (hle : base ≤ 16) (width : ℕ) :
    Function.Injective (paddedDigits base width) := by
  intro first second hsame
  rw [← valueOfDigits_paddedDigits hbase hle width first, hsame,
    valueOfDigits_paddedDigits hbase hle]

theorem mem_hexDigits_of_mem_toDigits (hbase : 1 < base) (hle : base ≤ 16) {number : ℕ}
    {c : Char} (hc : c ∈ Nat.toDigits base number) : c ∈ Hex.hexDigits := by
  induction number using Nat.strongRecOn with
  | ind number ih =>
      rw [Nat.toDigits_eq_if hbase] at hc
      split at hc
      · rename_i hlt
        rw [List.mem_singleton.mp hc]
        exact (digitChar_spec number (hlt.trans_le hle)).2
      · rename_i hge
        have hdiv : number / base < number :=
          Nat.div_lt_self (Nat.lt_of_lt_of_le (Nat.zero_lt_of_lt hbase) (Nat.not_lt.mp hge))
            hbase
        rcases List.mem_append.mp hc with hhigh | hlow
        · exact ih _ hdiv hhigh
        · rw [List.mem_singleton.mp hlow]
          exact (digitChar_spec _
            ((Nat.mod_lt number (Nat.zero_lt_of_lt hbase)).trans_le hle)).2

/-- Nothing but digits stands in a number. -/
theorem not_mem_paddedDigits (hbase : 1 < base) (hle : base ≤ 16) {c : Char}
    (hc : c ∉ Hex.hexDigits) (width number : ℕ) : c ∉ paddedDigits base width number := by
  intro hmem
  rcases List.mem_append.mp hmem with hzero | hdigit
  · rw [List.eq_of_mem_replicate hzero] at hc
    exact hc (by decide)
  · exact hc (mem_hexDigits_of_mem_toDigits hbase hle hdigit)

end Gnostr
