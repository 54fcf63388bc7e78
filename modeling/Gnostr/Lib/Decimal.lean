/-
Numbers as decimal texts: what formatting writes and what parsing reads.
-/
import Mathlib.Data.Int.Notation
import Mathlib.Tactic.Ring

namespace Gnostr

/-- The digits of a number, the highest first. -/
def decimal (number : ℕ) : List Char := Nat.toDigits 10 number

/-- An integer, a negative one behind a sign. -/
def decimalInt : ℤ → List Char
  | .ofNat number => decimal number
  | .negSucc number => '-' :: decimal (number + 1)

/-- The value of digits, of which there is at least one. -/
def digitsValue (digits : List Char) : Option ℕ :=
  if digits ≠ [] ∧ digits.all Char.isDigit = true then
    some (Nat.ofDigitChars 10 digits 0)
  else none

/-- `parse` to an unsigned integer below a bound; a plus sign may stand before
the digits. -/
def parseUnsigned (bound : ℕ) (text : List Char) : Option ℕ :=
  (digitsValue (if text.head? = some '+' then text.tail else text)).filter
    fun value => value < bound

/-- `parse` to a signed integer of at least `-bound` and below `bound`. -/
def parseSigned (bound : ℕ) (text : List Char) : Option ℤ :=
  if text.head? = some '-' then
    ((digitsValue text.tail).filter fun value => value ≤ bound).map
      fun value : ℕ => -(value : ℤ)
  else (parseUnsigned bound text).map Int.ofNat

theorem decimal_ne_nil (number : ℕ) : decimal number ≠ [] := Nat.toDigits_ne_nil

theorem isDigit_of_mem_decimal {number : ℕ} {c : Char} (hc : c ∈ decimal number) :
    c.isDigit = true :=
  Nat.isDigit_of_mem_toDigits (by decide) (by decide) hc

/-- No other character stands in a number. -/
theorem not_mem_decimal {c : Char} (hc : c.isDigit = false) (number : ℕ) :
    c ∉ decimal number := by
  intro hmem
  rw [isDigit_of_mem_decimal hmem] at hc
  cases hc

theorem not_mem_decimalInt {c : Char} (hdigit : c.isDigit = false) (hsign : c ≠ '-')
    (number : ℤ) : c ∉ decimalInt number := by
  cases number with
  | ofNat number => exact not_mem_decimal hdigit number
  | negSucc number =>
      exact List.not_mem_cons_of_ne_of_not_mem hsign (not_mem_decimal hdigit _)

theorem decimalInt_ne_nil (number : ℤ) : decimalInt number ≠ [] := by
  cases number with
  | ofNat number => exact decimal_ne_nil number
  | negSucc number => exact List.cons_ne_nil _ _

theorem head?_decimal_ne {c : Char} (hc : c.isDigit = false) (number : ℕ) :
    (decimal number).head? ≠ some c := by
  intro hhead
  exact not_mem_decimal hc number (List.mem_of_head? hhead)

@[simp] theorem digitsValue_decimal (number : ℕ) :
    digitsValue (decimal number) = some number := by
  have hall : (decimal number).all Char.isDigit = true :=
    List.all_eq_true.mpr fun c hc => isDigit_of_mem_decimal hc
  rw [digitsValue, if_pos ⟨decimal_ne_nil number, hall⟩, decimal,
    Nat.ofDigitChars_ten_toDigits]

theorem digitsValue_eq_none {digits : List Char} {c : Char} (hmem : c ∈ digits)
    (hc : c.isDigit = false) : digitsValue digits = none := by
  refine if_neg ?_
  rintro ⟨_, hall⟩
  rw [List.all_eq_true.mp hall c hmem] at hc
  cases hc

/-- What was formatted is parsed. -/
theorem parseUnsigned_decimal {bound number : ℕ} (hlt : number < bound) :
    parseUnsigned bound (decimal number) = some number := by
  rw [parseUnsigned, if_neg (head?_decimal_ne (by decide) number),
    digitsValue_decimal]
  exact Option.filter_some_pos (decide_eq_true hlt)

theorem lt_of_parseUnsigned {bound value : ℕ} {text : List Char}
    (hvalue : parseUnsigned bound text = some value) : value < bound :=
  of_decide_eq_true (Option.filter_eq_some_iff.mp hvalue).2

theorem parseSigned_decimalInt {bound : ℕ} {number : ℤ} (hlow : -(bound : ℤ) ≤ number)
    (hhigh : number < bound) : parseSigned bound (decimalInt number) = some number := by
  cases number with
  | ofNat number =>
      rw [decimalInt, parseSigned, if_neg (head?_decimal_ne (by decide) number),
        parseUnsigned_decimal (Int.ofNat_lt.mp hhigh)]
      rfl
  | negSucc number =>
      have hle : number + 1 ≤ bound := by
        rw [Int.negSucc_eq] at hlow
        omega
      have hkept : (some (number + 1)).filter (fun value => value ≤ bound) =
          some (number + 1) := Option.filter_some_pos (decide_eq_true hle)
      rw [decimalInt, parseSigned, List.head?_cons, if_pos rfl, List.tail_cons,
        digitsValue_decimal, hkept, Option.map_some, Int.negSucc_eq]
      rfl

/-- A wider type reads what a narrower one reads. -/
theorem parseUnsigned_mono {bound more value : ℕ} (hle : bound ≤ more)
    {text : List Char} (hvalue : parseUnsigned bound text = some value) :
    parseUnsigned more text = some value := by
  have hlt := lt_of_parseUnsigned hvalue
  refine Option.filter_eq_some_iff.mpr ⟨(Option.filter_eq_some_iff.mp hvalue).1, ?_⟩
  exact decide_eq_true (hlt.trans_le hle)

/-- A narrower type reads what a wider one reads, if it is in range. -/
theorem parseUnsigned_of_lt {bound more value : ℕ} (hlt : value < bound)
    {text : List Char} (hvalue : parseUnsigned more text = some value) :
    parseUnsigned bound text = some value :=
  Option.filter_eq_some_iff.mpr
    ⟨(Option.filter_eq_some_iff.mp hvalue).1, decide_eq_true hlt⟩

/-- An unsigned integer has no minus sign. -/
theorem parseUnsigned_of_minus {bound : ℕ} {text : List Char}
    (hminus : text.head? = some '-') : parseUnsigned bound text = none := by
  have hplus : text.head? ≠ some '+' := by
    rw [hminus]
    decide
  rw [parseUnsigned, if_neg hplus,
    digitsValue_eq_none (List.mem_of_head? hminus) (by decide)]
  rfl

theorem parseSigned_of_not_minus {bound : ℕ} {text : List Char}
    (hminus : text.head? ≠ some '-') :
    parseSigned bound text = (parseUnsigned bound text).map Int.ofNat :=
  if_neg hminus

end Gnostr
