import GenesisForge.Text.Hex

/-!
# Unsigned numerals

The numerals of a 64-bit word: an optional plus sign and at least one digit
of the base, with any number of leading zeros, of a value below 2^64.
-/

namespace GenesisForge.Numeral

/-- The value of a digit of `base`, letters standing for ten and above. -/
def digitValue? (base : Nat) (c : Char) : Option Nat :=
  let value? :=
    if '0' ≤ c ∧ c ≤ '9' then some (c.toNat - 48)
    else if 'a' ≤ c ∧ c ≤ 'z' then some (c.toNat - 87)
    else if 'A' ≤ c ∧ c ≤ 'Z' then some (c.toNat - 55)
    else none
  value?.filter (· < base)

/-- The value of `digits` written after the digits of `n`. -/
def foldDigits? (base : Nat) : Nat → List Char → Option Nat
  | n, [] => some n
  | n, c :: rest =>
    match digitValue? base c with
    | some d => foldDigits? base (base * n + d) rest
    | none => none

/-- The value of one or more digits, of any size. -/
def natural? (base : Nat) : List Char → Option Nat
  | [] => none
  | digits => foldDigits? base 0 digits

/-- What follows an optional plus sign. -/
def unsigned : List Char → List Char
  | '+' :: rest => rest
  | chars => chars

/-- The word that a numeral of `base` denotes. -/
def word? (base : Nat) (chars : List Char) : Option UInt64 :=
  ((natural? base (unsigned chars)).filter (· < 2 ^ 64)).map UInt64.ofNat

/-- The word that a decimal numeral denotes. -/
def decimal? (text : String) : Option UInt64 :=
  word? 10 text.toList

end GenesisForge.Numeral
