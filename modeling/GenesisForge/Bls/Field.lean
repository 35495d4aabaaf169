/-!
# The field under the signature curve

Residues modulo the prime of the curve BLS12-381. The prime is three modulo
four, so a power is the square root of every residue that has one.
-/

namespace GenesisForge.Bls

/-- The prime of the field. -/
def fieldOrder : Nat :=
  0x1a0111ea397fe69a4b1ba7b6434bacd764774b84f38512bf6730d2a0f6b0f6241eabfffeb153ffffb9feffffffffaaab

attribute [local instance (high)] Zero.ofOfNat0

instance : NeZero fieldOrder := ⟨by decide⟩

abbrev Fp := Fin fieldOrder

namespace Fp

/-- `acc` raised to the number that `bits` continue, the highest bit first,
where `acc` is a power of `a`. -/
def powerOnto (a : Fp) : Fp → List Bool → Fp
  | acc, [] => acc
  | acc, bit :: rest => powerOnto a (if bit then acc * acc * a else acc * acc) rest

/-- The bits of a number, the highest first. -/
def bitsOf (n : Nat) : List Bool :=
  (Nat.toDigits 2 n).map (· == '1')

/-- The power of a residue. -/
def power (a : Fp) (n : Nat) : Fp :=
  powerOnto a 1 (bitsOf n)

/-- The inverse of a residue, zero for zero. -/
def inverse (a : Fp) : Fp :=
  power a (fieldOrder - 2)

def squareRoot? (a : Fp) : Option Fp :=
  let root := power a ((fieldOrder + 1) / 4)
  if root * root = a then some root else none

/-- Whether a residue lies in the upper half of the field. -/
def isUpper (a : Fp) : Bool :=
  (fieldOrder - 1) / 2 < a.val

end Fp

end GenesisForge.Bls
