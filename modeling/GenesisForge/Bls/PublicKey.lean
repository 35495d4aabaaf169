import GenesisForge.Bls.Curve
import GenesisForge.Bls.KeyFault
import GenesisForge.Chain.Records

/-!
# Compressed public keys

A public key is a point of the subgroup, written as its first coordinate in 48
bytes. The highest three bits tell that it is compressed, that it is the point
at infinity, and that the second coordinate is the upper one of the two.
-/

namespace GenesisForge.Bls

/-- The number in the bytes without their highest three bits. -/
def coordinate (key : PublicKey) : Nat :=
  Bytes.bigEndianValue key.bytes % 2 ^ 381

/-- The highest three bits: compressed, infinity, upper. -/
def flags (key : PublicKey) : Bool × Bool × Bool :=
  let n := Bytes.bigEndianValue key.bytes
  (n.testBit 383, n.testBit 382, n.testBit 381)

def point (key : PublicKey) : Except KeyFault Point :=
  match flags key with
  | (false, _, _) => .error .badEncoding
  | (true, true, upper) =>
    if !upper && coordinate key == 0 then .ok .infinity else .error .badEncoding
  | (true, false, upper) =>
    let n := coordinate key
    if h : n < fieldOrder then
      let x : Fp := ⟨n, h⟩
      match Fp.squareRoot? (x * x * x + 4) with
      | none => .error .notOnCurve
      | some y => .ok ⟨x, if y.isUpper = upper then y else 0 - y, 1⟩
    else .error .badEncoding

/-- The point of a key that may sign: not infinity, and in the subgroup. -/
def validPoint (key : PublicKey) : Except KeyFault Point := do
  let p ← point key
  if p.isInfinity then throw .infinity
  if p.isInGroup then pure p else throw .notInGroup

/-- The compressed form of a point. -/
def compress (p : Point) : PublicKey :=
  if p.isInfinity then .bigEndian _ (2 ^ 383 + 2 ^ 382)
  else
    let (x, y) := p.affine
    .bigEndian _ (2 ^ 383 + (if y.isUpper then 2 ^ 381 else 0) + x.val)

end GenesisForge.Bls
