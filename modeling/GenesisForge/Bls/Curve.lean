import GenesisForge.Bls.Field

/-!
# The signature curve

The curve of the equation y² = x³ + 4. A point is kept as `(x, y, z)` standing
for `(x / z², y / z³)`, with `z = 0` for the point at infinity, so that points
are added without inversions. Public keys lie in the subgroup of prime order.
-/

namespace GenesisForge.Bls

/-- A point by its projective coordinates. -/
structure Point where
  x : Fp
  y : Fp
  z : Fp

namespace Point

def infinity : Point := ⟨1, 1, 0⟩

def isInfinity (p : Point) : Bool :=
  p.z == 0

/-- The point with itself added. -/
def double (p : Point) : Point :=
  let a := p.x * p.x
  let b := p.y * p.y
  let c := b * b
  let d := 2 * ((p.x + b) * (p.x + b) - a - c)
  let e := 3 * a
  let x := e * e - 2 * d
  ⟨x, e * (d - x) - 8 * c, 2 * p.y * p.z⟩

/-- The sum of two points. -/
def add (p q : Point) : Point :=
  if p.isInfinity then q
  else if q.isInfinity then p
  else
    let zz1 := p.z * p.z
    let zz2 := q.z * q.z
    let u1 := p.x * zz2
    let u2 := q.x * zz1
    let s1 := p.y * q.z * zz2
    let s2 := q.y * p.z * zz1
    let h := u2 - u1
    let r := s2 - s1
    if h == 0 then if r == 0 then p.double else infinity
    else
      let hh := h * h
      let hhh := h * hh
      let v := u1 * hh
      let x := r * r - hhh - 2 * v
      ⟨x, r * (v - x) - s1 * hhh, p.z * q.z * h⟩

/-- `acc` doubled and, where a bit is set, `p` added, for each of the bits. -/
def multiplyOnto (p : Point) : Point → List Bool → Point
  | acc, [] => acc
  | acc, bit :: rest => multiplyOnto p (if bit then acc.double.add p else acc.double) rest

/-- The point added to itself `n` times in all. -/
def multiply (p : Point) (n : Nat) : Point :=
  multiplyOnto p infinity (Fp.bitsOf n)

/-- The order of the subgroup. -/
def groupOrder : Nat :=
  0x73eda753299d7d483339d80809a1d80553bda402fffe5bfeffffffff00000001

/-- Whether the point lies in the subgroup. -/
def isInGroup (p : Point) : Bool :=
  (p.multiply groupOrder).isInfinity

/-- The coordinates of a point that is not at infinity. -/
def affine (p : Point) : Fp × Fp :=
  let i := p.z.inverse
  let ii := i * i
  (p.x * ii, p.y * ii * i)

def sum (points : List Point) : Point :=
  points.foldl add infinity

end Point

end GenesisForge.Bls
