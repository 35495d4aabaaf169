import GenesisForge.Instances

/-!
# Shortest decimal digits

A binary floating-point number stands for all reals that round to it. Its
shortest digits are the fewest digits of a decimal that lies among those reals,
and of the decimals of that many digits the one nearest to the number; of two
equally near ones it is the one whose last digit is even.

Decimals of a given number of digits form a grid around the number, so only
the number's two neighbours on it need to be tried.
-/

namespace GenesisForge.Decimal

/-- A positive number `digits * 10 ^ exponent`. -/
structure Scientific where
  digits : Nat
  exponent : Int
deriving DecidableEq, Repr

/-- The reals that round to a number, all over the denominator `den`. -/
structure Interval where
  low : Nat
  middle : Nat
  high : Nat
  den : Nat
  /-- Whether the ends round to the number too. -/
  isClosed : Bool

namespace Interval

/-- The interval of `m * 2 ^ q`. `narrow` tells that the numbers below it lie
half as close together as those above. -/
def ofBinary (m : Nat) (q : Int) (narrow : Bool) : Interval :=
  let unit := 2 ^ q.toNat
  { low := 4 * m * unit - (if narrow then unit else 2 * unit)
    middle := 4 * m * unit
    high := 4 * m * unit + 2 * unit
    den := 4 * 2 ^ (-q).toNat
    isClosed := m % 2 == 0 }

/-- The position of the first decimal digit: the greatest `e` with `10 ^ e` not
above the middle. -/
def magnitude (i : Interval) : Int :=
  if i.den ≤ i.middle then ((Nat.toDigits 10 (i.middle / i.den)).length : Int) - 1
  else
    let places := (List.range 400).find? fun k => i.den ≤ i.middle * 10 ^ k
    Int.negOfNat (places.getD 400)

/-- The interval with its grid of step `10 ^ k` as whole numbers: numerators
of low end, middle and high end, and the common step. -/
def onGrid (i : Interval) (k : Int) : Nat × Nat × Nat × Nat :=
  let scale := 10 ^ (-k).toNat
  (i.low * scale, i.middle * scale, i.high * scale, i.den * 10 ^ k.toNat)

/-- The point nearest to the middle on the grid of step `10 ^ k` that lies in
the interval. -/
def nearest? (i : Interval) (k : Int) : Option Nat :=
  let (low, middle, high, step) := i.onGrid k
  let below := middle / step
  let above := below + 1
  let isInside (n : Nat) : Bool :=
    if i.isClosed then low ≤ n * step && n * step ≤ high else low < n * step && n * step < high
  let remainder := middle % step
  let preferBelow := 2 * remainder < step || (2 * remainder == step && below % 2 == 0)
  let (best, other) := if preferBelow then (below, above) else (above, below)
  if isInside best then some best else if isInside other then some other else none

end Interval

/-- Moves the zeros at the end of the digits into the exponent. -/
def Scientific.trimmed : Nat → Scientific → Scientific
  | 0, s => s
  | bound + 1, s =>
    if s.digits % 10 == 0 && s.digits != 0 then trimmed bound ⟨s.digits / 10, s.exponent + 1⟩ else s

/-- The shortest digits of the middle of an interval; seventeen are always
enough. -/
def shortest (i : Interval) : Scientific :=
  let top := i.magnitude
  let found := (List.range 17).findSome? fun (n : Nat) =>
    (i.nearest? (top - n)).map fun digits => (⟨digits, top - n⟩ : Scientific)
  (found.getD ⟨i.middle / i.den, 0⟩).trimmed 20

end GenesisForge.Decimal
