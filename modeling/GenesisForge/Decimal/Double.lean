import GenesisForge.Decimal.Shortest

/-!
# Text of floating-point numbers

Numbers are read as the nearest double, and written with their shortest
digits: positionally with at least one digit on either side of the point while
that takes at most sixteen places before it and four zeros behind it, and with
an exponent otherwise.
-/

namespace GenesisForge.Decimal

/-- The parts of a decimal numeral. -/
structure Numeral where
  isNegative : Bool
  /-- The digits before the point. -/
  whole : List Char
  /-- The digits behind the point. -/
  fraction : List Char
  exponent : Int

/-- The number that decimal digits denote. -/
def digitsValue (digits : List Char) : Nat :=
  digits.foldl (fun n d => 10 * n + (d.toNat - 48)) 0

/-- The sign at the front, and what follows it. -/
def takeSign : List Char → Bool × List Char
  | '-' :: rest => (true, rest)
  | '+' :: rest => (false, rest)
  | chars => (false, chars)

/-- The exponent that ends a numeral, zero if there is none. -/
def exponent? : List Char → Option Int
  | [] => some 0
  | mark :: rest =>
    if mark == 'e' || mark == 'E' then
      let (isNegative, digits) := takeSign rest
      if digits.isEmpty || !digits.all Char.isDigit then none
      else some (if isNegative then -(digitsValue digits : Int) else digitsValue digits)
    else none

/-- A numeral: an optional sign, digits with a point before, between or behind
them, and an optional exponent. -/
def Numeral.ofChars? (chars : List Char) : Option Numeral := do
  let (isNegative, chars) := takeSign chars
  let (whole, rest) := chars.span Char.isDigit
  let (fraction, rest) :=
    match rest with
    | '.' :: rest => rest.span Char.isDigit
    | _ => ([], rest)
  if whole.isEmpty && fraction.isEmpty then none
  else pure ⟨isNegative, whole, fraction, ← exponent? rest⟩

/-- The nearest double of a numeral. -/
def Numeral.toFloat (n : Numeral) : Float :=
  let digits := digitsValue (n.whole ++ n.fraction)
  let exponent := n.exponent - n.fraction.length
  let top := exponent + (n.whole.length + n.fraction.length)
  let size :=
    if digits = 0 ∨ top < -400 then 0.0
    else if 400 < exponent then 1.0 / 0.0
    else if exponent < 0 then Float.ofScientific digits true exponent.natAbs
    else Float.ofScientific digits false exponent.natAbs
  if n.isNegative then -size else size

/-- The interval of reals that round to a positive double. -/
def intervalOf (x : Float) : Interval :=
  let bits := x.toBits.toNat
  let stored : Nat := bits / 2 ^ 52 % 2048
  let fraction := bits % 2 ^ 52
  if stored = 0 then .ofBinary fraction (-1074) false
  else .ofBinary (2 ^ 52 + fraction) (Int.subNatNat stored 1075) (fraction == 0 && 1 < stored)

/-- The text of a positive number with these digits. -/
def layOut (s : Scientific) : String :=
  let digits := toString s.digits
  let length := digits.length
  let point : Int := length + s.exponent
  if 0 ≤ s.exponent ∧ point ≤ 16 then
    digits ++ String.ofList (List.replicate s.exponent.toNat '0') ++ ".0"
  else if 0 < point ∧ point ≤ 16 then
    String.ofList (digits.toList.take point.toNat ++ '.' :: digits.toList.drop point.toNat)
  else if -5 < point ∧ point ≤ 0 then
    "0." ++ String.ofList (List.replicate (-point).toNat '0') ++ digits
  else if length = 1 then digits ++ "e" ++ toString (point - 1)
  else
    String.ofList (digits.toList.take 1 ++ '.' :: digits.toList.drop 1) ++ "e" ++
      toString (point - 1)

/-- The text of a double that is a number and finite. -/
def format (x : Float) : String :=
  let sign := if x.toBits.toNat / 2 ^ 63 = 1 then "-" else ""
  if x == 0.0 then sign ++ "0.0" else sign ++ layOut (shortest (intervalOf x.abs))

end GenesisForge.Decimal
