import GenesisForge.Decimal.Double
import GenesisForge.Text.Numeral
import GenesisForge.Yaml.Node

/-!
# What a scalar stands for

A plain scalar may be a null, a truth value, an integer in one of four bases or
a floating-point number, and is a text otherwise. Digits behind a needless zero
are a text. An integer has at most 128 bits; longer digits are read as a
floating-point number. The tags of the core types force a reading on a scalar
of any style.
-/

namespace GenesisForge.Yaml

/-- What a scalar stands for. -/
inductive Atom where
  | null
  | boolean (b : Bool)
  /-- An integer, not always one that fits into a word. -/
  | integer (n : Int)
  | floating (x : Float)
  | text (s : String)

def isNull (text : String) : Bool :=
  text == "null" || text == "Null" || text == "NULL" || text == "~"

/-- The truth value of a spelling. -/
def truth? (text : String) : Option Bool :=
  if text == "true" || text == "True" || text == "TRUE" then some true
  else if text == "false" || text == "False" || text == "FALSE" then some false
  else none

/-- The characters behind an optional sign. -/
def withoutSign : List Char → List Char
  | '+' :: rest | '-' :: rest => rest
  | chars => chars

/-- Whether the characters are digits behind a needless zero and an optional sign. -/
def hasNeedlessZero (chars : List Char) : Bool :=
  match withoutSign chars with
  | '0' :: c :: rest => (c :: rest).all Char.isDigit
  | _ => false

/-- The base that a mark at the front announces, and what follows the mark. -/
def baseMark? : List Char → Option (Nat × List Char)
  | '0' :: 'x' :: rest => some (16, rest)
  | '0' :: 'o' :: rest => some (8, rest)
  | '0' :: 'b' :: rest => some (2, rest)
  | _ => none

/-- The natural number below `bound` that the characters denote, without a sign. -/
def naturalBelow? (bound : Nat) (chars : List Char) : Option Nat :=
  let read (base : Nat) (digits : List Char) := (Numeral.natural? base digits).filter (· < bound)
  (baseMark? chars).bind (fun (base, digits) => read base digits) <|> read 10 chars

/-- The unsigned integer below `bound` that a scalar denotes, behind an
optional plus sign. -/
def unsigned? (bound : Nat) (chars : List Char) : Option Nat :=
  if hasNeedlessZero chars then none
  else naturalBelow? bound (if chars.head? == some '+' then chars.drop 1 else chars)

/-- The negative integer of a magnitude up to `bound` that a scalar denotes. -/
def negative? (bound : Nat) (chars : List Char) : Option Int :=
  match chars with
  | '-' :: digits =>
    if hasNeedlessZero chars then none
    else (naturalBelow? (bound + 1) digits).map fun n => Int.negOfNat n
  | _ => none

/-- The integer that a scalar denotes. -/
def integer? (chars : List Char) : Option Int :=
  (unsigned? (2 ^ 128) chars).map Int.ofNat <|> negative? (2 ^ 127) chars

/-- The finite number, infinity or undefined number that a scalar denotes. -/
def float? (text : String) : Option Float :=
  let chars := text.toList
  let unsigned := if chars.head? == some '+' then chars.drop 1 else chars
  if chars.head? == some '+' && unsigned != withoutSign unsigned then none
  else if [".inf", ".Inf", ".INF"].contains (String.ofList unsigned) then some (1.0 / 0.0)
  else if ["-.inf", "-.Inf", "-.INF"].contains text then some (-1.0 / 0.0)
  else if [".nan", ".NaN", ".NAN"].contains text then some (0.0 / 0.0)
  else ((Decimal.Numeral.ofChars? unsigned).map (·.toFloat)).filter (·.isFinite)

/-- What an untagged plain scalar stands for. -/
def plainAtom (text : String) : Atom :=
  let chars := text.toList
  if text.isEmpty || isNull text then .null
  else
    match truth? text with
    | some b => .boolean b
    | none =>
      match integer? chars with
      | some n => .integer n
      | none =>
        match if hasNeedlessZero chars then none else float? text with
        | some x => .floating x
        | none => .text text

def coreTag (name : String) : ByteArray :=
  ("tag:yaml.org,2002:" ++ name).toUTF8

/-- The name of a tag that starts with an exclamation mark: what follows the
mark, or the mark if it stands alone. -/
def localTag? (tag : Option ByteArray) : Option String :=
  match tag with
  | some bytes =>
    if bytes.data[0]? == some 0x21 then
      String.fromUTF8? (if bytes.size = 1 then bytes else bytes.extract 1 bytes.size)
    else none
  | none => none

/-- What a scalar stands for, unless its tag demands a reading that its text
does not have. `tagSeen` tells that the tag is already accounted for. -/
def Scalar.atom? (s : Scalar) (tagSeen : Bool) : Option Atom :=
  match if tagSeen then none else s.properties.tag with
  | none => some (if s.style = .plain then plainAtom s.text else .text s.text)
  | some tag =>
    if tag == coreTag "bool" then (truth? s.text).map .boolean
    else if tag == coreTag "int" then (integer? s.text.toList).map .integer
    else if tag == coreTag "float" then (float? s.text).map .floating
    else if tag == coreTag "null" then if isNull s.text then some .null else none
    else if tag.data[0]? == some 0x21 && s.style = .plain then some (plainAtom s.text)
    else some (.text s.text)

end GenesisForge.Yaml
