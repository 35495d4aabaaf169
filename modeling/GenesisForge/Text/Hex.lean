import GenesisForge.Bytes

/-!
# Hexadecimal text

Byte strings are written with two lower-case digits a byte and a leading
`0x`. Reading takes digits of either case, and the leading `0x` may lack.
-/

namespace GenesisForge.Hex

/-- The lower-case digit of a number below sixteen. -/
def digit (n : Nat) : Char :=
  if n < 10 then Char.ofNat (48 + n) else Char.ofNat (87 + n)

/-- The value of a digit of either case. -/
def digitValue? (c : Char) : Option Nat :=
  if '0' ≤ c ∧ c ≤ '9' then some (c.toNat - 48)
  else if 'a' ≤ c ∧ c ≤ 'f' then some (c.toNat - 87)
  else if 'A' ≤ c ∧ c ≤ 'F' then some (c.toNat - 55)
  else none

def appendDigits (out : String) (bytes : ByteArray) : String :=
  bytes.foldl (fun s byte => (s.push (digit (byte.toNat / 16))).push (digit (byte.toNat % 16))) out

/-- The digits of a byte string, without the leading `0x`. -/
def digits (bytes : ByteArray) : String :=
  appendDigits "" bytes

/-- The written form of a byte string. -/
def encode (bytes : ByteArray) : String :=
  appendDigits "0x" bytes

/-- Appends to `out` the bytes that pairs of digits denote. -/
def decodeOnto : ByteArray → List Char → Option ByteArray
  | out, [] => some out
  | _, [_] => none
  | out, high :: low :: rest =>
    match digitValue? high, digitValue? low with
    | some h, some l => decodeOnto (out.push (16 * h + l).toUInt8) rest
    | _, _ => none

/-- The bytes that pairs of digits denote. -/
def decodeDigits? (chars : List Char) : Option ByteArray :=
  decodeOnto ByteArray.empty chars

/-- What follows the leading `0x`, or all of it where that lacks. -/
def unmarked : List Char → List Char
  | '0' :: 'x' :: rest => rest
  | chars => chars

/-- The bytes that a text with or without the leading `0x` denotes. -/
def decode? (text : String) : Option ByteArray :=
  decodeDigits? (unmarked text.toList)

/-- Exactly `n` bytes denoted by a text with or without the leading `0x`. -/
def decodeFixed? (n : Nat) (text : String) : Option (FixedBytes n) :=
  (decode? text).bind (FixedBytes.ofBytes? n)

end GenesisForge.Hex
