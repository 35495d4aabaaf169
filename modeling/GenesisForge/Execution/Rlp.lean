import GenesisForge.Bytes

/-!
# Recursive length prefixes

The encoding of byte strings and lists on the execution chain. A single byte
below 0x80 stands for itself; everything else is preceded by its length, whose
first byte also tells strings from lists. Integers are the strings of their
big-endian bytes without leading zeros.
-/

namespace GenesisForge.Rlp

/-- The big-endian bytes of a number without leading zeros, given a bound of
how many there are. -/
def minimalBytes : Nat → Nat → ByteArray → ByteArray
  | 0, _, out => ByteArray.mk out.data.reverse
  | bound + 1, n, out =>
    if n = 0 then ByteArray.mk out.data.reverse
    else minimalBytes bound (n / 256) (out.push (n % 256).toUInt8)

/-- The big-endian bytes of a number below 2^256 without leading zeros. -/
def numberBytes (n : Nat) : ByteArray :=
  minimalBytes 32 n ByteArray.empty

/-- The length in front of a payload; `base` tells strings from lists. -/
def header (base : UInt8) (length : Nat) : ByteArray :=
  if length < 56 then ByteArray.mk #[base + length.toUInt8]
  else
    let digits := numberBytes length
    ByteArray.mk #[base + 55 + digits.size.toUInt8] ++ digits

def string (bytes : ByteArray) : ByteArray :=
  if bytes.size = 1 ∧ bytes.data.all (· < 0x80) then bytes else header 0x80 bytes.size ++ bytes

def number (n : Nat) : ByteArray :=
  string (numberBytes n)

/-- The encoding of a list of encoded items. -/
def list (items : List ByteArray) : ByteArray :=
  let payload := Bytes.concat items
  header 0xC0 payload.size ++ payload

end GenesisForge.Rlp
