import GenesisForge.Text.Hex
import GenesisForge.Text.Numeral

/-!
# Typed reading of structured documents

What a typed reader asks of a document, whatever its format: texts, unsigned
numbers, items and members by name. A format may refuse a text whose source
spelling differs from it, and the readers of byte strings and quoted integers
ask for that.
-/

namespace GenesisForge

/-- A format of structured documents. Every look that does not suit the
document answers `none`. -/
class Structured (D : Type) where
  /-- The text of the document. -/
  text? : D → Option String
  /-- The text of a document that is spelled in the source just as it reads. -/
  verbatim? : D → Option String
  /-- The number of a document, below 2^64. -/
  unsigned? : D → Option Nat
  /-- The document itself, or `some none` if it stands for no value. -/
  present? : D → Option (Option D)
  /-- The items of a sequence. -/
  items? : D → Option (List D)
  /-- The members of the given names, in their order, where a name that is
  given once has one and other names do not count. -/
  members? : List String → D → Option (List (Option D))

namespace Structured

/-- The values of some names among named values, if none of these names is
repeated. -/
def select? {D : Type} (names : List String) (members : List (String × D)) :
    Option (List (Option D)) :=
  names.mapM fun name =>
    match members.filter (·.1 == name) with
    | [] => some none
    | [(_, value)] => some (some value)
    | _ => none

variable {D : Type} [Structured D]

/-- The members of the given names, if all of them are there. -/
def fields? (names : List String) (d : D) : Option (List D) := do
  let members ← members? names d
  members.mapM id

/-- A 64-bit integer written as a string of decimal digits. -/
def quotedWord? (d : D) : Option UInt64 :=
  (verbatim? d).bind Numeral.decimal?

/-- A 64-bit integer written as a number. -/
def word? (d : D) : Option UInt64 :=
  (unsigned? d).map UInt64.ofNat

/-- An integer below 256 written as a number. -/
def octet? (d : D) : Option UInt8 :=
  ((unsigned? d).filter (· < 2 ^ 8)).map UInt8.ofNat

/-- A byte string of length `n`, written in hexadecimal digits. -/
def bytes? (n : Nat) (d : D) : Option (FixedBytes n) :=
  (verbatim? d).bind (Hex.decodeFixed? n)

/-- A root, written in hexadecimal digits. -/
def root? (d : D) : Option Root :=
  (text? d).bind (Hex.decodeFixed? 32)

/-- Exactly `n` items, each of them read by `item?`. -/
def array? {α : Type} (n : Nat) (item? : D → Option α) (d : D) : Option (List α) := do
  let items ← (← items? d).mapM item?
  if items.length = n then some items else none

end Structured

end GenesisForge
