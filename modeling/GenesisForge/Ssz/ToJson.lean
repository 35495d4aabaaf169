import GenesisForge.Ssz.Encode
import GenesisForge.Json.Document
import GenesisForge.Text.Hex

/-!
# Values as JSON

Byte strings, roots and bits are hexadecimal strings of their encodings.
Integers are bare numbers, but strings of decimal digits inside a quoted field,
be they the field itself or the items of a collection in it.
-/

namespace GenesisForge.Ssz

/-- The hexadecimal string of a byte string. -/
def hexJson (bytes : ByteArray) : Json :=
  .string (Hex.encode bytes)

/-- An integer as a number, or as a string if it is to be quoted. -/
def integerJson (quoted : Bool) (n : Nat) : Json :=
  if quoted then .string (toString n) else .number (toString n)

mutual

def Value.toJson (quoted : Bool) : Value → Json
  | .uint _ n => integerJson quoted n
  | .boolean b => .boolean b
  | .root r => hexJson r.bytes
  | .bytes data => hexJson data
  | .byteList _ data => hexJson data
  | .list _ _ items | .vector _ items | .array _ items => .array (itemsToJson quoted [] items)
  | .bitvector bits => hexJson (Bits.pack bits)
  | .bitlist _ bits => hexJson (Bits.packWithEnd bits)
  | .container schema values => .object (membersToJson schema.fields values)

/-- The documents of the items, behind those of `before` in reverse. -/
def itemsToJson (quoted : Bool) (before : List Json) : List Value → List Json
  | [] => before.reverse
  | v :: rest => itemsToJson quoted (v.toJson quoted :: before) rest

def membersToJson : List Field → List Value → List (String × Json)
  | .mk name quoted _ :: fields, v :: rest =>
    (name, v.toJson quoted) :: membersToJson fields rest
  | _, _ => []

end

/-- The JSON text of a value that stands for itself. -/
def Value.jsonText (v : Value) : String :=
  (v.toJson false).render

end GenesisForge.Ssz
