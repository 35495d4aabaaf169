import GenesisForge.Ssz.Encode
import GenesisForge.Text.Hex

/-!
# Values as shown to a reader

The text of a collection names its type, its sizes and its contents, on one
line or, spread out, with one item a line indented by four blanks.
-/

namespace GenesisForge.Ssz

/-- The name of an element type. -/
def Shape.label : Shape → String
  | .uint 32 => "U256"
  | .uint width => "u" ++ toString (8 * width)
  | .boolean => "bool"
  | .root => "Hash256"
  | .bytes length => "BytesFixed<" ++ toString length ++ ">"
  | .byteList => "ByteList"
  | .list element => "List<" ++ element.label ++ ">"
  | .vector element => "Vector<" ++ element.label ++ ">"
  | .array element length => "FixedArray<" ++ element.label ++ ", " ++ toString length ++ ">"
  | .bitvector => "Bitvector"
  | .bitlist => "Bitlist"
  | .container schema => schema.name

/-- Items between brackets, on one line or spread out at an indentation. -/
def bracketed (spread : Bool) (indent : Nat) (items : List String) : String :=
  if items.isEmpty then "[]"
  else if spread then
    let pad := String.ofList (List.replicate (indent + 4) ' ')
    let close := String.ofList (List.replicate indent ' ')
    "[\n" ++ String.join (items.map fun item => pad ++ item ++ ",\n") ++ close ++ "]"
  else "[" ++ String.intercalate ", " items ++ "]"

/-- A wrapped value, on one line or spread out at an indentation. -/
def wrapped (spread : Bool) (indent : Nat) (name : String) (content : Nat → String) : String :=
  if spread then
    let pad := String.ofList (List.replicate (indent + 4) ' ')
    let close := String.ofList (List.replicate indent ' ')
    name ++ "(\n" ++ pad ++ content (indent + 4) ++ ",\n" ++ close ++ ")"
  else name ++ "(" ++ content indent ++ ")"

/-- Bytes as an array of numbers. -/
def byteNumbers (data : ByteArray) : List String :=
  data.toList.map fun byte => toString byte.toNat

mutual

/-- The text of a value, on one line or spread out at an indentation. -/
def Value.inspect (spread : Bool) (indent : Nat) : Value → String
  | .uint _ n => toString n
  | .boolean b => if b then "true" else "false"
  | .root r => Hex.encode r.bytes
  | .bytes data =>
    wrapped spread indent "BytesFixed" fun indent =>
      "FixedArray<u8, " ++ toString data.size ++ ">" ++ bracketed spread indent (byteNumbers data)
  | .byteList limit data =>
    wrapped spread indent "ByteList" fun indent =>
      "List<u8, " ++ toString limit ++ ">(len=" ++ toString data.size ++ ")" ++
        bracketed spread indent (byteNumbers data)
  | .list element limit items =>
    "List<" ++ element.label ++ ", " ++ toString limit ++ ">(len=" ++ toString items.length ++
      ")" ++ bracketed spread indent (inspectAll spread (indent + 4) items)
  | .vector element items =>
    "Vector<" ++ element.label ++ ", " ++ toString items.length ++ ">[..]"
  | .array element items =>
    "FixedArray<" ++ element.label ++ ", " ++ toString items.length ++ ">" ++
      bracketed spread indent (inspectAll spread (indent + 4) items)
  | .bitvector bits =>
    "Bitvector<" ++ toString bits.length ++ ">[" ++ String.ofList (Bits.digits 0 bits) ++ "]"
  | .bitlist limit bits =>
    "Bitlist<len=" ++ toString bits.length ++ ", cap=" ++ toString limit ++ ">[" ++
      String.ofList (Bits.digits 0 bits) ++ "]"
  | .container schema values =>
    schema.name ++ bracketed spread indent (inspectAll spread (indent + 4) values)

def inspectAll (spread : Bool) (indent : Nat) : List Value → List String
  | [] => []
  | v :: rest => v.inspect spread indent :: inspectAll spread indent rest

end

end GenesisForge.Ssz
