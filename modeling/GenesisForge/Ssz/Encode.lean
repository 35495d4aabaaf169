import GenesisForge.Ssz.Value

/-!
# Binary encoding

Values of fixed shapes are written in place. A value of a variable shape is
represented in the fixed part by an offset, the position of its payload
counted from the start of the container, and the payloads follow the fixed
part in order. Offsets are little-endian words of four bytes; larger positions
lose their upper digits.

The two kinds of sizing differ only in how long they take the fixed part to
be: from the static lengths of the fields, or from the lengths that the field
values announce. `Value.byteLength` is the announced length. It agrees with
the bytes written except for a bit vector without bits, which announces one
byte and writes none.
-/

namespace GenesisForge.Ssz

/-- One part of a container: whether it is stored in place, and its bytes. -/
structure Part where
  isFixed : Bool
  bytes : ByteArray

/-- Appends the parts to a fixed part `front` and to the payloads `back`, where
`fixedLength` is the length that the fixed part is going to have. -/
def layOutOnto (fixedLength : Nat) : ByteArray → ByteArray → List Part → ByteArray
  | front, back, [] => front ++ back
  | front, back, ⟨true, bytes⟩ :: rest => layOutOnto fixedLength (front ++ bytes) back rest
  | front, back, ⟨false, bytes⟩ :: rest =>
    layOutOnto fixedLength
      (Bytes.appendLittleEndian offsetWidth (fixedLength + back.size) front) (back ++ bytes) rest

/-- The parts with their offsets, given the length of the fixed part. -/
def layOut (fixedLength : Nat) (parts : List Part) : ByteArray :=
  layOutOnto fixedLength ByteArray.empty ByteArray.empty parts

mutual

/-- The number of bytes that the encoding of a value announces. -/
def Value.byteLength : Value → Nat
  | .uint width _ => width
  | .boolean _ => 1
  | .root _ => 32
  | .bytes data => data.size
  | .byteList _ data => data.size
  | .list element _ items | .vector element items | .array element items =>
    lengthOfItems element.isFixed 0 items
  | .bitvector bits => max 1 ((bits.length + 7) / 8)
  | .bitlist _ bits => bits.length / 8 + 1
  | .container schema values =>
    match schema.sizing with
    | .byValue _ => lengthByValue 0 schema.fields values
    | .byShape =>
      if schema.isFixed then schema.staticLength else lengthByShape 0 schema.fields values

/-- The announced length of a sequence, on top of `total`. -/
def lengthOfItems (fixed : Bool) (total : Nat) : List Value → Nat
  | [] => total
  | v :: rest =>
    lengthOfItems fixed (total + ((if fixed then 0 else offsetWidth) + v.byteLength)) rest

/-- The announced length of a container sized by its values, on top of `total`. -/
def lengthByValue (total : Nat) : List Field → List Value → Nat
  | .mk _ _ shape :: fields, v :: rest =>
    lengthByValue (total + ((if shape.isFixed then 0 else offsetWidth) + v.byteLength)) fields rest
  | _, _ => total

/-- The announced length of a container sized by shapes, on top of `total`. -/
def lengthByShape (total : Nat) : List Field → List Value → Nat
  | .mk _ _ shape :: fields, v :: rest =>
    lengthByShape
      (total + (if shape.isFixed then shape.staticLength else offsetWidth + v.byteLength))
      fields rest
  | _, _ => total

end

/-- The bytes that a value announces to take in the fixed part. -/
def Value.slotLength (v : Value) : Nat :=
  if v.isFixed then v.byteLength else offsetWidth

/-- The length of the fixed part of a container as announced by its values. -/
def slotLengths (values : List Value) : Nat :=
  values.foldl (fun total v => total + v.slotLength) 0

/-- The length of the fixed part that a container of this schema is given. -/
def Schema.fixedPartLength (schema : Schema) (values : List Value) : Nat :=
  match schema.sizing with
  | .byShape => staticLengths schema.fields
  | .byValue _ => slotLengths values

mutual

/-- The binary encoding of a value. -/
def Value.encode : Value → ByteArray
  | .uint width n => Bytes.littleEndian width n
  | .boolean b => Bytes.littleEndian 1 (if b then 1 else 0)
  | .root r => r.bytes
  | .bytes data => data
  | .byteList _ data => data
  | .list element _ items | .vector element items | .array element items =>
    if element.isFixed then encodeInPlace ByteArray.empty items
    else layOut (offsetWidth * items.length) (variableParts [] items)
  | .bitvector bits => Bits.pack bits
  | .bitlist _ bits => Bits.packWithEnd bits
  | .container schema values =>
    layOut (schema.fixedPartLength values) (fieldParts schema.fields values)

/-- Appends the encodings of the items one after the other. -/
def encodeInPlace (out : ByteArray) : List Value → ByteArray
  | [] => out
  | v :: rest => encodeInPlace (out ++ v.encode) rest

/-- The items as variable parts, behind the parts of `before` in reverse. -/
def variableParts (before : List Part) : List Value → List Part
  | [] => before.reverse
  | v :: rest => variableParts (⟨false, v.encode⟩ :: before) rest

def fieldParts : List Field → List Value → List Part
  | .mk _ _ shape :: fields, v :: rest => ⟨shape.isFixed, v.encode⟩ :: fieldParts fields rest
  | _, _ => []

end

/-- The announced length of the container made of `values`. -/
def containerLength (values : List Value) : Nat :=
  values.foldl
    (fun total v => total + ((if v.isFixed then 0 else offsetWidth) + v.byteLength)) 0

end GenesisForge.Ssz
