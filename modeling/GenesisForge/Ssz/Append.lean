import GenesisForge.Ssz.Encode

/-!
# Encoding onto a buffer

A value is written behind what stands in a buffer. Where parts have offsets,
the fixed parts go straight to the buffer and the payloads to a buffer of their
own, which is put behind them at the end. The end of a bit list is marked in
the last byte of the buffer, unless the bits fill that byte.
-/

namespace GenesisForge.Ssz

/-- Appends the bytes of `bits` with a one bit after the last of them. -/
def Bits.appendWithEnd (bits : List Bool) (out : ByteArray) : ByteArray :=
  let out := out ++ pack bits
  let place := bits.length % 8
  if place ≠ 0 ∧ 0 < out.size then
    out.set! (out.size - 1) (out.get! (out.size - 1) ||| 1 <<< place.toUInt8)
  else out.push 1

mutual

/-- Appends the binary encoding of a value. -/
def Value.appendTo : Value → ByteArray → ByteArray
  | .uint width n, out => Bytes.appendLittleEndian width n out
  | .boolean b, out => Bytes.appendLittleEndian 1 (if b then 1 else 0) out
  | .root r, out => out ++ r.bytes
  | .bytes data, out => out ++ data
  | .byteList _ data, out => out ++ data
  | .list element _ items, out | .vector element items, out | .array element items, out =>
    if element.isFixed then appendInPlace items out
    else appendWithOffsets (offsetWidth * items.length) items out ByteArray.empty
  | .bitvector bits, out => out ++ Bits.pack bits
  | .bitlist _ bits, out => Bits.appendWithEnd bits out
  | .container schema values, out =>
    appendFields (schema.fixedPartLength values) schema.fields values out ByteArray.empty

/-- Appends the items one after the other. -/
def appendInPlace : List Value → ByteArray → ByteArray
  | [], out => out
  | v :: rest, out => appendInPlace rest (v.appendTo out)

/-- Appends the offsets of the items to `front` and the items to the payloads
`back`, and puts the payloads behind the offsets. -/
def appendWithOffsets (fixedLength : Nat) : List Value → ByteArray → ByteArray → ByteArray
  | [], front, back => front ++ back
  | v :: rest, front, back =>
    appendWithOffsets fixedLength rest
      (Bytes.appendLittleEndian offsetWidth (fixedLength + back.size) front) (v.appendTo back)

/-- Appends the fixed fields and the offsets of the others to `front` and the
other fields to the payloads `back`, and puts the payloads behind them. -/
def appendFields (fixedLength : Nat) :
    List Field → List Value → ByteArray → ByteArray → ByteArray
  | .mk _ _ shape :: fields, v :: rest, front, back =>
    if shape.isFixed then appendFields fixedLength fields rest (v.appendTo front) back
    else appendFields fixedLength fields rest
      (Bytes.appendLittleEndian offsetWidth (fixedLength + back.size) front) (v.appendTo back)
  | _, _, front, back => front ++ back

end

/-- Appends the values in place and the offsets of the others to `front` and the other
values to the payloads `back`, and puts the payloads behind them. -/
def appendValues (fixedLength : Nat) : List Value → ByteArray → ByteArray → ByteArray
  | [], front, back => front ++ back
  | v :: rest, front, back =>
    if v.isFixed then appendValues fixedLength rest (v.appendTo front) back
    else appendValues fixedLength rest
      (Bytes.appendLittleEndian offsetWidth (fixedLength + back.size) front) (v.appendTo back)

/-- Appends to `out` the encoding of the container made of `values`, its fixed
part sized by the lengths that the values announce. -/
def appendContainer (values : List Value) (out : ByteArray) : ByteArray :=
  appendValues (slotLengths values) values out ByteArray.empty

end GenesisForge.Ssz
