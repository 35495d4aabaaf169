import GenesisForge.Ssz.Shape
import GenesisForge.Ssz.Bits

/-!
# Serializable values

A value carries the sizes that its shape leaves open. Collections also carry
the shape of their elements, since an empty collection has no element to tell
it. `Value.HasShape` says which values a shape describes; every operation is
meant for those.
-/

namespace GenesisForge.Ssz

/-- A value that can be encoded, hashed and written as JSON. -/
inductive Value where
  /-- The unsigned integer `n` of `width` bytes. -/
  | uint (width : Nat) (n : Nat)
  | boolean (b : Bool)
  | root (r : Root)
  | bytes (data : ByteArray)
  | byteList (limit : Nat) (data : ByteArray)
  | list (element : Shape) (limit : Nat) (items : List Value)
  | vector (element : Shape) (items : List Value)
  | array (element : Shape) (items : List Value)
  | bitvector (bits : List Bool)
  | bitlist (limit : Nat) (bits : List Bool)
  | container (schema : Schema) (values : List Value)

instance : Inhabited Value := ⟨.boolean false⟩

mutual

/-- Whether two values of one shape agree in their sizes and contents. -/
def Value.agrees : Value → Value → Bool
  | .uint _ a, .uint _ b => a == b
  | .boolean a, .boolean b => a == b
  | .root a, .root b => a == b
  | .bytes a, .bytes b => a == b
  | .byteList l a, .byteList m b => l == m && a == b
  | .list _ l a, .list _ m b => l == m && agreeAll a b
  | .vector _ a, .vector _ b => agreeAll a b
  | .array _ a, .array _ b => agreeAll a b
  | .bitvector a, .bitvector b => a == b
  | .bitlist l a, .bitlist m b => l == m && a == b
  | .container _ a, .container _ b => agreeAll a b
  | _, _ => false

/-- Whether two sequences of values agree one by one. -/
def agreeAll : List Value → List Value → Bool
  | [], [] => true
  | a :: as, b :: bs => a.agrees b && agreeAll as bs
  | _, _ => false

end

mutual

/-- The values that a shape describes. -/
inductive Value.HasShape : Value → Shape → Prop where
  | uint {width n : Nat} (h : n < 256 ^ width) : HasShape (.uint width n) (.uint width)
  | boolean (b : Bool) : HasShape (.boolean b) .boolean
  | root (r : Root) : HasShape (.root r) .root
  | bytes (data : ByteArray) : HasShape (.bytes data) (.bytes data.size)
  | byteList {limit : Nat} {data : ByteArray} (h : data.size ≤ limit) :
      HasShape (.byteList limit data) .byteList
  | list {element : Shape} {limit : Nat} {items : List Value} (h : items.length ≤ limit)
      (all : AllHaveShape items element) : HasShape (.list element limit items) (.list element)
  | vector {element : Shape} {items : List Value} (all : AllHaveShape items element) :
      HasShape (.vector element items) (.vector element)
  | array {element : Shape} {items : List Value} (all : AllHaveShape items element) :
      HasShape (.array element items) (.array element items.length)
  | bitvector (bits : List Bool) : HasShape (.bitvector bits) .bitvector
  | bitlist {limit : Nat} {bits : List Bool} (h : bits.length ≤ limit) :
      HasShape (.bitlist limit bits) .bitlist
  | container {schema : Schema} {values : List Value} (h : HasFields values schema.fields) :
      HasShape (.container schema values) (.container schema)

/-- The sequences all of whose values one shape describes. -/
inductive Value.AllHaveShape : List Value → Shape → Prop where
  | nil (shape : Shape) : AllHaveShape [] shape
  | cons {v : Value} {rest : List Value} {shape : Shape} (head : HasShape v shape)
      (tail : AllHaveShape rest shape) : AllHaveShape (v :: rest) shape

/-- The sequences whose values a list of fields describes one by one. -/
inductive Value.HasFields : List Value → List Field → Prop where
  | nil : HasFields [] []
  | cons {v : Value} {rest : List Value} {name : String} {quoted : Bool} {shape : Shape}
      {fields : List Field} (head : HasShape v shape) (tail : HasFields rest fields) :
      HasFields (v :: rest) (.mk name quoted shape :: fields)

end

/-- The shape that a value claims to have. -/
def Value.shape : Value → Shape
  | .uint width _ => .uint width
  | .boolean _ => .boolean
  | .root _ => .root
  | .bytes data => .bytes data.size
  | .byteList _ _ => .byteList
  | .list element _ _ => .list element
  | .vector element _ => .vector element
  | .array element items => .array element items.length
  | .bitvector _ => .bitvector
  | .bitlist _ _ => .bitlist
  | .container schema _ => .container schema

/-- Whether the value is stored in place. -/
def Value.isFixed (v : Value) : Bool :=
  v.shape.isFixed

end GenesisForge.Ssz
