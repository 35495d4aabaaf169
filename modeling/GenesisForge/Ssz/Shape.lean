/-!
# Shapes of serializable values

A shape says what a value is made of, and nothing about the sizes that the
configuration of a chain chooses: the limit of a list and the length of a
vector belong to the value. A container is described by a schema, the list of
its named fields.
-/

namespace GenesisForge.Ssz

/-- How the fixed part of a container is sized: from the shapes of the fields,
or from the field values because one of them has a length that its shape does
not tell. In the second case the schema states whether the container is fixed. -/
inductive Sizing where
  | byShape
  | byValue (fixed : Bool)
deriving DecidableEq, Repr

mutual

/-- What a serializable value is made of. -/
inductive Shape where
  /-- An unsigned integer of `width` bytes. -/
  | uint (width : Nat)
  | boolean
  /-- A tree root. -/
  | root
  /-- A byte string of `length` bytes. -/
  | bytes (length : Nat)
  /-- A byte string of any length up to a limit. -/
  | byteList
  /-- A list of any length up to a limit. -/
  | list (element : Shape)
  /-- A sequence whose length the configuration chooses. -/
  | vector (element : Shape)
  /-- A sequence of `length` elements. -/
  | array (element : Shape) (length : Nat)
  /-- A sequence of bits whose length the configuration chooses. -/
  | bitvector
  /-- A sequence of bits of any length up to a limit. -/
  | bitlist
  | container (schema : Schema)

/-- The name, sizing and fields of a container. -/
inductive Schema where
  | mk (name : String) (sizing : Sizing) (fields : List Field)

/-- A named field. Integers of a quoted field are written as strings in JSON. -/
inductive Field where
  | mk (name : String) (quoted : Bool) (shape : Shape)

end

instance : Inhabited Shape := ⟨.boolean⟩

namespace Schema

def name : Schema → String
  | .mk name _ _ => name

def sizing : Schema → Sizing
  | .mk _ sizing _ => sizing

def fields : Schema → List Field
  | .mk _ _ fields => fields

end Schema

namespace Field

def name : Field → String
  | .mk name _ _ => name

def quoted : Field → Bool
  | .mk _ quoted _ => quoted

def shape : Field → Shape
  | .mk _ _ shape => shape

end Field

/-- Bytes of an offset, which stands in the fixed part for a variable field. -/
def offsetWidth : Nat := 4

mutual

/-- Whether every value of the shape is stored in place and not behind an offset. -/
def Shape.isFixed : Shape → Bool
  | .uint _ | .boolean | .root | .bytes _ | .bitvector => true
  | .byteList | .list _ | .bitlist => false
  | .vector element | .array element _ => element.isFixed
  | .container schema => schema.isFixed

/-- Whether every value of the container is stored in place. -/
def Schema.isFixed : Schema → Bool
  | .mk _ (.byValue fixed) _ => fixed
  | .mk _ .byShape fields => allFixed fields

/-- Whether every one of the fields is stored in place. -/
def allFixed : List Field → Bool
  | [] => true
  | .mk _ _ shape :: rest => shape.isFixed && allFixed rest

end

mutual

/-- The bytes that a value takes in the fixed part, as far as the shape tells.
Shapes that do not tell are given the width of an offset. -/
def Shape.staticLength : Shape → Nat
  | .uint width => width
  | .boolean => 1
  | .root => 32
  | .bytes length => length
  | .byteList | .list _ | .vector _ | .bitvector | .bitlist => offsetWidth
  | .array element length =>
    if element.isFixed then element.staticLength * length else offsetWidth
  | .container schema => schema.staticLength

/-- The bytes that a container takes in a fixed part. -/
def Schema.staticLength : Schema → Nat
  | .mk _ (.byValue _) _ => offsetWidth
  | .mk _ .byShape fields => if allFixed fields then staticLengths fields else offsetWidth

/-- The bytes that the fields take in a fixed part, taken together. -/
def staticLengths : List Field → Nat
  | [] => 0
  | .mk _ _ shape :: rest => shape.staticLength + staticLengths rest

end

/-- How many values of the shape share one chunk of 32 bytes, for the shapes
whose values are packed into chunks. -/
def Shape.perChunk? : Shape → Option Nat
  | .uint width => some (32 / width)
  | .boolean => some 32
  | _ => none

end GenesisForge.Ssz
