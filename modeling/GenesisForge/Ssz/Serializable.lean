import GenesisForge.Ssz.Append
import GenesisForge.Ssz.SizeError
import GenesisForge.Ssz.TreeRoot
import GenesisForge.Ssz.ToJson

/-!
# Types with a serializable form

A type is serializable when each of its elements stands for a value of one
shape and can be read back from it. The reading back refuses values of other
shapes, so the form loses nothing.
-/

namespace GenesisForge.Ssz

/-- A type whose elements stand for values of one shape. -/
class Serializable (α : Type) where
  shape : Shape
  toValue : α → Value
  /-- The element that a value stands for. -/
  ofValue? : Value → Option α
  ofValue?_toValue (a : α) : ofValue? (toValue a) = some a
  hasShape (a : α) : (toValue a).HasShape shape

export Serializable (toValue ofValue?)

attribute [simp] Serializable.ofValue?_toValue

section

variable {α : Type} [Serializable α]

/-- The binary encoding of an element. -/
def encode (a : α) : ByteArray :=
  (toValue a).encode

def treeRoot (a : α) : Root :=
  (toValue a).treeRoot

/-- The number of bytes that the encoding of an element announces. -/
def byteLength (a : α) : Nat :=
  (toValue a).byteLength

def jsonText (a : α) : String :=
  (toValue a).jsonText

/-- Whether two elements stand for values that agree. -/
def agree (a b : α) : Bool :=
  (toValue a).agrees (toValue b)

theorem toValue_injective {a b : α} (h : toValue a = toValue b) : a = b :=
  Option.some.inj <| by
    rw [← Serializable.ofValue?_toValue a, h, Serializable.ofValue?_toValue]

end

instance : Serializable UInt64 where
  shape := .uint 8
  toValue n := .uint 8 n.toNat
  ofValue?
    | .uint 8 n => if n < 2 ^ 64 then some (UInt64.ofNat n) else none
    | _ => none
  ofValue?_toValue n := by
    have := n.toNat_lt
    simp [this]
  hasShape n := .uint n.toNat_lt

instance : Serializable UInt8 where
  shape := .uint 1
  toValue n := .uint 1 n.toNat
  ofValue?
    | .uint 1 n => if n < 2 ^ 8 then some (UInt8.ofNat n) else none
    | _ => none
  ofValue?_toValue n := by
    have := n.toNat_lt
    simp [this]
  hasShape n := .uint n.toNat_lt

/-- An unsigned integer of 256 bits. -/
abbrev Word256 := Fin (2 ^ 256)

instance : Serializable Word256 where
  shape := .uint 32
  toValue n := .uint 32 n.val
  ofValue?
    | .uint 32 n => if h : n < 2 ^ 256 then some ⟨n, h⟩ else none
    | _ => none
  ofValue?_toValue n := by simp
  hasShape n := .uint n.isLt

instance : Serializable Bool where
  shape := .boolean
  toValue b := .boolean b
  ofValue?
    | .boolean b => some b
    | _ => none
  ofValue?_toValue _ := rfl
  hasShape b := .boolean b

instance : Serializable Root where
  shape := .root
  toValue r := .root r
  ofValue?
    | .root r => some r
    | _ => none
  ofValue?_toValue _ := rfl
  hasShape r := .root r

/-- Byte strings of length `n`. The roots, whose length is 32, have a shape of
their own; this one is for the other lengths. -/
@[reducible]
def serializableBytes (n : Nat) : Serializable (FixedBytes n) where
  shape := .bytes n
  toValue b := .bytes b.bytes
  ofValue?
    | .bytes data => FixedBytes.ofBytes? n data
    | _ => none
  ofValue?_toValue b := by
    obtain ⟨bytes, rfl⟩ := b
    simp [FixedBytes.ofBytes?]
  hasShape b := by
    obtain ⟨bytes, rfl⟩ := b
    exact .bytes bytes

instance : Serializable ByteList where
  shape := .byteList
  toValue b := .byteList b.limit b.data
  ofValue?
    | .byteList limit data => (ByteList.ofBytes limit data).toOption
    | _ => none
  ofValue?_toValue b := by simp [ByteList.ofBytes, b.size_le, Except.toOption]
  hasShape b := .byteList b.size_le

instance : Serializable Bitvector where
  shape := .bitvector
  toValue v := .bitvector v.bits
  ofValue?
    | .bitvector bits => some ⟨bits⟩
    | _ => none
  ofValue?_toValue _ := rfl
  hasShape v := .bitvector v.bits

instance : Serializable Bitlist where
  shape := .bitlist
  toValue l := .bitlist l.limit l.bits
  ofValue?
    | .bitlist limit bits => Bitlist.ofBits? limit bits
    | _ => none
  ofValue?_toValue l := by simp [Bitlist.ofBits?, l.length_le]
  hasShape l := .bitlist l.length_le

section

variable {α : Type} [Serializable α]

theorem mapM_ofValue?_toValue (items : List α) :
    (items.map toValue).mapM (ofValue? (α := α)) = some items := by
  induction items with
  | nil => rfl
  | cons a rest ih => simp [ih]

theorem allHaveShape (items : List α) :
    Value.AllHaveShape (items.map toValue) (Serializable.shape α) := by
  induction items with
  | nil => exact .nil _
  | cons a rest ih => exact .cons (Serializable.hasShape a) ih

/-- A list stands for a sequence whose length the configuration chooses. -/
instance : Serializable (List α) where
  shape := .vector (Serializable.shape α)
  toValue items := .vector (Serializable.shape α) (items.map toValue)
  ofValue?
    | .vector _ items => items.mapM ofValue?
    | _ => none
  ofValue?_toValue items := mapM_ofValue?_toValue items
  hasShape items := .vector (allHaveShape items)

instance : Serializable (Bounded α) where
  shape := .list (Serializable.shape α)
  toValue b := .list (Serializable.shape α) b.limit (b.items.map toValue)
  ofValue?
    | .list _ limit items => (items.mapM ofValue?).bind fun items =>
      (Bounded.ofList limit items).toOption
    | _ => none
  ofValue?_toValue b := by
    simp only [mapM_ofValue?_toValue, Option.bind_some]
    simp [Bounded.ofList, b.length_le, Except.toOption]
  hasShape b := .list (by simpa using b.length_le) (allHaveShape b.items)

end

end GenesisForge.Ssz
