import GenesisForge.Proofs.BitPacking
import GenesisForge.Proofs.EncodingInjective
import GenesisForge.Ssz.Append

/-!
# Bytes appended to a buffer

Appending a value leaves what stands in the buffer as it is and puts the encoding
of the value behind it.
-/

namespace GenesisForge
namespace Ssz

/-! ## Ends of bit lists -/

namespace Bits

theorem pack_of_le {bits : List Bool} (hlong : 8 ≤ bits.length) :
    pack bits = ByteArray.empty.push (byteOf (bits.take 8)) ++ pack (bits.drop 8) := by
  have hcount : (bits.length + 7) / 8 = ((bits.drop 8).length + 7) / 8 + 1 := by
    rw [List.length_drop]
    omega
  rw [pack, hcount, appendPacked, appendPacked_eq]
  rfl

theorem pack_of_lt {bits : List Bool} (hsome : bits ≠ []) (hshort : bits.length ≤ 8) :
    pack bits = ByteArray.empty.push (byteOf bits) := by
  have hpos := List.length_pos_iff.mpr hsome
  have hcount : (bits.length + 7) / 8 = 1 := by omega
  rw [pack, hcount, appendPacked, appendPacked, List.take_of_length_le hshort]

theorem packWithEnd_of_le {bits : List Bool} (hlong : 8 ≤ bits.length) :
    packWithEnd bits =
      ByteArray.empty.push (byteOf (bits.take 8)) ++ packWithEnd (bits.drop 8) := by
  rw [packWithEnd, packWithEnd, pack_of_le (by rw [List.length_append]; omega),
    List.take_append_of_le_length hlong, List.drop_append_of_le_length hlong]

theorem toNat_one_shiftLeft {place : Nat} (hplace : place < 8) :
    (1 <<< place.toUInt8 : UInt8).toNat = 2 ^ place := by
  have hall : ∀ p < 8, (1 <<< p.toUInt8 : UInt8).toNat = 2 ^ p := by decide
  exact hall place hplace

/-- The bit behind the others is the one that is set. -/
theorem byteOf_append_true {bits : List Bool} (hshort : bits.length < 8) :
    byteOf (bits ++ [true]) = byteOf bits ||| 1 <<< bits.length.toUInt8 := by
  rw [← UInt8.toNat_inj]
  refine Nat.eq_of_testBit_eq fun place => ?_
  rw [testBit_byteOf (by rw [List.length_append]; exact hshort), UInt8.toNat_or,
    Nat.testBit_or, testBit_byteOf hshort.le, toNat_one_shiftLeft hshort, Nat.testBit_two_pow]
  rcases Nat.lt_trichotomy place bits.length with hbefore | rfl | hbehind
  · simp [List.getD_eq_getElem?_getD, List.getElem?_append_left hbefore, hbefore, hbefore.ne']
  · simp [List.getD_eq_getElem?_getD]
  · rw [List.getD_eq_default _ _ (by rw [List.length_append]; exact hbehind),
      List.getD_eq_default _ _ hbehind.le]
    simp [hbehind.ne]

theorem get!_last (out : ByteArray) (byte : UInt8) :
    (out.push byte).get! ((out.push byte).size - 1) = byte := by
  have hlast : (out.data.push byte)[out.data.size]! = byte := by
    rw [getElem!_pos _ _ (by simp)]
    exact Array.getElem_push_eq
  rw [ByteArray.size_push, Nat.add_sub_cancel]
  exact hlast

theorem set!_last (out : ByteArray) (byte other : UInt8) :
    (out.push byte).set! ((out.push byte).size - 1) other = out.push other := by
  have hlast : (out.data.push byte).set! out.data.size other = out.data.push other := by
    grind
  rw [ByteArray.size_push, Nat.add_sub_cancel]
  exact ByteArray.ext hlast

/-- Marking the end in the buffer is the same as packing a one bit more. -/
theorem appendWithEnd_eq (bits : List Bool) (out : ByteArray) :
    appendWithEnd bits out = out ++ packWithEnd bits := by
  induction hcount : bits.length using Nat.strongRecOn generalizing bits out with
  | ind count ih =>
      by_cases hlong : 8 ≤ bits.length
      · -- A full first byte is out of reach of the mark.
        have hrest : appendWithEnd bits out =
            appendWithEnd (bits.drop 8) (out.push (byteOf (bits.take 8))) := by
          have hwhole : out ++ pack bits =
              out.push (byteOf (bits.take 8)) ++ pack (bits.drop 8) := by
            rw [pack_of_le hlong, ← ByteArray.append_assoc]
            congr 1
            ext1
            simp
          have hplace : (bits.drop 8).length % 8 = bits.length % 8 := by
            rw [List.length_drop]
            omega
          rw [appendWithEnd, appendWithEnd, hwhole, hplace]
        have hdrop : (bits.drop 8).length < count := by
          rw [List.length_drop]
          omega
        rw [hrest, ih _ hdrop _ _ rfl, packWithEnd_of_le hlong, ← ByteArray.append_assoc]
        congr 1
        ext1
        simp
      · have hpush (byte : UInt8) : out ++ ByteArray.empty.push byte = out.push byte := by
          ext1
          simp
        cases bits with
        | nil =>
            have hnone : pack [] = ByteArray.empty := rfl
            have hend : packWithEnd [] = ByteArray.empty.push 1 := rfl
            rw [appendWithEnd, if_neg (by simp), hnone, ByteArray.append_empty, hend, hpush]
        | cons bit rest =>
            have hshort : (bit :: rest).length < 8 := Nat.not_le.mp hlong
            have hplace : (bit :: rest).length % 8 = (bit :: rest).length :=
              Nat.mod_eq_of_lt hshort
            rw [appendWithEnd, packWithEnd, pack_of_lt (List.cons_ne_nil _ _) hshort.le,
              pack_of_lt (by simp) (by rw [List.length_append]; exact hshort), hpush, hpush,
              hplace, if_pos (by simp), get!_last, set!_last, byteOf_append_true hshort]

end Bits

/-! ## Values -/

/-- What is laid out behind a buffer is the layout itself behind it. -/
theorem layOutOnto_append (fixedLength : Nat) (out : ByteArray) (parts : List Part) :
    layOutOnto fixedLength out ByteArray.empty parts = out ++ layOut fixedLength parts := by
  rw [layOutOnto_eq, layOut_eq, ByteArray.size_empty, Nat.add_zero, ByteArray.empty_append,
    ByteArray.append_assoc]

theorem appended_items
    (element : Shape) (items : List Value) (out : ByteArray) :
    (if element.isFixed then out ++ encodeInPlace ByteArray.empty items
      else layOutOnto (offsetWidth * items.length) out ByteArray.empty
        (items.map fun v => ⟨false, v.encode⟩)) = out ++ encodeItems element items := by
  unfold encodeItems
  split
  · rfl
  · exact layOutOnto_append _ _ _

mutual

/-- Appending a value puts its encoding behind what stands in the buffer. -/
theorem Value.appendTo_eq (v : Value) (out : ByteArray) : v.appendTo out = out ++ v.encode := by
  cases v with
  | uint width n => rw [Value.appendTo, Value.encode, Bytes.appendLittleEndian_eq]
  | boolean b => rw [Value.appendTo, Value.encode, Bytes.appendLittleEndian_eq]
  | root r => rw [Value.appendTo, Value.encode]
  | bytes data => rw [Value.appendTo, Value.encode]
  | byteList limit data => rw [Value.appendTo, Value.encode]
  | list element limit items =>
      rw [Value.appendTo, encode_list, appendInPlace_eq, appendWithOffsets_eq]
      exact appended_items _ _ _
  | vector element items =>
      rw [Value.appendTo, encode_vector, appendInPlace_eq, appendWithOffsets_eq]
      exact appended_items _ _ _
  | array element items =>
      rw [Value.appendTo, encode_array, appendInPlace_eq, appendWithOffsets_eq]
      exact appended_items _ _ _
  | bitvector bits => rw [Value.appendTo, Value.encode]
  | bitlist limit bits => rw [Value.appendTo, Value.encode, Bits.appendWithEnd_eq]
  | container schema values =>
      rw [Value.appendTo, Value.encode, appendFields_eq, layOutOnto_append]

theorem appendInPlace_eq (items : List Value) (out : ByteArray) :
    appendInPlace items out = out ++ encodeInPlace ByteArray.empty items := by
  cases items with
  | nil => rw [appendInPlace, encodeInPlace, ByteArray.append_empty]
  | cons v rest =>
      rw [appendInPlace, v.appendTo_eq, appendInPlace_eq rest, encodeInPlace_cons,
        ByteArray.append_assoc]

theorem appendWithOffsets_eq
    (fixedLength : Nat) (items : List Value) (front back : ByteArray) :
    appendWithOffsets fixedLength items front back =
      layOutOnto fixedLength front back (items.map fun v => ⟨false, v.encode⟩) := by
  cases items with
  | nil => rw [appendWithOffsets, List.map_nil, layOutOnto]
  | cons v rest =>
      rw [appendWithOffsets, v.appendTo_eq, appendWithOffsets_eq fixedLength rest, List.map_cons,
        layOutOnto]

theorem appendFields_eq
    (fixedLength : Nat) (fields : List Field) (values : List Value) (front back : ByteArray) :
    appendFields fixedLength fields values front back =
      layOutOnto fixedLength front back (fieldParts fields values) := by
  cases values with
  | nil => cases fields <;> simp only [appendFields, fieldParts, layOutOnto]
  | cons v rest =>
      cases fields with
      | nil => simp only [appendFields, fieldParts, layOutOnto]
      | cons f fields =>
          obtain ⟨name, quoted, shape⟩ := f
          rw [appendFields, fieldParts, v.appendTo_eq, v.appendTo_eq,
            appendFields_eq fixedLength fields rest, appendFields_eq fixedLength fields rest]
          cases shape.isFixed <;> rfl

end

/-! ## Announced and appended bytes -/

/-- The shapes of values that can be encoded: the basic ones, the containers of the
chain, and collections of values of these shapes. -/
inductive Shape.Encodable : Shape → Prop where
  | uint (width : Nat) : Encodable (.uint width)
  | boolean : Encodable .boolean
  | root : Encodable .root
  | bytes (length : Nat) : Encodable (.bytes length)
  | byteList : Encodable .byteList
  | bitvector : Encodable .bitvector
  | bitlist : Encodable .bitlist
  | list {element : Shape} (helement : Encodable element) : Encodable (.list element)
  | vector {element : Shape} (helement : Encodable element) : Encodable (.vector element)
  | array {element : Shape} (length : Nat) (helement : Encodable element) :
      Encodable (.array element length)
  | container {schema : Schema} (hschema : schema ∈ Schemas.all) :
      Encodable (.container schema)

theorem Shape.Encodable.tellsSizes
    {shape : Shape} (hencodable : shape.Encodable) : shape.tellsSizes := by
  induction hencodable with
  | uint | boolean | root | bytes | byteList | bitvector | bitlist => rfl
  | list _ ih | vector _ ih | array _ _ ih => exact ih
  | container hschema =>
      exact Shape.tellsSizes_of_wellFormed (Schemas.wellFormed_of_mem_all _ hschema)

/-- Byte strings of a fixed length, and the containers sized by their shape whose
fields are all fixed. -/
def Shape.HasFixedLength : Shape → Prop
  | .bytes _ => True
  | .container schema => schema.sizing = .byShape ∧ ∀ f ∈ schema.fields, f.shape.isFixed
  | _ => False

theorem Shape.Encodable.isStatic
    {shape : Shape} (hencodable : shape.Encodable) (hfixed : shape.HasFixedLength) :
    shape.isStatic := by
  cases hencodable with
  | bytes => rfl
  | @container schema hschema =>
      obtain ⟨name, sizing, fields⟩ := schema
      obtain ⟨hsizing, hfields⟩ := hfixed
      obtain rfl : sizing = .byShape := hsizing
      have htells := (Shape.Encodable.container hschema).tellsSizes
      refine allStatic_of_allFixed (Schema.isStatic_of_tellsSizes htells) ?_
      rw [allFixed_eq, List.all_eq_true]
      exact hfields
  | _ => cases hfixed

/-- Appending a value leaves the buffer as it is and adds as many bytes as the value
announces, but for one byte that every bit vector without bits announces on top. -/
theorem Value.HasShape.appendTo_adds_byteLength
    {v : Value} {shape : Shape} (hshape : v.HasShape shape) (hencodable : shape.Encodable)
    (out : ByteArray) :
    ∃ written, v.appendTo out = out ++ written ∧
      v.byteLength = written.size + v.emptyBitvectors ∧
      (v.emptyBitvectors = 0 → (v.appendTo out).size = out.size + v.byteLength) ∧
      (shape.HasFixedLength → shape.staticLength = written.size) := by
  have hlength := hshape.byteLength_eq_of_tellsSizes hencodable.tellsSizes
  refine ⟨v.encode, v.appendTo_eq out, hlength, fun hnone => ?_, fun hfixed => ?_⟩
  · rw [v.appendTo_eq out, ByteArray.size_append, hlength, hnone, Nat.add_zero]
  · exact (hshape.size_encode_of_isStatic (hencodable.isStatic hfixed)).symm

/-- An attestation with a bit vector that has no bits. -/
def bareAttestation : Value :=
  .container Schemas.attestationElectra [
    .bitlist 8 [true, false, true],
    .container Schemas.attestationData [
      .uint 8 0, .uint 8 0, .root (.zero 32),
      .container Schemas.checkpoint [.uint 8 0, .root (.zero 32)],
      .container Schemas.checkpoint [.uint 8 0, .root (.zero 32)]],
    .bytes (Bytes.fill 0 Schemas.signatureLength),
    .bitvector []]

theorem hasShape_bareAttestation :
    bareAttestation.HasShape (.container Schemas.attestationElectra) := by
  have hcheckpoint : (Value.container Schemas.checkpoint [.uint 8 0, .root (.zero 32)]).HasShape
      (.container Schemas.checkpoint) :=
    .container (.cons (.uint (by decide)) (.cons (.root _) .nil))
  refine .container (.cons (.bitlist (by decide)) (.cons (.container ?_)
    (.cons (.bytes _) (.cons (.bitvector _) .nil))))
  exact .cons (.uint (by decide)) (.cons (.uint (by decide)) (.cons (.root _)
    (.cons hcheckpoint (.cons hcheckpoint .nil))))

theorem encodable_attestationElectra :
    (Shape.container Schemas.attestationElectra).Encodable :=
  .container (by simp [Schemas.all, Schemas.shared])

theorem appendTo_bareAttestation :
    ∃ written, bareAttestation.appendTo ⟨#[7, 7]⟩ = ⟨#[7, 7]⟩ ++ written ∧
      written.size = 229 ∧ bareAttestation.byteLength = 230 := by
  have hlength : bareAttestation.byteLength = 230 := rfl
  have hempty : bareAttestation.emptyBitvectors = 1 := rfl
  obtain ⟨written, hwritten, hannounced, -⟩ :=
    hasShape_bareAttestation.appendTo_adds_byteLength encodable_attestationElectra ⟨#[7, 7]⟩
  exact ⟨written, hwritten, by omega, hlength⟩

end Ssz
end GenesisForge
