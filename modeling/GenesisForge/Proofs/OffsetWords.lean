import GenesisForge.Proofs.EncodedSizes

/-!
# Words of an encoded container that are offsets

Where the offsets of a container stand is told by the slots of its parts alone.
When a part that is stored in place grows, its new bytes are inserted where it
ends, every payload moves by their number, and so every offset of the container
grows by that number.  The payloads themselves, with whatever offsets they hold,
stay as they are.
-/

namespace GenesisForge
namespace Ssz

/-- The number that the four bytes at `place` stand for. -/
def wordAt (bytes : ByteArray) (place : Nat) : Nat :=
  Bytes.littleEndianValue (bytes.extract place (place + offsetWidth))

def addToWord (amount : Nat) (bytes : ByteArray) (place : Nat) : ByteArray :=
  bytes.extract 0 place ++
    Bytes.littleEndian offsetWidth (wordAt bytes place + amount) ++
    bytes.extract (place + offsetWidth) bytes.size

def addToWords (amount : Nat) (places : List Nat) (bytes : ByteArray) : ByteArray :=
  places.foldl (addToWord amount) bytes

/-- Puts `inserted` in front of the byte at `place`. -/
def insertAt (place : Nat) (inserted bytes : ByteArray) : ByteArray :=
  bytes.extract 0 place ++ inserted ++ bytes.extract place bytes.size

/-- Where the offsets of the parts stand, the first slot being at `place`. -/
def offsetPlaces (place : Nat) : List Part → List Nat
  | [] => []
  | ⟨true, bytes⟩ :: rest => offsetPlaces (place + bytes.size) rest
  | ⟨false, _⟩ :: rest => place :: offsetPlaces (place + offsetWidth) rest

/-- Where the offsets of a container stand in its encoding. -/
def Value.offsetPlaces : Value → List Nat
  | .container schema values => Ssz.offsetPlaces 0 (fieldParts schema.fields values)
  | _ => []

theorem wordAt_littleEndian (front back : ByteArray) (n : Nat) :
    wordAt (front ++ Bytes.littleEndian offsetWidth n ++ back) front.size =
      n % 2 ^ 32 := by
  have hword := Bytes.extract_middle front (Bytes.littleEndian offsetWidth n) back
  rw [Bytes.size_littleEndian] at hword
  rw [wordAt, hword, Bytes.littleEndianValue_littleEndian]
  rfl

theorem addToWord_littleEndian (amount : Nat) (front back : ByteArray) (n : Nat) :
    addToWord amount (front ++ Bytes.littleEndian offsetWidth n ++ back) front.size =
      front ++ Bytes.littleEndian offsetWidth (n + amount) ++ back := by
  have hword : Bytes.littleEndian offsetWidth (n % 2 ^ 32 + amount) =
      Bytes.littleEndian offsetWidth (n + amount) :=
    Bytes.littleEndian_eq_of_mod_eq (Nat.mod_add_mod n (2 ^ 32) amount)
  have hend : front.size + offsetWidth =
      (front ++ Bytes.littleEndian offsetWidth n).size := by
    rw [ByteArray.size_append, Bytes.size_littleEndian]
  have hleft : (front ++ Bytes.littleEndian offsetWidth n ++ back).extract 0 front.size =
      front := by
    rw [ByteArray.append_assoc, ByteArray.extract_append_eq_left rfl]
  rw [addToWord, wordAt_littleEndian, hword, hleft, hend,
    ByteArray.extract_append_eq_right rfl ByteArray.size_append]

theorem insertAt_append (front back inserted : ByteArray) :
    insertAt front.size inserted (front ++ back) = front ++ inserted ++ back := by
  rw [insertAt, ByteArray.extract_append_eq_left rfl,
    ByteArray.extract_append_eq_right rfl ByteArray.size_append]

theorem size_insertAt (place : Nat) (inserted bytes : ByteArray) :
    (insertAt place inserted bytes).size = bytes.size + inserted.size := by
  simp only [insertAt, ByteArray.size_append, ByteArray.size_extract]
  omega

/-- Adding to every offset of a fixed part moves the first payload. -/
theorem addToWords_fixedPart
    (amount position : Nat) (parts : List Part) (front back : ByteArray) :
    addToWords amount (offsetPlaces front.size parts)
        (front ++ fixedPart position parts ++ back) =
      front ++ fixedPart (position + amount) parts ++ back := by
  induction parts generalizing position front with
  | nil => rfl
  | cons part rest ih =>
      obtain ⟨isFixed, bytes⟩ := part
      cases isFixed with
      | true =>
          have hrest := ih position (front ++ bytes)
          rw [ByteArray.size_append] at hrest
          rw [offsetPlaces, fixedPart, fixedPart, ← ByteArray.append_assoc,
            ← ByteArray.append_assoc, hrest]
      | false =>
          have hrest := ih (position + bytes.size)
            (front ++ Bytes.littleEndian offsetWidth (position + amount))
          rw [ByteArray.size_append, Bytes.size_littleEndian] at hrest
          rw [offsetPlaces, fixedPart, fixedPart, addToWords, List.foldl_cons,
            ← ByteArray.append_assoc, ByteArray.append_assoc (c := back),
            addToWord_littleEndian, ← addToWords, ← ByteArray.append_assoc, hrest,
            Nat.add_right_comm, ← ByteArray.append_assoc]

theorem extract_offset_layOut
    (fixedLength : Nat) (front rest : List Part) (bytes : ByteArray) :
    (layOut fixedLength (front ++ ⟨false, bytes⟩ :: rest)).extract
        (front.map Part.slotSize).sum ((front.map Part.slotSize).sum + offsetWidth) =
      Bytes.littleEndian offsetWidth (fixedLength + (payloads front).size) := by
  have hword := Bytes.extract_middle (fixedPart fixedLength front)
    (Bytes.littleEndian offsetWidth (fixedLength + (payloads front).size))
    (fixedPart (fixedLength + (payloads front).size + bytes.size) rest ++
      payloads (front ++ ⟨false, bytes⟩ :: rest))
  rw [Bytes.size_littleEndian, size_fixedPart] at hword
  rw [layOut_eq, fixedPart_append, fixedPart, ← ByteArray.append_assoc (a := fixedPart _ front),
    ByteArray.append_assoc, hword]

/-- The offset of a part tells how long everything in front of its payload is. -/
theorem wordAt_layOut
    (fixedLength : Nat) (front rest : List Part) (bytes : ByteArray) :
    wordAt (layOut fixedLength (front ++ ⟨false, bytes⟩ :: rest))
      (front.map Part.slotSize).sum = (fixedLength + (payloads front).size) % 2 ^ 32 := by
  rw [wordAt, extract_offset_layOut, Bytes.littleEndianValue_littleEndian]
  rfl

theorem wordAt_le_of_mem_offsetPlaces
    {place : Nat} (position : Nat) {parts : List Part} {front : ByteArray}
    (hplace : place ∈ offsetPlaces front.size parts) (back : ByteArray) :
    wordAt (front ++ fixedPart position parts ++ back) place ≤
      position + (payloads parts).size := by
  induction parts generalizing position front with
  | nil => simp [offsetPlaces] at hplace
  | cons part rest ih =>
      obtain ⟨isFixed, bytes⟩ := part
      cases isFixed with
      | true =>
          rw [offsetPlaces, ← ByteArray.size_append] at hplace
          rw [fixedPart, payloads, ← ByteArray.append_assoc]
          exact ih position hplace
      | false =>
          rw [offsetPlaces, List.mem_cons] at hplace
          rw [fixedPart, payloads, ByteArray.size_append, ← ByteArray.append_assoc]
          rcases hplace with rfl | hplace
          · rw [ByteArray.append_assoc (c := back), wordAt_littleEndian]
            have hle := Nat.mod_le position (2 ^ 32)
            omega
          · have hwidth : front.size + offsetWidth =
                (front ++ Bytes.littleEndian offsetWidth position).size := by
              rw [ByteArray.size_append, Bytes.size_littleEndian]
            rw [hwidth] at hplace
            have hrest := ih (position + bytes.size) hplace
            omega

theorem addToWords_layOut (amount fixedLength : Nat) (parts : List Part) :
    addToWords amount (offsetPlaces 0 parts) (layOut fixedLength parts) =
      layOut (fixedLength + amount) parts := by
  have hmoved := addToWords_fixedPart amount fixedLength parts ByteArray.empty (payloads parts)
  rwa [ByteArray.size_empty, ByteArray.empty_append, ByteArray.empty_append, ← layOut_eq,
    ← layOut_eq] at hmoved

theorem Value.size_addToWords_offsetPlaces (amount : Nat) (v : Value) :
    (addToWords amount v.offsetPlaces v.encode).size = v.encode.size := by
  cases v with
  | container schema values =>
      rw [Value.offsetPlaces, Value.encode, addToWords_layOut, size_layOut, size_layOut]
  | _ => rfl

/-- A container holds one offset for each of its variable fields. -/
theorem length_offsetPlaces_container
    {schema : Schema} {values : List Value}
    (hcount : values.length = schema.fields.length) :
    (Value.container schema values).offsetPlaces.length =
      schema.fields.countP (!·.shape.isFixed) := by
  have hcountFrom (place : Nat) (fields : List Field) (values : List Value)
      (hcount : values.length = fields.length) :
      (offsetPlaces place (fieldParts fields values)).length =
        fields.countP (!·.shape.isFixed) := by
    induction fields generalizing place values with
    | nil => simp [fieldParts, offsetPlaces]
    | cons f rest ih =>
        obtain ⟨name, quoted, shape⟩ := f
        cases values with
        | nil => simp at hcount
        | cons v values =>
            have hrest (place : Nat) := ih place values (by simpa using hcount)
            rw [fieldParts]
            cases hfixed : shape.isFixed <;>
              simp [offsetPlaces, hrest, Field.shape, hfixed]
  exact hcountFrom 0 schema.fields values hcount

/-! ## Growing a part in place -/

/-- The layout around a part in place. -/
theorem layOut_around
    (fixedLength : Nat) (front rest : List Part) (bytes : ByteArray) :
    layOut fixedLength (front ++ ⟨true, bytes⟩ :: rest) =
      fixedPart fixedLength front ++ bytes ++
        (fixedPart (fixedLength + (payloads front).size) rest ++
          (payloads front ++ payloads rest)) := by
  rw [layOut_eq, fixedPart_append, payloads_append, fixedPart, payloads]
  simp only [ByteArray.append_assoc]

/-- A part in place that grows inserts its new bytes where it ends and moves
every payload. -/
theorem layOut_grow
    (fixedLength : Nat) (front rest : List Part) (bytes inserted : ByteArray) :
    layOut (fixedLength + inserted.size) (front ++ ⟨true, bytes ++ inserted⟩ :: rest) =
      insertAt ((front.map Part.slotSize).sum + bytes.size) inserted
        (addToWords inserted.size (offsetPlaces 0 (front ++ ⟨true, bytes⟩ :: rest))
          (layOut fixedLength (front ++ ⟨true, bytes⟩ :: rest))) := by
  have hplace : (front.map Part.slotSize).sum + bytes.size =
      (fixedPart (fixedLength + inserted.size) front ++ bytes).size := by
    rw [ByteArray.size_append, size_fixedPart]
  rw [hplace, addToWords_layOut, layOut_around, layOut_around, insertAt_append,
    ← ByteArray.append_assoc (b := bytes)]

theorem wordAt_layOut_le
    {place : Nat} {parts : List Part} (hplace : place ∈ offsetPlaces 0 parts)
    (fixedLength : Nat) :
    wordAt (layOut fixedLength parts) place ≤ fixedLength + (payloads parts).size := by
  have hword := @wordAt_le_of_mem_offsetPlaces place fixedLength parts ByteArray.empty
    hplace (payloads parts)
  rwa [ByteArray.empty_append, ← layOut_eq] at hword

theorem encode_container_byValue
    {schema : Schema} {fixed : Bool} (hsizing : schema.sizing = .byValue fixed)
    (values : List Value) :
    (Value.container schema values).encode =
      layOut (slotLengths values) (fieldParts schema.fields values) := by
  rw [Value.encode, Schema.fixedPartLength, hsizing]

theorem fieldParts_append_cons
    {front rest : List Field} {f : Field} (hf : f.shape.isFixed) {before : List Value}
    (hcount : before.length = front.length) (v : Value) (after : List Value) :
    fieldParts (front ++ f :: rest) (before ++ v :: after) =
      fieldParts front before ++ ⟨true, v.encode⟩ :: fieldParts rest after := by
  rw [fieldParts_eq, fieldParts_eq, fieldParts_eq, List.zipWith_append hcount.symm,
    List.zipWith_cons_cons, hf]

/-- What happens to the encoding of a container that is sized by its values when
a field in place is replaced by a longer one. -/
theorem encode_container_grow
    {schema other : Schema} {front rest : List Field} {f g : Field}
    {before : List Value} {v w : Value} {inserted : ByteArray} {fixed : Bool}
    (hschema : schema.sizing = .byValue fixed) (hother : other.sizing = .byValue fixed)
    (hfields : schema.fields = front ++ f :: rest)
    (hothers : other.fields = front ++ g :: rest)
    (hcount : before.length = front.length)
    (hf : f.shape.isFixed) (hg : g.shape.isFixed)
    (hslot : w.slotLength = v.slotLength + inserted.size)
    (hencode : w.encode = v.encode ++ inserted) (after : List Value) :
    (Value.container other (before ++ w :: after)).encode =
      insertAt
        (((fieldParts front before).map Part.slotSize).sum + v.encode.size) inserted
        (addToWords inserted.size
          (Value.container schema (before ++ v :: after)).offsetPlaces
          (Value.container schema (before ++ v :: after)).encode) := by
  have hlengths : slotLengths (before ++ w :: after) =
      slotLengths (before ++ v :: after) + inserted.size := by
    simp only [slotLengths_eq_sum, List.map_append, List.map_cons, List.sum_append,
      List.sum_cons, hslot]
    omega
  rw [encode_container_byValue hother, encode_container_byValue hschema,
    Value.offsetPlaces, hfields, hothers, fieldParts_append_cons hf hcount,
    fieldParts_append_cons hg hcount, hencode, hlengths, layOut_grow]

/-- Around a field in place the encoding of a container is the same whatever value of
one length stands there. -/
theorem exists_encode_container_eq
    {schema : Schema} {front rest : List Field} {f : Field} {before : List Value} {fixed : Bool}
    (hschema : schema.sizing = .byValue fixed) (hfields : schema.fields = front ++ f :: rest)
    (hcount : before.length = front.length) (hf : f.shape.isFixed) (after : List Value)
    (length : Nat) :
    ∃ head tail : ByteArray,
      head.size = ((fieldParts front before).map Part.slotSize).sum ∧
      ∀ v : Value, v.slotLength = length →
        (Value.container schema (before ++ v :: after)).encode = head ++ v.encode ++ tail := by
  let announced := slotLengths before + (length + slotLengths after)
  refine ⟨fixedPart announced (fieldParts front before),
    fixedPart (announced + (payloads (fieldParts front before)).size) (fieldParts rest after) ++
      (payloads (fieldParts front before) ++ payloads (fieldParts rest after)),
    size_fixedPart announced _, fun v hv => ?_⟩
  have hlengths : slotLengths (before ++ v :: after) = announced := by
    simp only [slotLengths_eq_sum, List.map_append, List.map_cons, List.sum_append,
      List.sum_cons, hv, announced]
  rw [encode_container_byValue hschema, hlengths, hfields, fieldParts_append_cons hf hcount,
    layOut_around]

/-- The offsets of a container that is sized by its values point into it, unless
some bit vector has no bits. -/
theorem wordAt_encode_le
    {schema : Schema} {fixed : Bool} {values : List Value} {place : Nat}
    (hsizing : schema.sizing = .byValue fixed)
    (hfields : List.Forall₂ (fun v (f : Field) => v.HasShape f.shape)
      values schema.fields)
    (hformed : ∀ f ∈ schema.fields, f.shape.wellFormed)
    (hbits : emptyBitvectorsAmong values = 0)
    (hplace : place ∈ (Value.container schema values).offsetPlaces) :
    wordAt (Value.container schema values).encode place ≤
      (Value.container schema values).encode.size := by
  rw [encode_container_byValue hsizing]
  have hannounced := slotLengths_eq_size_fixedPart (slotLengths values) hfields hformed hbits
  rw [← fieldParts_eq] at hannounced
  have hword := wordAt_layOut_le hplace (slotLengths values)
  rw [layOut_eq, ByteArray.size_append, ← hannounced, ← layOut_eq]
  exact hword

end Ssz
end GenesisForge
