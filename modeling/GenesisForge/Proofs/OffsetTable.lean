import GenesisForge.Proofs.AppendedBytes
import GenesisForge.Proofs.OffsetWords

/-!
# The offset table of a container

A container is appended to a buffer field by field.  The table that this leaves in
its fixed part is right as soon as every field in place fills the slot that it
announces: each slot stands where the announced lengths put it, each offset is the
place of a payload, and the offsets cut the payloads out of the container.

The places of the payloads, and of the end of the last one, are one recursion over
the parts.  That they ascend, and that they cut out the payloads, is shown of this
recursion; the offsets that are read back from the bytes are then shown to be it.
-/

namespace GenesisForge
namespace Ssz

/-! ## The places of payloads -/

/-- The pieces of a byte string from each place to the next one. -/
def piecesBetween (places : List Nat) (bytes : ByteArray) : List ByteArray :=
  List.zipWith (fun start stop => bytes.extract start stop) places places.tail

theorem piecesBetween_cons_cons (start stop : Nat) (places : List Nat) (bytes : ByteArray) :
    piecesBetween (start :: stop :: places) bytes =
      bytes.extract start stop :: piecesBetween (stop :: places) bytes :=
  rfl

/-- Where the payloads of the parts start, the first one at `position`, and where the
last one ends. -/
def payloadBounds (position : Nat) : List Part → List Nat
  | [] => [position]
  | ⟨true, _⟩ :: rest => payloadBounds position rest
  | ⟨false, bytes⟩ :: rest => position :: payloadBounds (position + bytes.size) rest

theorem exists_payloadBounds_eq_cons (position : Nat) (parts : List Part) :
    ∃ rest, payloadBounds position parts = position :: rest := by
  induction parts with
  | nil => exact ⟨[], rfl⟩
  | cons part rest ih =>
      obtain ⟨isFixed, bytes⟩ := part
      cases isFixed with
      | true => exact ih
      | false => exact ⟨_, rfl⟩

theorem le_of_mem_payloadBounds
    {position place : Nat} {parts : List Part}
    (hplace : place ∈ payloadBounds position parts) : position ≤ place := by
  induction parts generalizing position with
  | nil => exact (List.mem_singleton.mp hplace).ge
  | cons part rest ih =>
      obtain ⟨isFixed, bytes⟩ := part
      cases isFixed with
      | true => exact ih hplace
      | false =>
          rcases List.mem_cons.mp hplace with rfl | hplace
          · exact Nat.le_refl _
          · exact Nat.le_trans (Nat.le_add_right _ _) (ih hplace)

theorem payloadBounds_ascend (position : Nat) (parts : List Part) :
    (payloadBounds position parts).Pairwise (· ≤ ·) := by
  induction parts generalizing position with
  | nil => exact List.pairwise_singleton _ _
  | cons part rest ih =>
      obtain ⟨isFixed, bytes⟩ := part
      cases isFixed with
      | true => exact ih position
      | false =>
          refine List.pairwise_cons.mpr ⟨fun place hplace => ?_, ih _⟩
          exact Nat.le_trans (Nat.le_add_right _ _) (le_of_mem_payloadBounds hplace)

/-- The bounds of the payloads cut them out of what they stand behind. -/
theorem piecesBetween_payloadBounds (front : ByteArray) (parts : List Part) :
    piecesBetween (payloadBounds front.size parts) (front ++ payloads parts) =
      (parts.filter (!·.isFixed)).map Part.bytes := by
  induction parts generalizing front with
  | nil => rfl
  | cons part rest ih =>
      obtain ⟨isFixed, bytes⟩ := part
      cases isFixed with
      | true => exact ih front
      | false =>
          -- For the rest the payload is part of what stands in front.
          have hrest := ih (front ++ bytes)
          obtain ⟨places, hplaces⟩ := exists_payloadBounds_eq_cons (front ++ bytes).size rest
          rw [hplaces] at hrest
          rw [payloadBounds, payloads, ← ByteArray.size_append, hplaces, piecesBetween_cons_cons,
            ← ByteArray.append_assoc, hrest, ByteArray.size_append, Bytes.extract_middle]
          rfl

/-! ## Slots and payloads in a layout -/

theorem extract_slot_layOut
    (fixedLength : Nat) (front rest : List Part) (bytes : ByteArray) :
    (layOut fixedLength (front ++ ⟨true, bytes⟩ :: rest)).extract
        (front.map Part.slotSize).sum ((front.map Part.slotSize).sum + bytes.size) = bytes := by
  rw [layOut_around, ← size_fixedPart fixedLength front, Bytes.extract_middle]

theorem extract_payload_layOut
    {fixedLength : Nat} {front rest : List Part} {bytes : ByteArray}
    (hlength : fixedLength = ((front ++ ⟨false, bytes⟩ :: rest).map Part.slotSize).sum) :
    (layOut fixedLength (front ++ ⟨false, bytes⟩ :: rest)).extract
        (fixedLength + (payloads front).size)
        (fixedLength + (payloads front).size + bytes.size) = bytes := by
  have hpayload := Bytes.extract_middle
    (fixedPart fixedLength (front ++ ⟨false, bytes⟩ :: rest) ++ payloads front) bytes
    (payloads rest)
  rw [ByteArray.size_append, size_fixedPart, ← hlength] at hpayload
  rw [layOut_eq, payloads_append, payloads, ← ByteArray.append_assoc, ← ByteArray.append_assoc,
    hpayload]

/-! ## Appended containers -/

/-- The parts that a container of these values is laid out from. -/
def valueParts (values : List Value) : List Part :=
  values.map fun v => ⟨v.isFixed, v.encode⟩

theorem valueParts_cons (v : Value) (rest : List Value) :
    valueParts (v :: rest) = ⟨v.isFixed, v.encode⟩ :: valueParts rest :=
  rfl

theorem valueParts_append (values others : List Value) :
    valueParts (values ++ others) = valueParts values ++ valueParts others :=
  List.map_append

theorem valueParts_around
    {values before rest : List Value} {v : Value} {isFixed : Bool}
    (hvalues : values = before ++ v :: rest) (hfixed : v.isFixed = isFixed) :
    valueParts values = valueParts before ++ ⟨isFixed, v.encode⟩ :: valueParts rest := by
  rw [hvalues, valueParts_append, valueParts_cons, hfixed]

theorem appendValues_eq
    (fixedLength : Nat) (values : List Value) (front back : ByteArray) :
    appendValues fixedLength values front back =
      layOutOnto fixedLength front back (valueParts values) := by
  induction values generalizing front back with
  | nil => rfl
  | cons v rest ih =>
      rw [appendValues, v.appendTo_eq, v.appendTo_eq, ih, ih, valueParts_cons]
      cases v.isFixed <;> rfl

theorem appendContainer_eq (values : List Value) (out : ByteArray) :
    appendContainer values out = out ++ layOut (slotLengths values) (valueParts values) := by
  rw [appendContainer, appendValues_eq, layOutOnto_append]

/-- A container of values announces the bytes that it appends, and one more for each bit
vector without bits inside it. -/
theorem size_appendContainer
    {values : List Value}
    (hencodable : ∀ v ∈ values, ∃ shape, v.HasShape shape ∧ shape.Encodable) (out : ByteArray) :
    (appendContainer values out).size + emptyBitvectorsAmong values =
      out.size + containerLength values := by
  have hlength : containerLength values =
      (values.map fun v => (if v.isFixed then 0 else offsetWidth) + v.encode.size).sum +
        emptyBitvectorsAmong values := by
    rw [containerLength, ← List.foldl_map (g := (· + ·)), ← List.sum_eq_foldl]
    apply sum_map_eq_add_emptyBitvectors
    intro v hv
    obtain ⟨shape, hshape, hshapeEncodable⟩ := hencodable v hv
    rw [hshape.byteLength_eq_of_tellsSizes hshapeEncodable.tellsSizes, Nat.add_assoc]
  rw [appendContainer_eq, ByteArray.size_append, size_layOut, hlength, valueParts, List.map_map]
  exact Nat.add_assoc _ _ _

/-! ## The table -/

/-- The value appends as many bytes as it announces to take in a fixed part. -/
def Value.FillsSlot (v : Value) : Prop :=
  ∀ out, (v.appendTo out).size = out.size + v.slotLength

theorem Value.FillsSlot.slotLength_eq {v : Value} (hfills : v.FillsSlot) :
    v.slotLength = v.encode.size := by
  have hsize := hfills ByteArray.empty
  rw [v.appendTo_eq, ByteArray.size_append] at hsize
  omega

/-- The words in the slots of the fields that are not in place, the first slot being
at `start`. -/
def offsetWords (bytes : ByteArray) (start : Nat) : List Value → List Nat
  | [] => []
  | v :: rest =>
    if v.isFixed then offsetWords bytes (start + v.slotLength) rest
    else wordAt bytes start :: offsetWords bytes (start + v.slotLength) rest

/-- The bytes are a container of the values: every slot stands behind the announced
lengths of the slots in front of it and holds the field or an offset that points to it.
The offsets start behind the slots, never descend, and cut the bytes behind the slots
into the fields. -/
structure HasOffsetTable (values : List Value) (bytes : ByteArray) : Prop where
  inPlace : ∀ {before v rest}, values = before ++ v :: rest → v.isFixed →
    bytes.extract (slotLengths before) (slotLengths before + v.slotLength) = v.encode
  points : ∀ {before v rest}, values = before ++ v :: rest → v.isFixed = false →
    let position := wordAt bytes (slotLengths before)
    bytes.extract (slotLengths before) (slotLengths before + v.slotLength) =
        Bytes.littleEndian offsetWidth position ∧
      bytes.extract position (position + v.encode.size) = v.encode
  first : ∀ position ∈ (offsetWords bytes 0 values).head?, position = slotLengths values
  ascend : (offsetWords bytes 0 values ++ [bytes.size]).Pairwise (· ≤ ·)
  pieces : piecesBetween (offsetWords bytes 0 values ++ [bytes.size]) bytes =
    (values.filter (!·.isFixed)).map Value.encode

section

variable {values before rest : List Value} {v : Value} {bytes : ByteArray}
  (hslots : ∀ v ∈ values, v.isFixed → v.FillsSlot)

include hslots

theorem slotLengths_eq_sum_slotSize :
    slotLengths values = ((valueParts values).map Part.slotSize).sum := by
  rw [slotLengths_eq_sum, valueParts, List.map_map]
  congr 1
  refine List.map_congr_left fun v hv => ?_
  cases hfixed : v.isFixed with
  | true => simp [Part.slotSize, hfixed, (hslots v hv hfixed).slotLength_eq]
  | false => simp [Value.slotLength, Part.slotSize, hfixed]

theorem slotLengths_before (hvalues : values = before ++ rest) :
    slotLengths before = ((valueParts before).map Part.slotSize).sum :=
  slotLengths_eq_sum_slotSize fun v hv => hslots v (hvalues ▸ List.mem_append_left _ hv)

variable (hbytes : bytes = layOut (slotLengths values) (valueParts values))

include hbytes

theorem size_of_layOut :
    bytes.size = slotLengths values + (payloads (valueParts values)).size := by
  rw [hbytes, layOut_eq, ByteArray.size_append, size_fixedPart,
    ← slotLengths_eq_sum_slotSize hslots]

theorem extract_slot
    (hvalues : values = before ++ v :: rest) (hfixed : v.isFixed) :
    bytes.extract (slotLengths before) (slotLengths before + v.slotLength) = v.encode := by
  have hsize := (hslots v (by simp [hvalues]) hfixed).slotLength_eq
  rw [hbytes, slotLengths_before hslots hvalues, hsize, valueParts_around hvalues hfixed,
    extract_slot_layOut]

variable (hfit : bytes.size < 2 ^ 32)

include hfit

theorem wordAt_slot
    (hvalues : values = before ++ v :: rest) (hvariable : v.isFixed = false) :
    wordAt bytes (slotLengths before) =
      slotLengths values + (payloads (valueParts before)).size := by
  have hparts := valueParts_around hvalues hvariable
  have hsize := size_of_layOut hslots hbytes
  rw [hparts, payloads_append, ByteArray.size_append] at hsize
  rw [slotLengths_before hslots hvalues, hbytes, hparts, wordAt_layOut, Nat.mod_eq_of_lt]
  omega

theorem extract_offset
    (hvalues : values = before ++ v :: rest) (hvariable : v.isFixed = false) :
    let position := wordAt bytes (slotLengths before)
    bytes.extract (slotLengths before) (slotLengths before + v.slotLength) =
        Bytes.littleEndian offsetWidth position ∧
      bytes.extract position (position + v.encode.size) = v.encode := by
  have hparts := valueParts_around hvalues hvariable
  have hwidth : v.slotLength = offsetWidth := if_neg (by simp [hvariable])
  have hlength := slotLengths_eq_sum_slotSize hslots
  rw [hparts] at hlength
  rw [wordAt_slot hslots hbytes hfit hvalues hvariable, hwidth, hbytes, hparts]
  exact ⟨by rw [slotLengths_before hslots hvalues, extract_offset_layOut],
    extract_payload_layOut hlength⟩

/-- The offsets of the fields behind `before`, and the end of the container, bound the
payloads of these fields. -/
theorem offsetWords_behind (hvalues : values = before ++ rest) :
    offsetWords bytes (slotLengths before) rest ++ [bytes.size] =
      payloadBounds (slotLengths values + (payloads (valueParts before)).size)
        (valueParts rest) := by
  induction rest generalizing before with
  | nil =>
      rw [List.append_nil] at hvalues
      rw [size_of_layOut hslots hbytes, hvalues]
      rfl
  | cons v rest ih =>
      -- The field joins those in front, so that the next slot starts behind its own.
      have hnext := @ih (before ++ [v]) (by rw [hvalues, List.append_assoc]; rfl)
      have hstart : slotLengths (before ++ [v]) = slotLengths before + v.slotLength := by
        rw [slotLengths, List.foldl_append]
        rfl
      have hlast : valueParts [v] = [⟨v.isFixed, v.encode⟩] := rfl
      rw [hstart, valueParts_append, payloads_append, hlast, ByteArray.size_append,
        ← Nat.add_assoc] at hnext
      rw [offsetWords, valueParts_cons]
      cases hfixed : v.isFixed with
      | true =>
          rw [hfixed] at hnext
          exact hnext
      | false =>
          rw [hfixed, payloads, payloads, ByteArray.append_empty] at hnext
          rw [if_neg Bool.false_ne_true, List.cons_append, payloadBounds,
            wordAt_slot hslots hbytes hfit hvalues hfixed, hnext]

theorem hasOffsetTable_of_layOut : HasOffsetTable values bytes := by
  have hwords : offsetWords bytes 0 values ++ [bytes.size] =
      payloadBounds (slotLengths values) (valueParts values) :=
    offsetWords_behind hslots hbytes hfit (List.nil_append values).symm
  refine ⟨extract_slot hslots hbytes, extract_offset hslots hbytes hfit, ?_, ?_, ?_⟩
  · obtain ⟨places, hplaces⟩ := exists_payloadBounds_eq_cons (slotLengths values) (valueParts values)
    rw [hplaces] at hwords
    intro position hposition
    cases hoffsets : offsetWords bytes 0 values with
    | nil => simp [hoffsets] at hposition
    | cons offset offsets =>
        rw [hoffsets, List.cons_append, List.cons.injEq] at hwords
        rw [hoffsets, List.head?_cons, Option.mem_some_iff] at hposition
        exact hposition.symm.trans hwords.1
  · rw [hwords]
    exact payloadBounds_ascend _ _
  · have hpieces := piecesBetween_payloadBounds
      (fixedPart (slotLengths values) (valueParts values)) (valueParts values)
    rw [size_fixedPart, ← slotLengths_eq_sum_slotSize hslots, ← layOut_eq, ← hbytes,
      ← hwords] at hpieces
    rw [hpieces, valueParts, List.filter_map, List.map_map]
    rfl

end

/-- A container of values whose fields in place fill their slots is appended behind what
stands in the buffer, with a table that is right.  The announced length exceeds the
appended bytes by one for each bit vector without bits. -/
theorem appendContainer_hasOffsetTable
    {values : List Value}
    (hencodable : ∀ v ∈ values, ∃ shape, v.HasShape shape ∧ shape.Encodable)
    (hslots : ∀ v ∈ values, v.isFixed → v.FillsSlot) (out : ByteArray)
    (hfit : (appendContainer values out).size < out.size + 2 ^ 32) :
    ∃ written, appendContainer values out = out ++ written ∧
      containerLength values = written.size + emptyBitvectorsAmong values ∧
      HasOffsetTable values written := by
  have hsize := size_appendContainer hencodable out
  rw [appendContainer_eq, ByteArray.size_append] at hsize hfit
  exact ⟨_, appendContainer_eq values out, by omega,
    hasOffsetTable_of_layOut hslots rfl (by omega)⟩

/-- Fields one of which holds a bit vector that has no bits. -/
def bareFields : List Value :=
  [.uint 8 3, bareAttestation, .byteList 4 ⟨#[1, 2]⟩]

theorem encodable_bareFields :
    ∀ v ∈ bareFields, ∃ shape, v.HasShape shape ∧ shape.Encodable := by
  unfold bareFields
  rw [List.forall_mem_cons, List.forall_mem_cons, List.forall_mem_singleton]
  exact ⟨⟨_, .uint (by decide), .uint 8⟩,
    ⟨_, hasShape_bareAttestation, encodable_attestationElectra⟩,
    ⟨_, .byteList (by decide), .byteList⟩⟩

theorem fillsSlot_bareFields : ∀ v ∈ bareFields, v.isFixed → v.FillsSlot := by
  unfold bareFields
  rw [List.forall_mem_cons, List.forall_mem_cons, List.forall_mem_singleton]
  refine ⟨fun _ out => ?_, fun hfixed => absurd hfixed (by decide),
    fun hfixed => absurd hfixed (by decide)⟩
  rw [Value.appendTo_eq, ByteArray.size_append]
  rfl

theorem size_appendContainer_bareFields (out : ByteArray) :
    (appendContainer bareFields out).size = out.size + 247 := by
  have hsize := size_appendContainer encodable_bareFields out
  have hlength : containerLength bareFields = 248 := rfl
  have hempty : emptyBitvectorsAmong bareFields = 1 := rfl
  omega

theorem appendContainer_bareFields :
    ∃ written, appendContainer bareFields ⟨#[7, 7]⟩ = ⟨#[7, 7]⟩ ++ written ∧
      written.size = 247 ∧ HasOffsetTable bareFields written := by
  have hsize := size_appendContainer_bareFields ⟨#[7, 7]⟩
  obtain ⟨written, hwritten, -, htable⟩ :=
    appendContainer_hasOffsetTable encodable_bareFields fillsSlot_bareFields ⟨#[7, 7]⟩ (by omega)
  rw [hwritten, ByteArray.size_append] at hsize
  exact ⟨written, hwritten, by omega, htable⟩

/-- A container that appends one byte less than it announces. -/
theorem not_forall_size_appendContainer_eq :
    ¬ ∀ (values : List Value) (out : ByteArray),
      (∀ v ∈ values, ∃ shape, v.HasShape shape ∧ shape.Encodable) →
      (∀ v ∈ values, v.isFixed → v.FillsSlot) →
      (appendContainer values out).size < out.size + 2 ^ 32 →
      (appendContainer values out).size = out.size + containerLength values := by
  intro hexact
  have hsize := size_appendContainer_bareFields ⟨#[7, 7]⟩
  have hannounced := hexact bareFields ⟨#[7, 7]⟩ encodable_bareFields fillsSlot_bareFields
    (by omega)
  have hlength : containerLength bareFields = 248 := rfl
  omega

end Ssz
end GenesisForge
