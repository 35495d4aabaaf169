import GenesisForge.Proofs.AppendedBytes
import Mathlib.Data.List.Induction

/-!
# Bits after edits

A bit is written in the byte that holds it, with the other bits of that byte as they
are.  The places behind the last bit belong to no index, so no edit reaches them: the
bytes of a collection are those of its bits after any edits, and the mark of the end
of a bit list falls on a zero.
-/

namespace GenesisForge
namespace Ssz

structure BitEdit where
  index : Nat
  bit : Bool

namespace Bits

def edited (edits : List BitEdit) (bits : List Bool) : List Bool :=
  edits.foldl (fun bits e => bits.set e.index e.bit) bits

/-- The bit that the last of the edits at an index writes. -/
def lastWritten? (edits : List BitEdit) (index : Nat) : Option Bool :=
  (edits.reverse.find? fun e => e.index = index).map BitEdit.bit

theorem edited_concat (edits : List BitEdit) (e : BitEdit) (bits : List Bool) :
    edited (edits ++ [e]) bits = (edited edits bits).set e.index e.bit := by
  unfold edited
  rw [List.foldl_concat]

theorem lastWritten?_concat (edits : List BitEdit) (e : BitEdit) (index : Nat) :
    lastWritten? (edits ++ [e]) index =
      if e.index = index then some e.bit else lastWritten? edits index := by
  unfold lastWritten?
  rw [List.reverse_append, List.reverse_singleton, List.singleton_append, List.find?_cons]
  by_cases hindex : e.index = index
  · simp [hindex]
  · simp [hindex]

@[simp] theorem length_edited (edits : List BitEdit) (bits : List Bool) :
    (edited edits bits).length = bits.length := by
  induction edits using List.reverseRecOn with
  | nil => rfl
  | append_singleton edits e ih => rw [edited_concat, List.length_set, ih]

theorem getElem?_edited (edits : List BitEdit) (bits : List Bool) (index : Nat) :
    (edited edits bits)[index]? =
      bits[index]?.map fun initial => (lastWritten? edits index).getD initial := by
  induction edits using List.reverseRecOn with
  | nil => simp [edited, lastWritten?]
  | append_singleton edits e ih =>
      rw [edited_concat, List.getElem?_set, lastWritten?_concat, length_edited]
      by_cases hindex : e.index = index
      · subst hindex
        by_cases hrange : e.index < bits.length
        · simp [hrange]
        · simp [hrange]
      · rw [if_neg hindex, if_neg hindex, ih]

/-! ## Edits in place -/

def withBit (byte : UInt8) (place : Nat) (bit : Bool) : UInt8 :=
  if bit then byte ||| 1 <<< place.toUInt8 else byte &&& ~~~ (1 <<< place.toUInt8)

/-- Writes a bit in its byte if it is one of `length` bits. -/
def putBit (length : Nat) (bytes : ByteArray) (e : BitEdit) : ByteArray :=
  if e.index < length then
    bytes.set! (e.index / 8) (withBit (bytes.get! (e.index / 8)) (e.index % 8) e.bit)
  else bytes

theorem size_putBit (length : Nat) (bytes : ByteArray) (e : BitEdit) :
    (putBit length bytes e).size = bytes.size := by
  unfold putBit
  split
  · exact Array.size_setIfInBounds
  · rfl

theorem testBit_not {byte : UInt8} {place : Nat} (hplace : place < 8) :
    (~~~ byte).toNat.testBit place = !byte.toNat.testBit place := by
  have hsub : UInt8.size - 1 - byte.toNat = 2 ^ 8 - (byte.toNat + 1) := by
    have hsize : UInt8.size = 2 ^ 8 := rfl
    omega
  rw [UInt8.toNat_not, hsub, Nat.testBit_two_pow_sub_succ byte.toNat_lt]
  simp [hplace]

theorem testBit_withBit {place other : Nat} (hplace : place < 8) (hother : other < 8)
    (byte : UInt8) (bit : Bool) :
    (withBit byte place bit).toNat.testBit other =
      if other = place then bit else byte.toNat.testBit other := by
  unfold withBit
  cases bit with
  | true =>
      rw [if_pos rfl, UInt8.toNat_or, Nat.testBit_or, toNat_one_shiftLeft hplace,
        Nat.testBit_two_pow]
      by_cases hsame : other = place
      · simp [hsame]
      · simp [hsame, Ne.symm hsame]
  | false =>
      rw [if_neg Bool.false_ne_true, UInt8.toNat_and, Nat.testBit_and, testBit_not hother,
        toNat_one_shiftLeft hplace, Nat.testBit_two_pow]
      by_cases hsame : other = place
      · simp [hsame]
      · simp [hsame, Ne.symm hsame]

theorem bitAt_putBit {length : Nat} {bytes : ByteArray} {e : BitEdit}
    (hindex : e.index < length) (hroom : length ≤ 8 * bytes.size) (index : Nat) :
    bitAt (putBit length bytes e) index =
      if index = e.index then e.bit else bitAt bytes index := by
  have hbyte : e.index / 8 < bytes.data.size := by
    have hsize : bytes.data.size = bytes.size := rfl
    omega
  have hget : bytes.get! (e.index / 8) = bytes.data.getD (e.index / 8) 0 :=
    Array.getElem!_eq_getD
  have hput : (putBit length bytes e).data = bytes.data.setIfInBounds (e.index / 8)
      (withBit (bytes.data.getD (e.index / 8) 0) (e.index % 8) e.bit) := by
    rw [putBit, if_pos hindex, hget]
    rfl
  have hat : (putBit length bytes e).data.getD (index / 8) 0 =
      if e.index / 8 = index / 8 then withBit (bytes.data.getD (index / 8) 0) (e.index % 8) e.bit
      else bytes.data.getD (index / 8) 0 := by
    rw [hput, Array.getD_eq_getD_getElem?, Array.getElem?_setIfInBounds]
    by_cases hsame : e.index / 8 = index / 8
    · rw [if_pos hsame, if_pos hsame, if_pos hbyte, Option.getD_some, hsame]
    · rw [if_neg hsame, if_neg hsame, Array.getD_eq_getD_getElem?]
  unfold bitAt
  rw [hat]
  by_cases hsame : e.index / 8 = index / 8
  · rw [if_pos hsame, testBit_withBit (Nat.mod_lt _ (by decide)) (Nat.mod_lt _ (by decide))]
    have hiff : index % 8 = e.index % 8 ↔ index = e.index := by omega
    simp only [hiff]
  · have hne : index ≠ e.index := by
      intro heq
      exact hsame (by rw [heq])
    rw [if_neg hsame, if_neg hne]

theorem eq_of_bitAt_eq {as bs : ByteArray} (hsize : as.size = bs.size)
    (hbits : ∀ index, bitAt as index = bitAt bs index) : as = bs := by
  apply ByteArray.ext
  apply Array.ext hsize
  intro i ha hb
  rw [← UInt8.toNat_inj]
  apply Nat.eq_of_testBit_eq
  intro place
  by_cases hplace : place < 8
  · have hbit := hbits (8 * i + place)
    have hbyte : (8 * i + place) / 8 = i := by omega
    have hmod : (8 * i + place) % 8 = place := by omega
    rw [bitAt, bitAt, hbyte, hmod, Array.getD_eq_getD_getElem?, Array.getD_eq_getD_getElem?,
      Array.getElem?_eq_getElem ha, Array.getElem?_eq_getElem hb] at hbit
    exact hbit
  · rw [testBit_behind _ (Nat.not_lt.mp hplace), testBit_behind _ (Nat.not_lt.mp hplace)]

theorem putBit_pack (bits : List Bool) (e : BitEdit) :
    putBit bits.length (pack bits) e = pack (bits.set e.index e.bit) := by
  by_cases hindex : e.index < bits.length
  · apply eq_of_bitAt_eq
    · rw [size_putBit, size_pack, size_pack, List.length_set]
    · intro index
      rw [bitAt_putBit hindex (by rw [size_pack]; omega), bitAt_pack, bitAt_pack,
        List.getD_eq_getElem?_getD, List.getD_eq_getElem?_getD, List.getElem?_set]
      by_cases hsame : index = e.index
      · simp [hsame, hindex]
      · simp [hsame, Ne.symm hsame]
  · rw [putBit, if_neg hindex, List.set_eq_of_length_le (Nat.not_lt.mp hindex)]

theorem foldl_putBit_pack (edits : List BitEdit) (bits : List Bool) :
    edits.foldl (putBit bits.length) (pack bits) = pack (edited edits bits) := by
  induction edits using List.reverseRecOn with
  | nil => rfl
  | append_singleton edits e ih =>
      have hstep := putBit_pack (edited edits bits) e
      rw [length_edited] at hstep
      rw [List.foldl_concat, ih, hstep, edited_concat]

end Bits

/-! ## Collections -/

section

variable {σ : Type}

def editedBy (set : σ → Nat → Bool → Option Bool × σ) (edits : List BitEdit) (s : σ) : σ :=
  edits.foldl (fun s e => (set s e.index e.bit).2) s

/-- Collections that read and write the list of their bits. -/
structure KeepsBits (bits : σ → List Bool) (get? : σ → Nat → Option Bool)
    (set : σ → Nat → Bool → Option Bool × σ) : Prop where
  get?_eq : ∀ s index, get? s index = (bits s)[index]?
  answer_eq : ∀ s index bit, (set s index bit).1 = get? s index
  bits_set : ∀ s index bit, bits (set s index bit).2 = (bits s).set index bit
  set_eq_self : ∀ s index bit, (bits s).set index bit = bits s → (set s index bit).2 = s

/-- What a collection `s` answers that held `initial` before the edits: every bit is the
one last written to its index, a write answers the bit that it replaces, and behind the
last bit it answers nothing and changes nothing. -/
structure AnswersEdited (get? : σ → Nat → Option Bool)
    (set : σ → Nat → Bool → Option Bool × σ) (initial : List Bool) (edits : List BitEdit)
    (s : σ) : Prop where
  get?_eq : ∀ index, get? s index =
    initial[index]?.map fun bit => (Bits.lastWritten? edits index).getD bit
  answer_eq : ∀ index bit, (set s index bit).1 = get? s index
  answer_eq_none_iff : ∀ index bit, (set s index bit).1 = none ↔ initial.length ≤ index
  set_outside : ∀ index bit, initial.length ≤ index → (set s index bit).2 = s

variable {bits : σ → List Bool} {get? : σ → Nat → Option Bool}
  {set : σ → Nat → Bool → Option Bool × σ} (hkeeps : KeepsBits bits get? set)

include hkeeps

theorem KeepsBits.bits_editedBy (edits : List BitEdit) (s : σ) :
    bits (editedBy set edits s) = Bits.edited edits (bits s) := by
  induction edits generalizing s with
  | nil => rfl
  | cons e edits ih =>
      have hrest := ih (set s e.index e.bit).2
      rw [hkeeps.bits_set] at hrest
      exact hrest

theorem KeepsBits.answersEdited (edits : List BitEdit) (s : σ) :
    AnswersEdited get? set (bits s) edits (editedBy set edits s) := by
  have hbits := hkeeps.bits_editedBy edits s
  have hlength : (bits (editedBy set edits s)).length = (bits s).length := by
    rw [hbits, Bits.length_edited]
  constructor
  · intro index
    rw [hkeeps.get?_eq, hbits, Bits.getElem?_edited]
  · intro index bit
    exact hkeeps.answer_eq _ index bit
  · intro index bit
    rw [hkeeps.answer_eq, hkeeps.get?_eq, List.getElem?_eq_none_iff, hlength]
  · intro index bit houtside
    apply hkeeps.set_eq_self
    exact List.set_eq_of_length_le (hlength.trans_le houtside)

end

theorem Bitvector.keepsBits : KeepsBits Bitvector.bits Bitvector.get? Bitvector.set := by
  constructor
  · intro v index
    rfl
  · intro v index bit
    rfl
  · intro v index bit
    rfl
  · intro v index bit hsame
    rw [Bitvector.set, hsame]

theorem Bitlist.eq_of_bits_eq {l other : Bitlist}
    (hbits : l.bits = other.bits) (hlimit : l.limit = other.limit) : l = other := by
  cases l
  cases other
  cases hbits
  cases hlimit
  rfl

theorem Bitlist.keepsBits : KeepsBits Bitlist.bits Bitlist.get? Bitlist.set := by
  constructor
  · intro l index
    rfl
  · intro l index bit
    rfl
  · intro l index bit
    rfl
  · intro l index bit hsame
    exact Bitlist.eq_of_bits_eq hsame rfl

/-- Bytes that hold `length` bits, the first of a byte in its lowest place, and zeros
behind them. -/
structure HoldsBits (bytes : ByteArray) (length : Nat) (get? : Nat → Option Bool) : Prop where
  size_eq : bytes.size = (length + 7) / 8
  bit_eq : ∀ index < length, get? index = some (Bits.bitAt bytes index)
  padding_eq : ∀ index, length ≤ index → Bits.bitAt bytes index = false

theorem holdsBits_pack (bits : List Bool) :
    HoldsBits (Bits.pack bits) bits.length fun index => bits[index]? := by
  refine ⟨size_pack bits, ?_, ?_⟩
  · intro index hindex
    rw [Bits.bitAt_pack, List.getElem?_eq_getElem hindex, List.getD_eq_getElem _ _ hindex]
  · intro index hbehind
    rw [Bits.bitAt_pack, List.getD_eq_default _ _ hbehind]

/-- Bytes whose last one is not zero, and whose highest one bit stands right behind
`bits`. -/
structure EndsBits (bytes : ByteArray) (bits : List Bool) : Prop where
  size_eq : bytes.size = bits.length / 8 + 1
  last_ne : Bits.lastByte bytes ≠ 0
  unpack_eq : Bits.unpackWithEnd bytes = bits

theorem endsBits_packWithEnd (bits : List Bool) : EndsBits (Bits.packWithEnd bits) bits :=
  ⟨size_packWithEnd bits, (Bits.lastByte_packWithEnd bits).1, Bits.unpackWithEnd_packWithEnd bits⟩

/-- A bit vector of `length` bits that were unset before the edits. -/
structure IsEditedVector (v : Bitvector) (length : Nat) (edits : List BitEdit) : Prop where
  answers : AnswersEdited Bitvector.get? Bitvector.set (List.replicate length false) edits v
  encoded : HoldsBits (Serializable.toValue v).encode length v.get?
  inPlace : (Serializable.toValue v).encode =
    edits.foldl (Bits.putBit length) (Bits.pack (List.replicate length false))

/-- A bit list that was `bits` before the edits. -/
structure IsEditedList (l : Bitlist) (bits : List Bool) (edits : List BitEdit) : Prop where
  answers : AnswersEdited Bitlist.get? Bitlist.set bits edits l
  length_eq : l.bits.length = bits.length
  appended : ∀ out, ∃ written,
    (Serializable.toValue l).appendTo out = out ++ written ∧ EndsBits written l.bits
  inPlace : Bits.pack l.bits = edits.foldl (Bits.putBit bits.length) (Bits.pack bits)
  eq_of_encode_eq : ∀ other : Bitlist, other.limit = l.limit →
    (Serializable.toValue other).encode = (Serializable.toValue l).encode → other = l

theorem isEditedVector_unset (length : Nat) (edits : List BitEdit) :
    IsEditedVector (editedBy Bitvector.set edits (.unset length)) length edits := by
  have hbits : (editedBy Bitvector.set edits (.unset length)).bits =
      Bits.edited edits (List.replicate length false) :=
    Bitvector.keepsBits.bits_editedBy edits _
  have hlength : (editedBy Bitvector.set edits (.unset length)).bits.length = length := by
    rw [hbits, Bits.length_edited, List.length_replicate]
  have hencode : (Serializable.toValue (editedBy Bitvector.set edits (.unset length))).encode =
      Bits.pack (editedBy Bitvector.set edits (.unset length)).bits := rfl
  constructor
  · exact Bitvector.keepsBits.answersEdited edits _
  · have hholds := holdsBits_pack (editedBy Bitvector.set edits (.unset length)).bits
    rw [hlength] at hholds
    exact hholds
  · have hput := Bits.foldl_putBit_pack edits (List.replicate length false)
    rw [List.length_replicate] at hput
    rw [hencode, hbits, hput]

theorem Bitlist.isEditedList (l : Bitlist) (edits : List BitEdit) :
    IsEditedList (editedBy Bitlist.set edits l) l.bits edits := by
  constructor
  · exact Bitlist.keepsBits.answersEdited edits l
  · rw [Bitlist.keepsBits.bits_editedBy, Bits.length_edited]
  · intro out
    exact ⟨_, Value.appendTo_eq _ out, endsBits_packWithEnd _⟩
  · rw [Bitlist.keepsBits.bits_editedBy, Bits.foldl_putBit_pack]
  · intro other hlimit hencode
    apply Bitlist.eq_of_bits_eq
    · exact Bits.packWithEnd_injective hencode
    · exact hlimit

/-- After any edits, a bit vector and a bit list answer for the bits last written, and
their bytes hold exactly these bits. -/
theorem edits_are_encoded
    {limit : Nat} {bits : List Bool} (hlimit : bits.length ≤ limit)
    (length : Nat) (edits : List BitEdit) :
    IsEditedVector (editedBy Bitvector.set edits (.unset length)) length edits ∧
      ∃ l, Bitlist.ofBits? limit bits = some l ∧
        IsEditedList (editedBy Bitlist.set edits l) bits edits := by
  refine ⟨isEditedVector_unset length edits, ⟨bits, limit, hlimit⟩, ?_, ?_⟩
  · exact dif_pos hlimit
  · exact Bitlist.isEditedList ⟨bits, limit, hlimit⟩ edits

theorem edits_are_encoded_threeBits :
    [true, false, true].length ≤ 4 ∧
      ∃ l, Bitlist.ofBits? 4 [true, false, true] = some l ∧
        ∃ written, (Serializable.toValue
            (editedBy Bitlist.set [⟨1, true⟩, ⟨3, true⟩, ⟨0, false⟩] l)).appendTo ⟨#[7]⟩ =
          ⟨#[7]⟩ ++ written ∧ Bits.unpackWithEnd written = [false, true, true] := by
  have hlimit : [true, false, true].length ≤ 4 := by decide
  obtain ⟨-, l, hl, hedited⟩ :=
    edits_are_encoded hlimit 0 [⟨1, true⟩, ⟨3, true⟩, ⟨0, false⟩]
  obtain ⟨written, hwritten, hends⟩ := hedited.appended ⟨#[7]⟩
  refine ⟨hlimit, l, hl, written, hwritten, ?_⟩
  obtain rfl : l = ⟨[true, false, true], 4, hlimit⟩ := Option.some.inj (hl.symm.trans rfl)
  rw [hends.unpack_eq]
  rfl

end Ssz
end GenesisForge
