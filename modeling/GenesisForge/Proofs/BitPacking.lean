import GenesisForge.Proofs.ByteStrings
import GenesisForge.Ssz.Bits
import Mathlib.Data.List.GetD

/-!
# Packed bits

The bit at index `i` of a collection stands in place `i % 8` of byte `i / 8` of
its packed form, and the places behind the last bit are zero.  A bit vector is
therefore known from its packed form and its length; a bit list needs no length,
since the last one bit of its packed form marks the end.
-/

namespace GenesisForge
namespace Ssz

theorem size_pack (bits : List Bool) :
    (Bits.pack bits).size = (bits.length + 7) / 8 := by
  have hcount : ∀ count (bits : List Bool) (out : ByteArray),
      (Bits.appendPacked count bits out).size = out.size + count := by
    intro count
    induction count with
    | zero => intro bits out; rfl
    | succ count ih =>
        intro bits out
        rw [Bits.appendPacked, ih, ByteArray.size_push]
        omega
  simp [Bits.pack, hcount]

theorem size_packWithEnd (bits : List Bool) :
    (Bits.packWithEnd bits).size = bits.length / 8 + 1 := by
  rw [Bits.packWithEnd, size_pack, List.length_append, List.length_singleton]
  omega

namespace Bits

/-- The bit at an index of packed bytes, zero behind their end. -/
def bitAt (bytes : ByteArray) (index : Nat) : Bool :=
  (bytes.data.getD (index / 8) 0).toNat.testBit (index % 8)

theorem toNat_byteOf_cons
    (bit : Bool) {rest : List Bool} (hrest : rest.length < 8)
    (hlt : (byteOf rest).toNat < 2 ^ rest.length) :
    (byteOf (bit :: rest)).toNat = 2 * (byteOf rest).toNat + bit.toNat := by
  have hpow : 2 ^ rest.length ≤ 2 ^ 7 :=
    Nat.pow_le_pow_right (by decide) (by omega)
  have hcons : byteOf (bit :: rest) = 2 * byteOf rest + if bit then 1 else 0 := rfl
  rw [hcons, UInt8.toNat_add, UInt8.toNat_mul]
  cases bit <;> simp <;> omega

theorem toNat_byteOf_lt
    {bits : List Bool} (hbits : bits.length ≤ 8) :
    (byteOf bits).toNat < 2 ^ bits.length := by
  induction bits with
  | nil => decide
  | cons bit rest ih =>
      rw [List.length_cons] at hbits ⊢
      have hrest := ih (by omega)
      have hbit := Bool.toNat_lt bit
      rw [toNat_byteOf_cons bit (by omega) hrest, Nat.pow_succ]
      omega

theorem testBit_byteOf
    {bits : List Bool} (hbits : bits.length ≤ 8) (place : Nat) :
    (byteOf bits).toNat.testBit place = bits.getD place false := by
  induction bits generalizing place with
  | nil => simp [byteOf]
  | cons bit rest ih =>
      rw [List.length_cons] at hbits
      rw [toNat_byteOf_cons bit (by omega) (toNat_byteOf_lt (by omega))]
      cases place with
      | zero => cases bit <;> simp [Nat.testBit_zero, Nat.add_mod]
      | succ place =>
          have hhalf : (2 * (byteOf rest).toNat + bit.toNat) / 2 =
              (byteOf rest).toNat := by
            have hbit := Bool.toNat_lt bit
            omega
          rw [Nat.testBit_succ, hhalf, ih (by omega), List.getD_cons_succ]

theorem appendPacked_eq (count : Nat) (bits : List Bool) (out : ByteArray) :
    appendPacked count bits out =
      out ++ appendPacked count bits ByteArray.empty := by
  induction count generalizing bits out with
  | zero => simp [appendPacked]
  | succ count ih =>
      rw [appendPacked, appendPacked, ih _ (out.push _),
        ih _ (ByteArray.empty.push _), ← ByteArray.append_assoc]
      congr 1
      ext1
      simp

theorem bitAt_push_append (byte : UInt8) (rest : ByteArray) (index : Nat) :
    bitAt (ByteArray.empty.push byte ++ rest) index =
      if index < 8 then byte.toNat.testBit index else bitAt rest (index - 8) := by
  unfold bitAt
  by_cases hindex : index < 8
  · have hdiv : index / 8 = 0 := by omega
    have hmod : index % 8 = index := by omega
    simp [hindex, hdiv, hmod, Array.getD_eq_getD_getElem?]
  · have hdiv : index / 8 = (index - 8) / 8 + 1 := by omega
    have hmod : index % 8 = (index - 8) % 8 := by omega
    rw [if_neg hindex, hdiv, hmod]
    simp [Array.getD_eq_getD_getElem?, Array.getElem?_append]

theorem bitAt_appendPacked
    (count : Nat) {bits : List Bool} (hbits : bits.length ≤ 8 * count)
    (index : Nat) :
    bitAt (appendPacked count bits ByteArray.empty) index =
      bits.getD index false := by
  induction count generalizing bits index with
  | zero =>
      have hnil : bits = [] := List.eq_nil_of_length_eq_zero (by omega)
      simp [hnil, appendPacked, bitAt]
  | succ count ih =>
      rw [appendPacked, appendPacked_eq, bitAt_push_append]
      by_cases hindex : index < 8
      · rw [if_pos hindex, testBit_byteOf (by simp)]
        simp [List.getD_eq_getElem?_getD, hindex]
      · rw [if_neg hindex, ih (by rw [List.length_drop]; omega)]
        have hback : 8 + (index - 8) = index := by omega
        simp [List.getD_eq_getElem?_getD, hback]

theorem bitAt_pack (bits : List Bool) (index : Nat) :
    bitAt (pack bits) index = bits.getD index false :=
  bitAt_appendPacked _ (by omega) index

theorem pack_injective
    {as bs : List Bool} (hlength : as.length = bs.length)
    (hpack : pack as = pack bs) : as = bs := by
  apply List.ext_getElem hlength
  intro i ha hb
  have hbit := bitAt_pack as i
  rw [hpack, bitAt_pack, List.getD_eq_getElem _ _ ha,
    List.getD_eq_getElem _ _ hb] at hbit
  exact hbit.symm

theorem bitAt_packWithEnd {bits : List Bool} {index : Nat} (hindex : index < bits.length) :
    bitAt (packWithEnd bits) index = bits[index] := by
  rw [packWithEnd, bitAt_pack, List.getD_append _ _ _ _ hindex, List.getD_eq_getElem _ _ hindex]

/-! ## Bits in front of the end -/

/-- The last byte, zero if there is none. -/
def lastByte (bytes : ByteArray) : UInt8 :=
  bytes.data.getD (bytes.size - 1) 0

/-- The bits in front of the highest one bit of the last byte. -/
def unpackWithEnd (bytes : ByteArray) : List Bool :=
  (List.range (8 * (bytes.size - 1) + (lastByte bytes).toNat.log2)).map (bitAt bytes)

theorem testBit_behind (byte : UInt8) {place : Nat} (hplace : 8 ≤ place) :
    byte.toNat.testBit place = false := by
  apply Nat.testBit_lt_two_pow
  exact Nat.lt_of_lt_of_le byte.toNat_lt (Nat.pow_le_pow_right (by decide) hplace)

theorem testBit_lastByte_packWithEnd (bits : List Bool) {place : Nat} (hplace : place < 8) :
    (lastByte (packWithEnd bits)).toNat.testBit place =
      (bits ++ [true]).getD (8 * (bits.length / 8) + place) false := by
  have hbit := bitAt_pack (bits ++ [true]) (8 * (bits.length / 8) + place)
  have hbyte : (8 * (bits.length / 8) + place) / 8 = bits.length / 8 := by omega
  have hmod : (8 * (bits.length / 8) + place) % 8 = place := by omega
  rw [bitAt, hbyte, hmod] at hbit
  rw [lastByte, size_packWithEnd, Nat.add_sub_cancel]
  exact hbit

/-- The highest one bit of the last byte marks the end. -/
theorem lastByte_packWithEnd (bits : List Bool) :
    lastByte (packWithEnd bits) ≠ 0 ∧
      (lastByte (packWithEnd bits)).toNat.log2 = bits.length % 8 := by
  have hlt := Nat.mod_lt bits.length (by decide : 8 > 0)
  have hplace : 8 * (bits.length / 8) + bits.length % 8 = bits.length := by omega
  have hend : (lastByte (packWithEnd bits)).toNat.testBit (bits.length % 8) := by
    rw [testBit_lastByte_packWithEnd bits hlt, hplace, List.getD_eq_getElem _ _ (by simp)]
    simp
  have hlow := Nat.ge_two_pow_of_testBit hend
  have hhigh : (lastByte (packWithEnd bits)).toNat < 2 ^ (bits.length % 8 + 1) := by
    apply Nat.lt_pow_two_of_testBit
    intro place hbehind
    by_cases hwide : place < 8
    · rw [testBit_lastByte_packWithEnd bits hwide]
      apply List.getD_eq_default
      rw [List.length_append, List.length_singleton]
      omega
    · exact testBit_behind _ (Nat.not_lt.mp hwide)
  have hpos : (lastByte (packWithEnd bits)).toNat ≠ 0 := by
    have hpow := Nat.two_pow_pos (bits.length % 8)
    omega
  constructor
  · intro hzero
    exact hpos (by rw [hzero]; rfl)
  · exact (Nat.log2_eq_iff hpos).mpr ⟨hlow, hhigh⟩

theorem unpackWithEnd_packWithEnd (bits : List Bool) :
    unpackWithEnd (packWithEnd bits) = bits := by
  have hlength : 8 * ((packWithEnd bits).size - 1) +
      (lastByte (packWithEnd bits)).toNat.log2 = bits.length := by
    rw [(lastByte_packWithEnd bits).2, size_packWithEnd]
    omega
  rw [unpackWithEnd, hlength]
  apply List.ext_getElem (by simp)
  intro index _ hindex
  rw [List.getElem_map, List.getElem_range, bitAt_packWithEnd hindex]

theorem packWithEnd_injective
    {as bs : List Bool} (hpack : packWithEnd as = packWithEnd bs) : as = bs := by
  rw [← unpackWithEnd_packWithEnd as, hpack, unpackWithEnd_packWithEnd]

end Bits
end Ssz
end GenesisForge
