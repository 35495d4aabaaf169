import GenesisForge.Proofs.ByteStrings
import GenesisForge.Ssz.Encode
import Mathlib.Data.List.Forall2

/-!
# The layout of encoded containers

An encoded container is a fixed part followed by its payloads.  The encoder
builds both at once in two accumulators; here they are two functions of the
parts, and the accumulators are shown to add nothing to them.

The offsets of a fixed part tell where each payload ends.  So two lists of parts
that reserve slots of the same kinds and sizes and are laid out as the same
bytes are the same lists, whatever length the fixed part was taken to have.
-/

namespace GenesisForge
namespace Ssz

/-- The slots of the parts, the first payload standing at `position`. -/
def fixedPart (position : Nat) : List Part → ByteArray
  | [] => ByteArray.empty
  | ⟨true, bytes⟩ :: rest => bytes ++ fixedPart position rest
  | ⟨false, bytes⟩ :: rest =>
      Bytes.littleEndian offsetWidth position ++
        fixedPart (position + bytes.size) rest

def payloads : List Part → ByteArray
  | [] => ByteArray.empty
  | ⟨true, _⟩ :: rest => payloads rest
  | ⟨false, bytes⟩ :: rest => bytes ++ payloads rest

def Part.slotSize (part : Part) : Nat :=
  if part.isFixed then part.bytes.size else offsetWidth

theorem layOutOnto_eq
    (fixedLength : Nat) (front back : ByteArray) (parts : List Part) :
    layOutOnto fixedLength front back parts =
      front ++ fixedPart (fixedLength + back.size) parts ++
        (back ++ payloads parts) := by
  induction parts generalizing front back with
  | nil => simp [layOutOnto, fixedPart, payloads]
  | cons part rest ih =>
      obtain ⟨isFixed, bytes⟩ := part
      cases isFixed with
      | true =>
          rw [layOutOnto, ih, fixedPart, payloads]
          simp only [ByteArray.append_assoc]
      | false =>
          rw [layOutOnto, ih, fixedPart, payloads,
            Bytes.appendLittleEndian_eq, ByteArray.size_append, Nat.add_assoc]
          simp only [ByteArray.append_assoc]

theorem layOut_eq (fixedLength : Nat) (parts : List Part) :
    layOut fixedLength parts = fixedPart fixedLength parts ++ payloads parts := by
  simp [layOut, layOutOnto_eq]

theorem payloads_append (parts others : List Part) :
    payloads (parts ++ others) = payloads parts ++ payloads others := by
  induction parts with
  | nil => simp [payloads]
  | cons part rest ih =>
      obtain ⟨isFixed, bytes⟩ := part
      cases isFixed <;> simp [payloads, ih, ByteArray.append_assoc]

theorem fixedPart_append (position : Nat) (parts others : List Part) :
    fixedPart position (parts ++ others) =
      fixedPart position parts ++
        fixedPart (position + (payloads parts).size) others := by
  induction parts generalizing position with
  | nil => simp [fixedPart, payloads]
  | cons part rest ih =>
      obtain ⟨isFixed, bytes⟩ := part
      cases isFixed <;>
        simp [fixedPart, payloads, ih, ByteArray.append_assoc, Nat.add_assoc]

theorem size_fixedPart (position : Nat) (parts : List Part) :
    (fixedPart position parts).size = (parts.map Part.slotSize).sum := by
  induction parts generalizing position with
  | nil => rfl
  | cons part rest ih =>
      obtain ⟨isFixed, bytes⟩ := part
      cases isFixed <;>
        simp [fixedPart, Part.slotSize, ih, Bytes.size_littleEndian]

theorem payloads_of_inPlace
    {parts : List Part} (hfixed : ∀ part ∈ parts, part.isFixed) :
    payloads parts = ByteArray.empty := by
  induction parts with
  | nil => rfl
  | cons part rest ih =>
      rw [List.forall_mem_cons] at hfixed
      obtain ⟨isFixed, bytes⟩ := part
      obtain rfl : isFixed = true := hfixed.1
      rw [payloads, ih hfixed.2]

theorem fixedPart_of_inPlace
    {parts : List Part} (hfixed : ∀ part ∈ parts, part.isFixed) (p q : Nat) :
    fixedPart p parts = fixedPart q parts := by
  induction parts with
  | nil => rfl
  | cons part rest ih =>
      rw [List.forall_mem_cons] at hfixed
      obtain ⟨isFixed, bytes⟩ := part
      obtain rfl : isFixed = true := hfixed.1
      rw [fixedPart, fixedPart, ih hfixed.2]

theorem layOut_append_of_inPlace
    {parts : List Part} (hfixed : ∀ part ∈ parts, part.isFixed)
    (fixedLength position : Nat) (others : List Part) :
    layOut fixedLength (parts ++ others) =
      layOut position parts ++ layOut fixedLength others := by
  rw [layOut_eq, layOut_eq, layOut_eq, fixedPart_append, payloads_append,
    payloads_of_inPlace hfixed, ByteArray.size_empty, ByteArray.append_empty,
    ByteArray.empty_append, ByteArray.append_assoc, Nat.add_zero,
    fixedPart_of_inPlace hfixed fixedLength position]

/-! ## Reading a layout back -/

/-- Two parts that take slots of the same kind and size. -/
structure Part.SameSlot (p q : Part) : Prop where
  isFixed_eq : p.isFixed = q.isFixed
  slotSize_eq : p.slotSize = q.slotSize

theorem sum_slotSize_eq
    {ps qs : List Part} (hslots : List.Forall₂ Part.SameSlot ps qs) :
    (ps.map Part.slotSize).sum = (qs.map Part.slotSize).sum := by
  induction hslots with
  | nil => rfl
  | cons hslot _ ih => simp [hslot.slotSize_eq, ih]

/-- Equal fixed parts whose payloads end at the same place start their payloads
at the same place. The words of four bytes cannot hide a difference, since both
payloads are shorter than `2 ^ 32`. -/
theorem position_eq_of_fixedPart_eq
    {ps qs : List Part} {p q : Nat}
    (hslots : List.Forall₂ Part.SameSlot ps qs)
    (hfixed : fixedPart p ps = fixedPart q qs)
    (hend : p + (payloads ps).size = q + (payloads qs).size)
    (hps : (payloads ps).size < 2 ^ 32)
    (hqs : (payloads qs).size < 2 ^ 32) : p = q := by
  induction hslots with
  | nil => simpa [payloads] using hend
  | @cons a b as bs hslot htail ih =>
      obtain ⟨aFixed, a⟩ := a
      obtain ⟨bFixed, b⟩ := b
      obtain rfl : aFixed = bFixed := hslot.isFixed_eq
      cases aFixed with
      | true =>
          have hsize : a.size = b.size := by
            simpa [Part.slotSize] using hslot.slotSize_eq
          rw [fixedPart, fixedPart,
            ByteArray.append_eq_append_iff_of_size_eq_left hsize] at hfixed
          exact ih hfixed.2 hend hps hqs
      | false =>
          rw [fixedPart, fixedPart, ByteArray.append_eq_append_iff_of_size_eq_left
            (by simp [Bytes.size_littleEndian])] at hfixed
          have hvalues := congrArg Bytes.littleEndianValue hfixed.1
          rw [Bytes.littleEndianValue_littleEndian,
            Bytes.littleEndianValue_littleEndian] at hvalues
          have hbase : 256 ^ offsetWidth = 2 ^ 32 := by decide
          rw [hbase] at hvalues
          omega

theorem parts_eq_of_fixedPart_eq
    {ps qs : List Part} {position : Nat}
    (hslots : List.Forall₂ Part.SameSlot ps qs)
    (hfixed : fixedPart position ps = fixedPart position qs)
    (hpayloads : payloads ps = payloads qs)
    (hfit : (payloads ps).size < 2 ^ 32) : ps = qs := by
  induction hslots generalizing position with
  | nil => rfl
  | @cons a b as bs hslot htail ih =>
      obtain ⟨aFixed, a⟩ := a
      obtain ⟨bFixed, b⟩ := b
      obtain rfl : aFixed = bFixed := hslot.isFixed_eq
      cases aFixed with
      | true =>
          have hsize : a.size = b.size := by
            simpa [Part.slotSize] using hslot.slotSize_eq
          rw [fixedPart, fixedPart,
            ByteArray.append_eq_append_iff_of_size_eq_left hsize] at hfixed
          obtain ⟨rfl, hrest⟩ := hfixed
          rw [ih hrest hpayloads hfit]
      | false =>
          rw [fixedPart, fixedPart, ByteArray.append_right_inj] at hfixed
          rw [payloads, payloads] at hpayloads
          rw [payloads, ByteArray.size_append] at hfit
          have htotal : a.size + (payloads as).size =
              b.size + (payloads bs).size := by
            simpa using congrArg ByteArray.size hpayloads
          -- The next offset, or the end of the payloads, tells where `a` ends.
          have hnext : position + a.size = position + b.size :=
            position_eq_of_fixedPart_eq htail hfixed (by omega)
              (by omega) (by omega)
          have hsize : a.size = b.size := by omega
          rw [ByteArray.append_eq_append_iff_of_size_eq_left hsize] at hpayloads
          obtain ⟨rfl, hpayloads⟩ := hpayloads
          rw [ih hfixed hpayloads (by omega)]

theorem parts_eq_of_layOut_eq
    {ps qs : List Part} {fixedLength : Nat}
    (hslots : List.Forall₂ Part.SameSlot ps qs)
    (hfit : (layOut fixedLength ps).size < 2 ^ 32)
    (hlayout : layOut fixedLength ps = layOut fixedLength qs) : ps = qs := by
  rw [layOut_eq, ByteArray.size_append] at hfit
  rw [layOut_eq, layOut_eq] at hlayout
  have hsize : (fixedPart fixedLength ps).size =
      (fixedPart fixedLength qs).size := by
    rw [size_fixedPart, size_fixedPart, sum_slotSize_eq hslots]
  rw [ByteArray.append_eq_append_iff_of_size_eq_left hsize] at hlayout
  exact parts_eq_of_fixedPart_eq hslots hlayout.1 hlayout.2 (by omega)

end Ssz
end GenesisForge
