import GenesisForge.Chain.Records

/-!
# Block headers

Every header has five fields in common. A header build may add an attestation
of the proposer's trusted environment: the tag of its vendor and a quote. What
a build does when an attestation is written to it is a capability of the build:
the two writes do not disturb each other, and the later of two writes counts.
-/

namespace GenesisForge

open Ssz

structure BlockHeader where
  slot : UInt64
  proposerIndex : UInt64
  parentRoot : Root
  stateRoot : Root
  bodyRoot : Root

namespace BlockHeader

/-- The header whose other fields are zero. -/
def ofBodyRoot (bodyRoot : Root) : BlockHeader :=
  ⟨0, 0, .zero 32, .zero 32, bodyRoot⟩

def values (h : BlockHeader) : List Value :=
  [toValue h.slot, toValue h.proposerIndex, toValue h.parentRoot, toValue h.stateRoot,
    toValue h.bodyRoot]

/-- Bytes of an encoded header. -/
def encodedLength : Nat := 112

end BlockHeader

instance : Serializable BlockHeader where
  shape := .container Schemas.blockHeader
  toValue h := .container Schemas.blockHeader h.values
  ofValue?
    | .container _ [a, b, c, d, e] => do
      pure ⟨← ofValue? a, ← ofValue? b, ← ofValue? c, ← ofValue? d, ← ofValue? e⟩
    | _ => none
  ofValue?_toValue h := by simp [BlockHeader.values]
  hasShape h := .container <| by
    repeat first | exact .nil | refine .cons (Serializable.hasShape _) ?_

/-- A header with the attestation of its proposer. -/
structure TeeBlockHeader where
  base : BlockHeader
  /-- The tag of the vendor. -/
  teeType : UInt8
  teeQuote : Quote

namespace TeeBlockHeader

/-- Bytes of an encoded header with its attestation. -/
def encodedLength : Nat := BlockHeader.encodedLength + 1 + Schemas.quoteLength

/-- The header with tag zero and the zero quote. -/
def ofHeader (h : BlockHeader) : TeeBlockHeader :=
  ⟨h, 0, .zero _⟩

end TeeBlockHeader

instance : Serializable TeeBlockHeader where
  shape := .container Schemas.teeBlockHeader
  toValue h := .container Schemas.teeBlockHeader
    (h.base.values ++ [toValue h.teeType, toValue h.teeQuote])
  ofValue?
    | .container _ [a, b, c, d, e, f, g] => do
      pure ⟨⟨← ofValue? a, ← ofValue? b, ← ofValue? c, ← ofValue? d, ← ofValue? e⟩, ← ofValue? f,
        ← ofValue? g⟩
    | _ => none
  ofValue?_toValue h := by simp [BlockHeader.values]
  hasShape h := .container <| by
    repeat first | exact .nil | refine .cons (Serializable.hasShape _) ?_

/-! ## Where an attestation is written -/

/-- An integer type that a tag may be kept in. -/
structure TagKind where
  bits : Nat
  isSigned : Bool
deriving DecidableEq, Repr

/-- The integer that a tag becomes in a type, in two's complement. -/
def TagKind.store (kind : TagKind) (tag : UInt8) : Int :=
  let n := tag.toNat % 2 ^ kind.bits
  if kind.isSigned ∧ 2 ^ (kind.bits - 1) ≤ n then (n : Int) - 2 ^ kind.bits else n

/-- Where a quote may be kept: bytes of a fixed length, which a quote fills up
or is cut to, or bytes of any length, which a quote replaces. -/
inductive QuoteSlot where
  | fixed (bytes : ByteArray)
  | growing (bytes : ByteArray)

namespace QuoteSlot

def bytes : QuoteSlot → ByteArray
  | fixed bytes | growing bytes => bytes

/-- The first `length` bytes of a quote, filled up with zeros. -/
def fit (length : Nat) (quote : ByteArray) : ByteArray :=
  Bytes.appendFill 0 (length - quote.size) (quote.extract 0 length)

theorem size_fit (length : Nat) (quote : ByteArray) : (fit length quote).size = length := by
  simp [fit, Bytes.size_appendFill]
  omega

def write (slot : QuoteSlot) (quote : ByteArray) : QuoteSlot :=
  match slot with
  | fixed bytes => fixed (fit bytes.size quote)
  | growing _ => growing quote

theorem write_write (slot : QuoteSlot) (a b : ByteArray) :
    (slot.write a).write b = slot.write b := by
  cases slot <;> simp [write, size_fit]

end QuoteSlot

/-- A header build that may keep the tag and the quote of an attestation. -/
class KeepsAttestation (H : Type) where
  writeTag : UInt8 → H → H
  writeQuote : ByteArray → H → H
  writeTag_writeTag (a b : UInt8) (h : H) : writeTag b (writeTag a h) = writeTag b h
  writeQuote_writeQuote (a b : ByteArray) (h : H) :
    writeQuote b (writeQuote a h) = writeQuote b h
  writeTag_writeQuote (tag : UInt8) (quote : ByteArray) (h : H) :
    writeTag tag (writeQuote quote h) = writeQuote quote (writeTag tag h)

/-- A header build that a genesis state can carry. -/
class HeaderBuild (H : Type) extends Serializable H, KeepsAttestation H where
  ofHeader : BlockHeader → H

instance : HeaderBuild BlockHeader where
  writeTag _ h := h
  writeQuote _ h := h
  writeTag_writeTag _ _ _ := rfl
  writeQuote_writeQuote _ _ _ := rfl
  writeTag_writeQuote _ _ _ := rfl
  ofHeader h := h

instance : HeaderBuild TeeBlockHeader where
  writeTag tag h := { h with teeType := tag }
  writeQuote quote h := { h with teeQuote := ⟨QuoteSlot.fit _ quote, QuoteSlot.size_fit _ quote⟩ }
  writeTag_writeTag _ _ _ := rfl
  writeQuote_writeQuote _ _ _ := rfl
  writeTag_writeQuote _ _ _ := rfl
  ofHeader := .ofHeader

/-- A header that is nothing but the slots of its attestation. -/
structure AttestationSlots where
  /-- Whether the slots are shown to those who write attestations. -/
  isExposed : Bool
  /-- The type of the tag and its value, if there is one. -/
  tag : Option (TagKind × Int)
  quote : Option QuoteSlot

instance : KeepsAttestation AttestationSlots where
  writeTag tag h :=
    if h.isExposed then { h with tag := h.tag.map fun (kind, _) => (kind, kind.store tag) } else h
  writeQuote quote h :=
    if h.isExposed then { h with quote := h.quote.map (·.write quote) } else h
  writeTag_writeTag a b h := by
    by_cases e : h.isExposed <;> simp [e, Function.comp_def]
  writeQuote_writeQuote a b h := by
    by_cases e : h.isExposed <;> simp [e, Function.comp_def, QuoteSlot.write_write]
  writeTag_writeQuote tag quote h := by
    by_cases e : h.isExposed <;> simp [e]

end GenesisForge
