import GenesisForge.Chain.State
import GenesisForge.Genesis.Error
import GenesisForge.Genesis.Notice
import GenesisForge.Text.Blank

/-!
# Artifacts of a genesis state

A state is written in its binary encoding or as JSON. Behind the binary
encoding a check reads back the first offset, which must point behind the place
where it stands; the check gives notice and changes nothing.
-/

namespace GenesisForge

open Ssz

/-- A form in which a state is written. -/
inductive ContentType where
  | ssz
  | json
deriving DecidableEq, Repr

namespace ContentType

/-- The media type of a form. -/
def mediaType : ContentType → String
  | ssz => "application/octet-stream"
  | json => "application/json"

/-- The form of a name, in whatever case and with blanks around it. -/
def ofName (name : String) : Except GenesisError ContentType :=
  let plain := Text.lowerAscii (Text.trim name)
  if ["binary", "ssz", "application/octet-stream"].contains plain then .ok .ssz
  else if ["text", "json", "application/json"].contains plain then .ok .json
  else .error (.unsupportedFormat name)

end ContentType

/-! ## The first offset -/

/-- Bytes of the genesis time, the validators root, the slot and the fork. -/
def statePrefixLength : Nat := 8 + 32 + 8 + 16

/-- What the first offset of an encoded state tells. -/
inductive OffsetCheck where
  /-- The bytes end before the first offset. -/
  | tooShort
  | consistent (offset : Nat)
  /-- The offset points into the fixed part in front of it. -/
  | intoFixedPart (offset position : Nat)
deriving DecidableEq, Repr

/-- The place of the first offset: behind the header and the two vectors of
roots. It is no word where there are 2^58 slots or more. -/
def firstOffsetPosition (headerLength slots : Nat) : Nat :=
  statePrefixLength + headerLength + 2 * slots * 32

/-- Checks the first offset of an encoded state. -/
def checkFirstOffset (bytes : ByteArray) (headerLength slots : Nat) : OffsetCheck :=
  let position := firstOffsetPosition headerLength slots
  if position + offsetWidth ≤ bytes.size then
    let offset := Bytes.littleEndianValue (bytes.extract position (position + offsetWidth))
    if offset ≤ position then .intoFixedPart offset position else .consistent offset
  else .tooShort

/-- The two sizes that a header is expected to have. -/
def expectedHeaderSizes : String :=
  "(expected TEE: " ++ toString TeeBlockHeader.encodedLength ++ ", standard: " ++
    toString BlockHeader.encodedLength ++ ")"

/-- What is told of the first offset. -/
def OffsetCheck.notices (check : OffsetCheck) (headerLength slots : Nat) : List Notice :=
  let position := firstOffsetPosition headerLength slots
  let told (offset : Nat) : List Notice := [
    .info ("First offset at position " ++ toString position ++ ": " ++ toString offset),
    .info ("Fixed prefix ends at " ++
      toString (statePrefixLength + TeeBlockHeader.encodedLength) ++ " (TEE header) or " ++
      toString (statePrefixLength + BlockHeader.encodedLength) ++ " (standard header)")]
  match check with
  | tooShort => []
  | consistent offset => told offset
  | intoFixedPart offset position =>
    told offset ++ [.warning ("Offset " ++ toString offset ++
      " points into the fixed part ending at " ++ toString position ++
      ", the encoder sized the " ++ toString headerLength ++ " bytes header differently")]

/-! ## Artifacts -/

section

variable {H : Type} [Serializable H]

def artifact (state : VersionedState H) : ContentType → ByteArray
  | .ssz => state.value.encode
  | .json => state.value.jsonText.toUTF8

/-- What is told of the bytes of a state. -/
def artifactNotices (state : VersionedState H) (slots : Nat) (bytes : ByteArray) :
    ContentType → List Notice
  | .json => []
  | .ssz =>
    let headerLength := byteLength state.base.latestBlockHeader
    .info ("Block header SSZ size before state encoding: " ++ toString headerLength ++ " bytes " ++
      expectedHeaderSizes) ::
    (checkFirstOffset bytes headerLength slots).notices headerLength slots ++
    [.info ("Total beacon state SSZ size: " ++ toString bytes.size ++ " bytes")]

end

end GenesisForge
