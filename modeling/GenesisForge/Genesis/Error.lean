import GenesisForge.Bls.KeyFault
import GenesisForge.Chain.Version
import GenesisForge.Config
import GenesisForge.Ssz.SizeError

/-!
# Failures of a genesis

Why a genesis state cannot be built or written, and the texts that say so.
-/

namespace GenesisForge

open Ssz Bls

/-- Why a part of the state cannot be computed. -/
inductive PartError where
  | limit (e : SizeError)
  /-- A public key, named by its digits, is not valid. -/
  | invalidPublicKey (key : String) (fault : KeyFault)
  | noActiveValidators
  /-- No 2^64 candidates fill the committee. -/
  | neverFull
  /-- A tree is deeper than those that have roots. -/
  | treeTooDeep
deriving DecidableEq

def PartError.message : PartError → String
  | limit e => "Collection limit exceeded: " ++ e.message
  | invalidPublicKey key fault => "Invalid BLS public key 0x" ++ key ++ ": " ++ fault.name
  | noActiveValidators => "No active validators"
  | neverFull => "Committee never full"
  | treeTooDeep => "Tree too deep"

/-- Why there is no genesis state or no artifact of one. -/
inductive GenesisError where
  /-- A value of the configuration is out of its range. -/
  | outOfRange (key : String) (value min max : UInt64)
  | missingField (name : String)
  | extraDataTooLong (length max : Nat)
  | part (name : String) (cause : PartError)
  | unsupportedVersion (fork : ForkName)
  | unsupportedFormat (name : String)
  | config (cause : ConfigError)
  /-- A tree is deeper than those that have roots. -/
  | treeTooDeep
deriving DecidableEq

namespace GenesisError

def message : GenesisError → String
  | outOfRange key value min max =>
    "Invalid " ++ key ++ " value: " ++ toString value.toNat ++ " (must be between " ++
      toString min.toNat ++ " and " ++ toString max.toNat ++ ")"
  | missingField name => "Execution-layer block has missing " ++ name ++ " field"
  | extraDataTooLong length max =>
    "Extra data is " ++ toString length ++ " bytes, max is " ++ toString max
  | part name cause => "Failed to compute " ++ name ++ ": " ++ cause.message
  | unsupportedVersion fork => "Unsupported version: " ++ fork.name
  | unsupportedFormat name => "Unsupported content type: " ++ name
  | config cause => "Configuration error: " ++ cause.message
  | treeTooDeep => "Tree too deep"

/-- The error of a part of the state. A tree that is too deep is no error of
the part alone. -/
def ofPart (name : String) : PartError → GenesisError
  | .treeTooDeep => treeTooDeep
  | cause => part name cause

end GenesisError

/-- Names the part of the state that a computation belongs to. -/
def inPart {α : Type} (name : String) (computed : Except PartError α) : Except GenesisError α :=
  computed.mapError (GenesisError.ofPart name)

/-- A size error of a part of the state. -/
def limited {α : Type} (made : Except SizeError α) : Except PartError α :=
  made.mapError PartError.limit

end GenesisForge
