/-!
# Faults of public keys
-/

namespace GenesisForge.Bls

/-- What is wrong with a compressed public key. -/
inductive KeyFault where
  | badEncoding
  | notOnCurve
  | notInGroup
  | infinity
  /-- There are no keys to aggregate. -/
  | nothingToAggregate
deriving DecidableEq, Repr

def KeyFault.name : KeyFault → String
  | badEncoding => "BLST_BAD_ENCODING"
  | notOnCurve => "BLST_POINT_NOT_ON_CURVE"
  | notInGroup => "BLST_POINT_NOT_IN_GROUP"
  | infinity => "BLST_PK_IS_INFINITY"
  | nothingToAggregate => "BLST_AGGR_TYPE_MISMATCH"

end GenesisForge.Bls
