import GenesisForge.ChainSpec
import GenesisForge.Genesis.Roots

/-!
# Block body at genesis

The header of a genesis state commits to a block body in which nothing has
happened: every number is zero, every list is empty and no bit is set. Its
limits come from the chain's parameters.
-/

namespace GenesisForge

open Ssz

/-- The most bytes of extra data that a payload has. -/
def maxExtraDataLength : Nat := 32

/-- The empty list of a container under the limit of a parameter. -/
def emptyList (spec : ChainSpec) (element : Schema) (limit : Parameter) : Value :=
  .list (.container element) (spec.size limit) []

/-- The aggregate in which no member of the committee takes part. -/
def emptySyncAggregate (spec : ChainSpec) : Value :=
  .container Schemas.syncAggregate [
    toValue (Bitvector.unset (spec.size .syncCommitteeSize)),
    toValue (FixedBytes.zero Schemas.signatureLength : Signature)]

/-- The payload of which every number is zero and every list is empty. -/
def emptyPayload (spec : ChainSpec) : Value :=
  .container Schemas.executionPayload [
    toValue (.zero 32 : Root),
    toValue (.zero _ : Address),
    toValue (.zero 32 : Root),
    toValue (.zero 32 : Root),
    toValue (.zero _ : LogsBloom),
    toValue (.zero 32 : Root),
    toValue (0 : UInt64),
    toValue (0 : UInt64),
    toValue (0 : UInt64),
    toValue (0 : UInt64),
    .byteList maxExtraDataLength ByteArray.empty,
    .uint 32 0,
    toValue (.zero 32 : Root),
    .list .byteList (spec.size .maxTransactionsPerPayload) [],
    emptyList spec Schemas.withdrawal .maxWithdrawalsPerPayload,
    toValue (0 : UInt64),
    toValue (0 : UInt64)]

/-- The values of the fields that bodies of both forks have. -/
def bodyValues (spec : ChainSpec) (attestation : Schema) (slashings attestations : Parameter) :
    List Value := [
  toValue (.zero _ : Signature),
  toValue Eth1Data.zero,
  .bytes (FixedBytes.zero 32).bytes,
  emptyList spec Schemas.proposerSlashing .maxProposerSlashings,
  emptyList spec Schemas.attesterSlashing slashings,
  emptyList spec attestation attestations,
  emptyList spec Schemas.deposit .maxDeposits,
  emptyList spec Schemas.signedVoluntaryExit .maxVoluntaryExits,
  emptySyncAggregate spec,
  emptyPayload spec,
  emptyList spec Schemas.signedBlsToExecutionChange .maxBlsToExecutionChanges,
  .list (.bytes Schemas.publicKeyLength) (spec.size .maxBlobCommitmentsPerBlock) []]

def denebBody (spec : ChainSpec) : Value :=
  .container Schemas.denebBlockBody
    (bodyValues spec Schemas.attestation .maxAttesterSlashings .maxAttestations)

def electraBody (spec : ChainSpec) : Value :=
  .container Schemas.electraBlockBody
    (bodyValues spec Schemas.attestationElectra .maxAttesterSlashingsElectra
      .maxAttestationsElectra ++
    [.container Schemas.executionRequests [
      emptyList spec Schemas.depositRequest .maxDepositRequestsPerPayload,
      emptyList spec Schemas.withdrawalRequest .maxWithdrawalRequestsPerPayload,
      emptyList spec Schemas.consolidationRequest .maxConsolidationRequestsPerPayload]])

end GenesisForge
