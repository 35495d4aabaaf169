import GenesisForge.Chain.Schemas
import GenesisForge.Ssz.Serializable

/-!
# Records of the chain

The containers that a genesis state is made of, as records with a serializable
form.
-/

namespace GenesisForge

open Ssz

abbrev ForkVersion := FixedBytes Schemas.forkVersionLength

/-- An address of the execution chain. -/
abbrev Address := FixedBytes Schemas.addressLength

/-- A compressed public key. -/
abbrev PublicKey := FixedBytes Schemas.publicKeyLength

/-- A compressed signature. -/
abbrev Signature := FixedBytes Schemas.signatureLength

/-- The filter over the logs of a block. -/
abbrev LogsBloom := FixedBytes Schemas.logsBloomLength

/-- The attestation quote of a proposer. -/
abbrev Quote := FixedBytes Schemas.quoteLength

instance : Serializable ForkVersion := serializableBytes _
instance : Serializable Address := serializableBytes _
instance : Serializable PublicKey := serializableBytes _
instance : Serializable Signature := serializableBytes _
instance : Serializable LogsBloom := serializableBytes _
instance : Serializable Quote := serializableBytes _

/-- The versions before and after the last fork, and its epoch. -/
structure Fork where
  previousVersion : ForkVersion
  currentVersion : ForkVersion
  epoch : UInt64

instance : Serializable Fork where
  shape := .container Schemas.fork
  toValue f := .container Schemas.fork
    [toValue f.previousVersion, toValue f.currentVersion, toValue f.epoch]
  ofValue?
    | .container _ [a, b, c] => do pure ⟨← ofValue? a, ← ofValue? b, ← ofValue? c⟩
    | _ => none
  ofValue?_toValue f := by simp
  hasShape f := .container <| by
    repeat first | exact .nil | refine .cons (Serializable.hasShape _) ?_

/-- A point of agreement. -/
structure Checkpoint where
  epoch : UInt64
  root : Root

namespace Checkpoint

/-- Epoch zero and the zero root. -/
def zero : Checkpoint := ⟨0, .zero 32⟩

end Checkpoint

instance : Serializable Checkpoint where
  shape := .container Schemas.checkpoint
  toValue c := .container Schemas.checkpoint [toValue c.epoch, toValue c.root]
  ofValue?
    | .container _ [a, b] => do pure ⟨← ofValue? a, ← ofValue? b⟩
    | _ => none
  ofValue?_toValue c := by simp
  hasShape c := .container <| by
    repeat first | exact .nil | refine .cons (Serializable.hasShape _) ?_

/-- What the chain knows of the deposit contract. -/
structure Eth1Data where
  depositRoot : Root
  depositCount : UInt64
  blockHash : Root

namespace Eth1Data

/-- No deposits and zero roots. -/
def zero : Eth1Data := ⟨.zero 32, 0, .zero 32⟩

end Eth1Data

instance : Serializable Eth1Data where
  shape := .container Schemas.eth1Data
  toValue d := .container Schemas.eth1Data
    [toValue d.depositRoot, toValue d.depositCount, toValue d.blockHash]
  ofValue?
    | .container _ [a, b, c] => do pure ⟨← ofValue? a, ← ofValue? b, ← ofValue? c⟩
    | _ => none
  ofValue?_toValue d := by simp
  hasShape d := .container <| by
    repeat first | exact .nil | refine .cons (Serializable.hasShape _) ?_

/-- An entry of the validator registry. -/
structure Validator where
  pubkey : PublicKey
  withdrawalCredentials : Root
  effectiveBalance : UInt64
  slashed : Bool
  activationEligibilityEpoch : UInt64
  activationEpoch : UInt64
  exitEpoch : UInt64
  withdrawableEpoch : UInt64

instance : Serializable Validator where
  shape := .container Schemas.validator
  toValue v := .container Schemas.validator
    [toValue v.pubkey, toValue v.withdrawalCredentials, toValue v.effectiveBalance,
      toValue v.slashed, toValue v.activationEligibilityEpoch, toValue v.activationEpoch,
      toValue v.exitEpoch, toValue v.withdrawableEpoch]
  ofValue?
    | .container _ [a, b, c, d, e, f, g, h] => do
      pure ⟨← ofValue? a, ← ofValue? b, ← ofValue? c, ← ofValue? d, ← ofValue? e, ← ofValue? f,
        ← ofValue? g, ← ofValue? h⟩
    | _ => none
  ofValue?_toValue v := by simp
  hasShape v := .container <| by
    repeat first | exact .nil | refine .cons (Serializable.hasShape _) ?_

/-- The keys of a sync committee and their aggregate. -/
structure SyncCommittee where
  pubkeys : List PublicKey
  aggregatePubkey : PublicKey

instance : Serializable SyncCommittee where
  shape := .container Schemas.syncCommittee
  toValue c := .container Schemas.syncCommittee [toValue c.pubkeys, toValue c.aggregatePubkey]
  ofValue?
    | .container _ [a, b] => do pure ⟨← ofValue? a, ← ofValue? b⟩
    | _ => none
  ofValue?_toValue c := by simp
  hasShape c := .container <| by
    repeat first | exact .nil | refine .cons (Serializable.hasShape _) ?_

/-- A withdrawal to the execution chain. -/
structure Withdrawal where
  index : UInt64
  validatorIndex : UInt64
  address : Address
  amount : UInt64

instance : Serializable Withdrawal where
  shape := .container Schemas.withdrawal
  toValue w := .container Schemas.withdrawal
    [toValue w.index, toValue w.validatorIndex, toValue w.address, toValue w.amount]
  ofValue?
    | .container _ [a, b, c, d] => do
      pure ⟨← ofValue? a, ← ofValue? b, ← ofValue? c, ← ofValue? d⟩
    | _ => none
  ofValue?_toValue w := by simp
  hasShape w := .container <| by
    repeat first | exact .nil | refine .cons (Serializable.hasShape _) ?_

/-- The roots of a period of history. -/
structure HistoricalSummary where
  blockSummaryRoot : Root
  stateSummaryRoot : Root

instance : Serializable HistoricalSummary where
  shape := .container Schemas.historicalSummary
  toValue s := .container Schemas.historicalSummary
    [toValue s.blockSummaryRoot, toValue s.stateSummaryRoot]
  ofValue?
    | .container _ [a, b] => do pure ⟨← ofValue? a, ← ofValue? b⟩
    | _ => none
  ofValue?_toValue s := by simp
  hasShape s := .container <| by
    repeat first | exact .nil | refine .cons (Serializable.hasShape _) ?_

/-- A deposit that waits to be applied. -/
structure PendingDeposit where
  pubkey : PublicKey
  withdrawalCredentials : Root
  amount : UInt64
  signature : Signature
  slot : UInt64

instance : Serializable PendingDeposit where
  shape := .container Schemas.pendingDeposit
  toValue p := .container Schemas.pendingDeposit
    [toValue p.pubkey, toValue p.withdrawalCredentials, toValue p.amount, toValue p.signature,
      toValue p.slot]
  ofValue?
    | .container _ [a, b, c, d, e] => do
      pure ⟨← ofValue? a, ← ofValue? b, ← ofValue? c, ← ofValue? d, ← ofValue? e⟩
    | _ => none
  ofValue?_toValue p := by simp
  hasShape p := .container <| by
    repeat first | exact .nil | refine .cons (Serializable.hasShape _) ?_

/-- A partial withdrawal that waits to be paid. -/
structure PendingPartialWithdrawal where
  validatorIndex : UInt64
  amount : UInt64
  withdrawableEpoch : UInt64

instance : Serializable PendingPartialWithdrawal where
  shape := .container Schemas.pendingPartialWithdrawal
  toValue p := .container Schemas.pendingPartialWithdrawal
    [toValue p.validatorIndex, toValue p.amount, toValue p.withdrawableEpoch]
  ofValue?
    | .container _ [a, b, c] => do pure ⟨← ofValue? a, ← ofValue? b, ← ofValue? c⟩
    | _ => none
  ofValue?_toValue p := by simp
  hasShape p := .container <| by
    repeat first | exact .nil | refine .cons (Serializable.hasShape _) ?_

/-- A consolidation of two validators that waits to be done. -/
structure PendingConsolidation where
  sourceIndex : UInt64
  targetIndex : UInt64

instance : Serializable PendingConsolidation where
  shape := .container Schemas.pendingConsolidation
  toValue p := .container Schemas.pendingConsolidation
    [toValue p.sourceIndex, toValue p.targetIndex]
  ofValue?
    | .container _ [a, b] => do pure ⟨← ofValue? a, ← ofValue? b⟩
    | _ => none
  ofValue?_toValue p := by simp
  hasShape p := .container <| by
    repeat first | exact .nil | refine .cons (Serializable.hasShape _) ?_

/-- The header of an execution payload, as the state records it. -/
structure ExecutionPayloadHeader where
  parentHash : Root
  feeRecipient : Address
  stateRoot : Root
  receiptsRoot : Root
  logsBloom : LogsBloom
  prevRandao : Root
  blockNumber : UInt64
  gasLimit : UInt64
  gasUsed : UInt64
  timestamp : UInt64
  extraData : ByteList
  baseFeePerGas : Word256
  blockHash : Root
  transactionsRoot : Root
  withdrawalsRoot : Root
  blobGasUsed : UInt64
  excessBlobGas : UInt64

instance : Serializable ExecutionPayloadHeader where
  shape := .container Schemas.executionPayloadHeader
  toValue p := .container Schemas.executionPayloadHeader
    [toValue p.parentHash, toValue p.feeRecipient, toValue p.stateRoot, toValue p.receiptsRoot,
      toValue p.logsBloom, toValue p.prevRandao, toValue p.blockNumber, toValue p.gasLimit,
      toValue p.gasUsed, toValue p.timestamp, toValue p.extraData, toValue p.baseFeePerGas,
      toValue p.blockHash, toValue p.transactionsRoot, toValue p.withdrawalsRoot,
      toValue p.blobGasUsed, toValue p.excessBlobGas]
  ofValue?
    | .container _ [a, b, c, d, e, f, g, h, i, j, k, l, m, n, o, p, q] => do
      pure ⟨← ofValue? a, ← ofValue? b, ← ofValue? c, ← ofValue? d, ← ofValue? e, ← ofValue? f,
        ← ofValue? g, ← ofValue? h, ← ofValue? i, ← ofValue? j, ← ofValue? k, ← ofValue? l,
        ← ofValue? m, ← ofValue? n, ← ofValue? o, ← ofValue? p, ← ofValue? q⟩
    | _ => none
  ofValue?_toValue p := by simp
  hasShape p := .container <| by
    repeat first | exact .nil | refine .cons (Serializable.hasShape _) ?_

end GenesisForge
