import GenesisForge.Chain.Header
import GenesisForge.Chain.Version

/-!
# Beacon states

The state of the Deneb fork, and that of the Electra fork, which adds queues
and counters to it. Both carry headers of whatever build.
-/

namespace GenesisForge

open Ssz

/-- The state of the Deneb fork. -/
structure BeaconState (H : Type) where
  genesisTime : UInt64
  genesisValidatorsRoot : Root
  slot : UInt64
  fork : Fork
  latestBlockHeader : H
  blockRoots : List Root
  stateRoots : List Root
  historicalRoots : Bounded Root
  eth1Data : Eth1Data
  eth1DataVotes : Bounded Eth1Data
  eth1DepositIndex : UInt64
  validators : Bounded Validator
  balances : Bounded UInt64
  randaoMixes : List Root
  slashings : List UInt64
  previousEpochParticipation : Bounded UInt8
  currentEpochParticipation : Bounded UInt8
  justificationBits : Bitvector
  previousJustifiedCheckpoint : Checkpoint
  currentJustifiedCheckpoint : Checkpoint
  finalizedCheckpoint : Checkpoint
  inactivityScores : Bounded UInt64
  currentSyncCommittee : SyncCommittee
  nextSyncCommittee : SyncCommittee
  latestExecutionPayloadHeader : ExecutionPayloadHeader
  nextWithdrawalIndex : UInt64
  nextWithdrawalValidatorIndex : UInt64
  historicalSummaries : Bounded HistoricalSummary

/-- What the Electra fork adds to a state. -/
structure ElectraPart where
  depositRequestsStartIndex : UInt64
  depositBalanceToConsume : UInt64
  exitBalanceToConsume : UInt64
  earliestExitEpoch : UInt64
  consolidationBalanceToConsume : UInt64
  earliestConsolidationEpoch : UInt64
  pendingDeposits : Bounded PendingDeposit
  pendingPartialWithdrawals : Bounded PendingPartialWithdrawal
  pendingConsolidations : Bounded PendingConsolidation

structure ElectraState (H : Type) where
  base : BeaconState H
  electra : ElectraPart

section

variable {H : Type} [Serializable H]

/-- The values of the fields of a Deneb state. -/
def BeaconState.values (s : BeaconState H) : List Value :=
  [toValue s.genesisTime, toValue s.genesisValidatorsRoot, toValue s.slot, toValue s.fork,
    toValue s.latestBlockHeader, toValue s.blockRoots, toValue s.stateRoots,
    toValue s.historicalRoots, toValue s.eth1Data, toValue s.eth1DataVotes,
    toValue s.eth1DepositIndex, toValue s.validators, toValue s.balances, toValue s.randaoMixes,
    toValue s.slashings, toValue s.previousEpochParticipation,
    toValue s.currentEpochParticipation, toValue s.justificationBits,
    toValue s.previousJustifiedCheckpoint, toValue s.currentJustifiedCheckpoint,
    toValue s.finalizedCheckpoint, toValue s.inactivityScores, toValue s.currentSyncCommittee,
    toValue s.nextSyncCommittee, toValue s.latestExecutionPayloadHeader,
    toValue s.nextWithdrawalIndex, toValue s.nextWithdrawalValidatorIndex,
    toValue s.historicalSummaries]

/-- The Deneb state whose fields have these values. -/
def BeaconState.ofValues? : List Value → Option (BeaconState H)
  | [a, b, c, d, e, f, g, h, i, j, k, l, m, n, o, p, q, r, s, t, u, v, w, x, y, z, a', b'] => do
    pure {
      genesisTime := ← ofValue? a
      genesisValidatorsRoot := ← ofValue? b
      slot := ← ofValue? c
      fork := ← ofValue? d
      latestBlockHeader := ← ofValue? e
      blockRoots := ← ofValue? f
      stateRoots := ← ofValue? g
      historicalRoots := ← ofValue? h
      eth1Data := ← ofValue? i
      eth1DataVotes := ← ofValue? j
      eth1DepositIndex := ← ofValue? k
      validators := ← ofValue? l
      balances := ← ofValue? m
      randaoMixes := ← ofValue? n
      slashings := ← ofValue? o
      previousEpochParticipation := ← ofValue? p
      currentEpochParticipation := ← ofValue? q
      justificationBits := ← ofValue? r
      previousJustifiedCheckpoint := ← ofValue? s
      currentJustifiedCheckpoint := ← ofValue? t
      finalizedCheckpoint := ← ofValue? u
      inactivityScores := ← ofValue? v
      currentSyncCommittee := ← ofValue? w
      nextSyncCommittee := ← ofValue? x
      latestExecutionPayloadHeader := ← ofValue? y
      nextWithdrawalIndex := ← ofValue? z
      nextWithdrawalValidatorIndex := ← ofValue? a'
      historicalSummaries := ← ofValue? b' }
  | _ => none

theorem BeaconState.ofValues?_values (s : BeaconState H) : ofValues? s.values = some s := by
  simp [ofValues?, values]

theorem BeaconState.hasFields (s : BeaconState H) :
    Value.HasFields s.values (Schemas.stateFields (Serializable.shape H)) := by
  repeat first | exact .nil | refine .cons (Serializable.hasShape _) ?_

/-- The values of the fields that the Electra fork adds. -/
def ElectraPart.values (e : ElectraPart) : List Value :=
  [toValue e.depositRequestsStartIndex, toValue e.depositBalanceToConsume,
    toValue e.exitBalanceToConsume, toValue e.earliestExitEpoch,
    toValue e.consolidationBalanceToConsume, toValue e.earliestConsolidationEpoch,
    toValue e.pendingDeposits, toValue e.pendingPartialWithdrawals,
    toValue e.pendingConsolidations]

/-- The part of the Electra fork whose fields have these values. -/
def ElectraPart.ofValues? : List Value → Option ElectraPart
  | [a, b, c, d, e, f, g, h, i] => do
    pure ⟨← ofValue? a, ← ofValue? b, ← ofValue? c, ← ofValue? d, ← ofValue? e, ← ofValue? f,
      ← ofValue? g, ← ofValue? h, ← ofValue? i⟩
  | _ => none

theorem ElectraPart.ofValues?_values (e : ElectraPart) : ofValues? e.values = some e := by
  simp [ofValues?, values]

theorem ElectraPart.hasFields (e : ElectraPart) :
    Value.HasFields e.values Schemas.electraFields := by
  repeat first | exact .nil | refine .cons (Serializable.hasShape _) ?_

instance : Serializable (BeaconState H) where
  shape := .container (Schemas.denebState (Serializable.shape H))
  toValue s := .container (Schemas.denebState (Serializable.shape H)) s.values
  ofValue?
    | .container _ values => BeaconState.ofValues? values
    | _ => none
  ofValue?_toValue s := s.ofValues?_values
  hasShape s := .container s.hasFields

theorem hasFields_append {as bs : List Value} {fs gs : List Field} (h : Value.HasFields as fs)
    (k : Value.HasFields bs gs) : Value.HasFields (as ++ bs) (fs ++ gs) := by
  match h with
  | .nil => exact k
  | .cons head tail => exact .cons head (hasFields_append tail k)

instance : Serializable (ElectraState H) where
  shape := .container (Schemas.electraState (Serializable.shape H))
  toValue s := .container (Schemas.electraState (Serializable.shape H))
    (s.base.values ++ s.electra.values)
  ofValue?
    | .container _ values => do
      pure ⟨← BeaconState.ofValues? (values.take 28), ← ElectraPart.ofValues? (values.drop 28)⟩
    | _ => none
  ofValue?_toValue s := by
    have h : s.base.values.length = 28 := rfl
    simp [h, BeaconState.ofValues?_values, ElectraPart.ofValues?_values]
  hasShape s := .container (hasFields_append s.base.hasFields s.electra.hasFields)

end

/-- A state together with its fork. -/
inductive VersionedState (H : Type) where
  | deneb (state : BeaconState H)
  | electra (state : ElectraState H)

namespace VersionedState

variable {H : Type}

def fork : VersionedState H → ForkName
  | deneb _ => .deneb
  | electra _ => .electra

/-- The fields that both forks have. -/
def base : VersionedState H → BeaconState H
  | deneb state => state
  | electra state => state.base

/-- What the Electra fork adds, if this is its state. -/
def electraPart? : VersionedState H → Option ElectraPart
  | deneb _ => none
  | electra state => some state.electra

variable [Serializable H]

def value : VersionedState H → Value
  | deneb state => toValue state
  | electra state => toValue state

/-- The tree root of a state, if none of its trees is too deep. -/
def root? (state : VersionedState H) : Option Root :=
  state.value.treeRoot?

def fieldNames : VersionedState H → List String
  | deneb _ => (Schemas.stateFields .root).map (·.name)
  | electra _ => (Schemas.stateFields .root ++ Schemas.electraFields).map (·.name)

/-- The state of the same fork that a value stands for. -/
def replace? (state : VersionedState H) (v : Value) : Option (VersionedState H) :=
  match state with
  | deneb _ => (ofValue? v).map deneb
  | electra _ => (ofValue? v).map electra

/-- Whether two states are of one fork and agree in every field. -/
def agree : VersionedState H → VersionedState H → Bool
  | deneb a, deneb b => Ssz.agree a b
  | electra a, electra b => Ssz.agree a b
  | _, _ => false

end VersionedState

end GenesisForge
