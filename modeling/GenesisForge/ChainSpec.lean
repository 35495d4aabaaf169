import GenesisForge.Chain.Version
import GenesisForge.Chain.Records
import GenesisForge.Config

/-!
# Chain parameters

The numbers that a genesis state is sized and timed by. Each parameter is read
from the configuration under its own key, and has the value of the main network
where the configuration gives none.
-/

namespace GenesisForge

/-- A number of the configuration. -/
inductive Parameter where
  | slotsPerEpoch
  | slotsPerHistoricalRoot
  | epochsPerHistoricalVector
  | epochsPerSlashingsVector
  | historicalRootsLimit
  | validatorRegistryLimit
  | epochsPerEth1VotingPeriod
  | syncCommitteeSize
  | maxEffectiveBalance
  | maxEffectiveBalanceElectra
  | minActivationBalance
  | effectiveBalanceIncrement
  | shuffleRoundCount
  | depositContractTreeDepth
  | maxTransactionsPerPayload
  | maxBytesPerTransaction
  | maxWithdrawalsPerPayload
  | maxProposerSlashings
  | maxAttesterSlashings
  | maxAttesterSlashingsElectra
  | maxAttestations
  | maxAttestationsElectra
  | maxDeposits
  | maxVoluntaryExits
  | maxBlsToExecutionChanges
  | maxBlobCommitmentsPerBlock
  | maxValidatorsPerCommittee
  | maxCommitteesPerSlot
  | maxDepositRequestsPerPayload
  | maxWithdrawalRequestsPerPayload
  | maxConsolidationRequestsPerPayload
  | pendingDepositsLimit
  | pendingPartialWithdrawalsLimit
  | pendingConsolidationsLimit
  | genesisDelay
  | minGenesisTime
  | denebForkEpoch
  | electraForkEpoch
deriving DecidableEq, Repr

/-- The epoch of what is never going to happen. -/
def farFutureEpoch : UInt64 := 0xFFFFFFFFFFFFFFFF

namespace Parameter

/-- The name of a parameter in the configuration. -/
def key : Parameter → String
  | slotsPerEpoch => "SLOTS_PER_EPOCH"
  | slotsPerHistoricalRoot => "SLOTS_PER_HISTORICAL_ROOT"
  | epochsPerHistoricalVector => "EPOCHS_PER_HISTORICAL_VECTOR"
  | epochsPerSlashingsVector => "EPOCHS_PER_SLASHINGS_VECTOR"
  | historicalRootsLimit => "HISTORICAL_ROOTS_LIMIT"
  | validatorRegistryLimit => "VALIDATOR_REGISTRY_LIMIT"
  | epochsPerEth1VotingPeriod => "EPOCHS_PER_ETH1_VOTING_PERIOD"
  | syncCommitteeSize => "SYNC_COMMITTEE_SIZE"
  | maxEffectiveBalance => "MAX_EFFECTIVE_BALANCE"
  | maxEffectiveBalanceElectra => "MAX_EFFECTIVE_BALANCE_ELECTRA"
  | minActivationBalance => "MIN_ACTIVATION_BALANCE"
  | effectiveBalanceIncrement => "EFFECTIVE_BALANCE_INCREMENT"
  | shuffleRoundCount => "SHUFFLE_ROUND_COUNT"
  | depositContractTreeDepth => "DEPOSIT_CONTRACT_TREE_DEPTH"
  | maxTransactionsPerPayload => "MAX_TRANSACTIONS_PER_PAYLOAD"
  | maxBytesPerTransaction => "MAX_BYTES_PER_TRANSACTION"
  | maxWithdrawalsPerPayload => "MAX_WITHDRAWALS_PER_PAYLOAD"
  | maxProposerSlashings => "MAX_PROPOSER_SLASHINGS"
  | maxAttesterSlashings => "MAX_ATTESTER_SLASHINGS"
  | maxAttesterSlashingsElectra => "MAX_ATTESTER_SLASHINGS_ELECTRA"
  | maxAttestations => "MAX_ATTESTATIONS"
  | maxAttestationsElectra => "MAX_ATTESTATIONS_ELECTRA"
  | maxDeposits => "MAX_DEPOSITS"
  | maxVoluntaryExits => "MAX_VOLUNTARY_EXITS"
  | maxBlsToExecutionChanges => "MAX_BLS_TO_EXECUTION_CHANGES"
  | maxBlobCommitmentsPerBlock => "MAX_BLOB_COMMITMENTS_PER_BLOCK"
  | maxValidatorsPerCommittee => "MAX_VALIDATORS_PER_COMMITTEE"
  | maxCommitteesPerSlot => "MAX_COMMITTEES_PER_SLOT"
  | maxDepositRequestsPerPayload => "MAX_DEPOSIT_REQUESTS_PER_PAYLOAD"
  | maxWithdrawalRequestsPerPayload => "MAX_WITHDRAWAL_REQUESTS_PER_PAYLOAD"
  | maxConsolidationRequestsPerPayload => "MAX_CONSOLIDATION_REQUESTS_PER_PAYLOAD"
  | pendingDepositsLimit => "PENDING_DEPOSITS_LIMIT"
  | pendingPartialWithdrawalsLimit => "PENDING_PARTIAL_WITHDRAWALS_LIMIT"
  | pendingConsolidationsLimit => "PENDING_CONSOLIDATIONS_LIMIT"
  | genesisDelay => "GENESIS_DELAY"
  | minGenesisTime => "MIN_GENESIS_TIME"
  | denebForkEpoch => "DENEB_FORK_EPOCH"
  | electraForkEpoch => "ELECTRA_FORK_EPOCH"

/-- The value of a parameter on the main network. -/
def default : Parameter → UInt64
  | slotsPerEpoch => 32
  | slotsPerHistoricalRoot => 8192
  | epochsPerHistoricalVector => 65536
  | epochsPerSlashingsVector => 8192
  | historicalRootsLimit => 16777216
  | validatorRegistryLimit => 1099511627776
  | epochsPerEth1VotingPeriod => 64
  | syncCommitteeSize => 512
  | maxEffectiveBalance => 32000000000
  | maxEffectiveBalanceElectra => 2048000000000
  | minActivationBalance => 32000000000
  | effectiveBalanceIncrement => 1000000000
  | shuffleRoundCount => 90
  | depositContractTreeDepth => 32
  | maxTransactionsPerPayload => 1048576
  | maxBytesPerTransaction => 1073741824
  | maxWithdrawalsPerPayload => 16
  | maxProposerSlashings => 16
  | maxAttesterSlashings => 2
  | maxAttesterSlashingsElectra => 1
  | maxAttestations => 128
  | maxAttestationsElectra => 8
  | maxDeposits => 16
  | maxVoluntaryExits => 16
  | maxBlsToExecutionChanges => 16
  | maxBlobCommitmentsPerBlock => 4096
  | maxValidatorsPerCommittee => 2048
  | maxCommitteesPerSlot => 64
  | maxDepositRequestsPerPayload => 8192
  | maxWithdrawalRequestsPerPayload => 16
  | maxConsolidationRequestsPerPayload => 2
  | pendingDepositsLimit => 134217728
  | pendingPartialWithdrawalsLimit => 134217728
  | pendingConsolidationsLimit => 262144
  | genesisDelay => 604800
  | minGenesisTime => 0
  | denebForkEpoch | electraForkEpoch => farFutureEpoch

/-- The parameters that are read first, since others are checked by them. -/
def first : List Parameter :=
  [shuffleRoundCount, depositContractTreeDepth, slotsPerEpoch, epochsPerEth1VotingPeriod]

/-- The parameters that are read next, up to the checks of the first ones. -/
def sizes : List Parameter :=
  [slotsPerHistoricalRoot, epochsPerHistoricalVector, epochsPerSlashingsVector,
    historicalRootsLimit, validatorRegistryLimit, syncCommitteeSize, maxEffectiveBalance,
    maxEffectiveBalanceElectra, minActivationBalance, effectiveBalanceIncrement]

/-- The parameters that are read after the checks. -/
def limits : List Parameter :=
  [maxTransactionsPerPayload, maxBytesPerTransaction, maxWithdrawalsPerPayload,
    maxProposerSlashings, maxAttesterSlashings, maxAttesterSlashingsElectra, maxAttestations,
    maxAttestationsElectra, maxDeposits, maxVoluntaryExits, maxBlsToExecutionChanges,
    maxBlobCommitmentsPerBlock, maxValidatorsPerCommittee, maxCommitteesPerSlot,
    maxDepositRequestsPerPayload, maxWithdrawalRequestsPerPayload,
    maxConsolidationRequestsPerPayload, pendingDepositsLimit, pendingPartialWithdrawalsLimit,
    pendingConsolidationsLimit, genesisDelay, minGenesisTime]

/-- The parameters that are read last, behind the versions of the forks. -/
def forkEpochs : List Parameter := [denebForkEpoch, electraForkEpoch]

/-- All parameters in the order in which they are read. -/
def all : List Parameter := first ++ sizes ++ limits ++ forkEpochs

theorem mem_all (p : Parameter) : p ∈ all := by
  cases p <;> decide

def read (config : Config) (p : Parameter) : Except ConfigError UInt64 :=
  config.wordOr p.key p.default

/-- The words of some parameters, the first failure being that of all. -/
def readAll (config : Config) (ps : List Parameter) :
    Except ConfigError (List (Parameter × UInt64)) :=
  ps.mapM fun p => do pure (p, ← p.read config)

end Parameter

namespace ForkName

/-- The name of the version of a fork in the configuration. -/
def versionKey : ForkName → String
  | phase0 => "GENESIS_FORK_VERSION"
  | altair => "ALTAIR_FORK_VERSION"
  | bellatrix => "BELLATRIX_FORK_VERSION"
  | capella => "CAPELLA_FORK_VERSION"
  | deneb => "DENEB_FORK_VERSION"
  | electra => "ELECTRA_FORK_VERSION"

/-- The version of a fork on the main network. -/
def defaultVersion (fork : ForkName) : ForkVersion :=
  .littleEndian _ fork.rank

def readVersion (config : Config) (fork : ForkName) : Except ConfigError ForkVersion :=
  config.fixedBytesOr _ fork.versionKey fork.defaultVersion

end ForkName

structure ChainSpec where
  value : Parameter → UInt64
  version : ForkName → ForkVersion
  /-- A voting period has fewer than 2^64 slots. -/
  votingSlots_lt :
    (value .epochsPerEth1VotingPeriod).toNat * (value .slotsPerEpoch).toNat < 2 ^ 64
  roundCount_lt : (value .shuffleRoundCount).toNat < 256
  treeDepth_lt : (value .depositContractTreeDepth).toNat < 64

namespace ChainSpec

/-- The value of a parameter as a natural number. -/
def size (spec : ChainSpec) (p : Parameter) : Nat :=
  (spec.value p).toNat

def votesLimit (spec : ChainSpec) : Nat :=
  spec.size .epochsPerEth1VotingPeriod * spec.size .slotsPerEpoch

/-- The limit of the deposits that the deposit root commits to. -/
def depositListLimit (spec : ChainSpec) : Nat :=
  2 ^ spec.size .depositContractTreeDepth

/-- The value of a parameter among those read. -/
def valueIn (read : List (Parameter × UInt64)) (p : Parameter) : UInt64 :=
  (read.lookup p).getD p.default

def refuse {α : Type} (read : List (Parameter × UInt64)) (p : Parameter) (expected : Expectation) :
    Except ConfigError α :=
  .error (.invalidValue p.key expected (toString (valueIn read p).toNat))

def readVersions (config : Config) : Except ConfigError (List (ForkName × ForkVersion)) :=
  ForkName.all.mapM fun fork => do pure (fork, ← fork.readVersion config)

/-- The parameters that a configuration gives, or the first fault in it. -/
def ofConfig (config : Config) : Except ConfigError ChainSpec := do
  let first ← Parameter.readAll config Parameter.first
  let early := valueIn first
  if votes : (early .epochsPerEth1VotingPeriod).toNat * (early .slotsPerEpoch).toNat < 2 ^ 64 then
    let sizes ← Parameter.readAll config Parameter.sizes
    if rounds : (early .shuffleRoundCount).toNat < 256 then
      if depth : (early .depositContractTreeDepth).toNat < 64 then
        let limits ← Parameter.readAll config Parameter.limits
        let versions ← readVersions config
        let forkEpochs ← Parameter.readAll config Parameter.forkEpochs
        let late := valueIn (sizes ++ limits ++ forkEpochs)
        pure {
          value := fun p => if p ∈ Parameter.first then early p else late p
          version := fun fork => (versions.lookup fork).getD fork.defaultVersion
          votingSlots_lt := by simpa [Parameter.first] using votes
          roundCount_lt := by simpa [Parameter.first] using rounds
          treeDepth_lt := by simpa [Parameter.first] using depth }
      else refuse first .depositContractTreeDepth .treeDepth
    else refuse first .shuffleRoundCount .roundCount
  else refuse first .epochsPerEth1VotingPeriod .votingPeriod

/-- The parameters of the main network. -/
def mainnet : ChainSpec where
  value := Parameter.default
  version := ForkName.defaultVersion
  votingSlots_lt := by decide
  roundCount_lt := by decide
  treeDepth_lt := by decide

/-- Whether two chains have the same parameters. -/
def agree (a b : ChainSpec) : Bool :=
  Parameter.all.all (fun p => a.value p == b.value p) &&
    ForkName.all.all fun fork => a.version fork == b.version fork

end ChainSpec

end GenesisForge
