import GenesisForge.Chain.State
import GenesisForge.Execution.Block
import GenesisForge.Genesis.Artifact
import GenesisForge.Genesis.Attestation
import GenesisForge.Genesis.Body
import GenesisForge.Genesis.SyncCommittee
import GenesisForge.Genesis.Validators

/-!
# Building a genesis state

A state is built in two steps. The parts that do not depend on the header build
are computed first, one after the other, and the first failure is that of the
whole. Then they are put together and the attestation of the proposer is
written into the header.
-/

namespace GenesisForge

open Ssz

/-- A fork whose states can be built. -/
inductive StateFork where
  | deneb
  | electra
deriving DecidableEq, Repr

/-- The fork among all forks. -/
def StateFork.toForkName : StateFork → ForkName
  | deneb => .deneb
  | electra => .electra

/-- What a genesis state is built from. -/
structure GenesisInputs where
  config : Config
  spec : ChainSpec
  block : ExecutionBlock
  /-- The block to anchor the state to instead of the first one. -/
  shadowBlock : Option ExecutionBlock
  validators : List GenesisValidator

namespace GenesisInputs

/-- The inputs without validators. -/
def new (config : Config) (spec : ChainSpec) (block : ExecutionBlock) : GenesisInputs :=
  ⟨config, spec, block, none, []⟩

/-- Anchors the state to another block. -/
def setShadowBlock (inputs : GenesisInputs) (block : ExecutionBlock) : GenesisInputs :=
  { inputs with shadowBlock := some block }

/-- Adds validators behind those given before. -/
def addValidators (inputs : GenesisInputs) (validators : List GenesisValidator) : GenesisInputs :=
  { inputs with validators := inputs.validators ++ validators }

/-- The block that the state is anchored to. -/
def sourceBlock (inputs : GenesisInputs) : ExecutionBlock :=
  inputs.shadowBlock.getD inputs.block

end GenesisInputs

/-- The time before the delay: the configured one, or that of the block where
it is zero. -/
def earliestTime (spec : ChainSpec) (block : ExecutionBlock) : UInt64 :=
  if spec.value .minGenesisTime = 0 then block.header.timestamp else spec.value .minGenesisTime

/-- The time of the genesis: the earliest time and the delay. -/
def genesisTime (spec : ChainSpec) (block : ExecutionBlock) : Except GenesisError UInt64 :=
  let earliest := earliestTime spec block
  let delay := spec.value .genesisDelay
  if earliest.toNat + delay.toNat < 2 ^ 64 then .ok (earliest + delay)
  else .error (.outOfRange Parameter.genesisDelay.key delay 0 (0xFFFFFFFFFFFFFFFF - earliest))

/-- The fork record of a genesis state. -/
def genesisFork (spec : ChainSpec) (fork : ForkName) : Fork :=
  ⟨spec.version fork.previous, spec.version fork, 0⟩

/-- A field of the block that must be there. -/
def requireField {α : Type} (name : String) : Option α → Except GenesisError α
  | some a => .ok a
  | none => .error (.missingField name)

/-- Refuses extra data that is too long. -/
def checkExtraData (data : ByteArray) : Except GenesisError Unit :=
  if data.size ≤ maxExtraDataLength then .ok ()
  else .error (.extraDataTooLong data.size maxExtraDataLength)

/-- A word as an integer of 256 bits. -/
def word256OfWord (n : UInt64) : Word256 :=
  ⟨n.toNat, Nat.lt_trans n.toNat_lt (by decide)⟩

/-- The root of the withdrawals of a block, the zero root where it has none. -/
def blockWithdrawalsRoot (spec : ChainSpec) (block : ExecutionBlock) :
    Except GenesisError Root :=
  match block.withdrawals with
  | some withdrawals => inPart "withdrawals root" (withdrawalsRoot spec withdrawals)
  | none => .ok (.zero 32)

/-- The payload header that stands for a block. Every check comes before the
first root. -/
def payloadHeader (spec : ChainSpec) (block : ExecutionBlock) :
    Except GenesisError ExecutionPayloadHeader := do
  let header := block.header
  checkExtraData header.extraData
  let blobGasUsed ← requireField "blob-gas-used" header.blobGasUsed
  let excessBlobGas ← requireField "excess-blob-gas" header.excessBlobGas
  let withdrawalsRoot ← blockWithdrawalsRoot spec block
  let transactionsRoot ← inPart "transactions root" (transactionsRoot spec block.transactions)
  let extraData ← inPart "extra data"
    (limited (ByteList.ofBytes maxExtraDataLength header.extraData))
  pure {
    parentHash := header.parentHash
    feeRecipient := header.beneficiary
    stateRoot := header.stateRoot
    receiptsRoot := header.receiptsRoot
    logsBloom := header.logsBloom
    prevRandao := .zero 32
    blockNumber := header.number
    gasLimit := header.gasLimit
    gasUsed := header.gasUsed
    timestamp := header.timestamp
    extraData
    baseFeePerGas := word256OfWord (header.baseFeePerGas.getD 0)
    blockHash := block.hash
    transactionsRoot
    withdrawalsRoot
    blobGasUsed
    excessBlobGas }

/-- The parts of a genesis state that are computed. -/
structure GenesisParts where
  genesisTime : UInt64
  fork : Fork
  payloadHeader : ExecutionPayloadHeader
  depositRoot : Root
  validators : Bounded Validator
  validatorsRoot : Root
  balances : Bounded UInt64
  participation : Bounded UInt8
  inactivityScores : Bounded UInt64
  syncCommittee : SyncCommittee
  bodyRoot : Root

/-- As many zeros as the registry has entries, under its limit. -/
def zeros {α : Type} [OfNat α 0] (registry : Bounded Validator) :
    Except PartError (Bounded α) :=
  limited (Bounded.ofList registry.limit (List.replicate registry.items.length 0))

def genesisBody (spec : ChainSpec) : StateFork → Value
  | .deneb => denebBody spec
  | .electra => electraBody spec

def genesisParts (fork : StateFork) (inputs : GenesisInputs) :
    Except GenesisError GenesisParts := do
  let spec := inputs.spec
  let block := inputs.sourceBlock
  let genesisTime ← genesisTime spec block
  let payloadHeader ← payloadHeader spec block
  let depositRoot ← (depositRoot spec).mapError (.ofPart "deposit root")
  let (validators, validatorsRoot) ←
    inPart "validators root" (registry spec fork.toForkName inputs.validators)
  let balances ← inPart "balances" (genesisBalances spec inputs.validators)
  let syncCommittee ← inPart "sync committee"
    (genesisSyncCommittee spec fork.toForkName validators.items payloadHeader.blockHash)
  let participation ← inPart "participation" (zeros validators)
  let inactivityScores ← inPart "inactivity scores" (zeros validators)
  let bodyRoot ← inPart "body root" (rootOf (genesisBody spec fork))
  pure {
    genesisTime
    fork := genesisFork spec fork.toForkName
    payloadHeader
    depositRoot
    validators
    validatorsRoot
    balances
    participation
    inactivityScores
    syncCommittee
    bodyRoot }

/-- Bits that tell which of the last epochs are justified. -/
def justificationBitCount : Nat := 4

section

variable {H : Type} [HeaderBuild H]

/-- The fields that states of both forks have. -/
def baseState (spec : ChainSpec) (parts : GenesisParts) (header : H) : BeaconState H where
  genesisTime := parts.genesisTime
  genesisValidatorsRoot := parts.validatorsRoot
  slot := 0
  fork := parts.fork
  latestBlockHeader := header
  blockRoots := List.replicate (spec.size .slotsPerHistoricalRoot) (.zero 32)
  stateRoots := List.replicate (spec.size .slotsPerHistoricalRoot) (.zero 32)
  historicalRoots := .empty (spec.size .historicalRootsLimit)
  eth1Data := ⟨parts.depositRoot, 0, parts.payloadHeader.blockHash⟩
  eth1DataVotes := .empty spec.votesLimit
  eth1DepositIndex := 0
  validators := parts.validators
  balances := parts.balances
  randaoMixes := randaoMixes spec parts.payloadHeader.blockHash
  slashings := List.replicate (spec.size .epochsPerSlashingsVector) 0
  previousEpochParticipation := parts.participation
  currentEpochParticipation := parts.participation
  justificationBits := .unset justificationBitCount
  previousJustifiedCheckpoint := .zero
  currentJustifiedCheckpoint := .zero
  finalizedCheckpoint := .zero
  inactivityScores := parts.inactivityScores
  currentSyncCommittee := parts.syncCommittee
  nextSyncCommittee := parts.syncCommittee
  latestExecutionPayloadHeader := parts.payloadHeader
  nextWithdrawalIndex := 0
  nextWithdrawalValidatorIndex := 0
  historicalSummaries := .empty (spec.size .historicalRootsLimit)

/-- What the Electra fork adds, with nothing pending. -/
def emptyElectraPart (spec : ChainSpec) : ElectraPart where
  depositRequestsStartIndex := 0
  depositBalanceToConsume := 0
  exitBalanceToConsume := 0
  earliestExitEpoch := 0
  consolidationBalanceToConsume := 0
  earliestConsolidationEpoch := 0
  pendingDeposits := .empty (spec.size .pendingDepositsLimit)
  pendingPartialWithdrawals := .empty (spec.size .pendingPartialWithdrawalsLimit)
  pendingConsolidations := .empty (spec.size .pendingConsolidationsLimit)

/-- Puts the parts together, with the given header. -/
def assemble (fork : StateFork) (spec : ChainSpec) (parts : GenesisParts) (header : H) :
    VersionedState H :=
  match fork with
  | .deneb => .deneb (baseState spec parts header)
  | .electra => .electra ⟨baseState spec parts header, emptyElectraPart spec⟩

/-- The header that commits to the body, with the attestation of the proposer. -/
def genesisHeader (config : Config) (parts : GenesisParts) : Except GenesisError H :=
  (attestFrom config (HeaderBuild.ofHeader (.ofBodyRoot parts.bodyRoot))).map (·.1)

/-- Builds a genesis state. -/
def buildState (fork : StateFork) (inputs : GenesisInputs) :
    Except GenesisError (VersionedState H) :=
  (genesisParts fork inputs).bind fun parts =>
    (genesisHeader inputs.config parts).map fun header => assemble fork inputs.spec parts header

/-! ## Notices -/

/-- What is told of the size of the genesis header. -/
def headerNotices (header : H) : List Notice :=
  let length := byteLength header
  .info ("Block header SSZ size after TEE application: " ++ toString length ++ " bytes " ++
    expectedHeaderSizes) ::
  (if length ≠ TeeBlockHeader.encodedLength ∧ length ≠ BlockHeader.encodedLength then
    [.warning ("Unexpected block header size " ++ toString length ++ " bytes, neither TEE (" ++
      toString TeeBlockHeader.encodedLength ++ ") nor standard (" ++
      toString BlockHeader.encodedLength ++ ")")]
  else [])

/-- What is told of a state that was built. -/
def stateNotices (state : VersionedState H) : List Notice :=
  headerNotices state.base.latestBlockHeader ++ [
    .info ("Genesis version: " ++ state.fork.name),
    .info ("Genesis time: " ++ toString state.base.genesisTime.toNat),
    .info ("Genesis validators root: " ++ Hex.encode state.base.genesisValidatorsRoot.bytes)]

/-- A genesis state or why there is none, and what is told on the way. -/
structure BuildReport (H : Type) where
  outcome : Except GenesisError (VersionedState H)
  notices : List Notice

/-- Builds a genesis state and keeps what is told on the way. The sources of
the attestation are told of once the parts are there. -/
def reportBuild (fork : StateFork) (inputs : GenesisInputs) : BuildReport H :=
  match genesisParts fork inputs with
  | .error e => ⟨.error e, []⟩
  | .ok parts =>
    let told := ProposerTee.notices inputs.config
    match genesisHeader inputs.config parts with
    | .error e => ⟨.error e, told⟩
    | .ok header =>
      let state := assemble fork inputs.spec parts header
      ⟨.ok state, told ++ stateNotices state⟩

theorem reportBuild_outcome (fork : StateFork) (inputs : GenesisInputs) :
    (reportBuild (H := H) fork inputs).outcome = buildState fork inputs := by
  unfold reportBuild buildState
  cases genesisParts fork inputs with
  | error e => rfl
  | ok parts =>
    simp only [Except.bind]
    cases genesisHeader (H := H) inputs.config parts <;> rfl

end

/-! ## Choosing the fork -/

/-- The fork that is active from the start, if its states can be built. -/
def forkAtGenesis (spec : ChainSpec) : Except GenesisError StateFork :=
  if spec.value .electraForkEpoch = 0 then .ok .electra
  else if spec.value .denebForkEpoch = 0 then .ok .deneb
  else .error (.unsupportedVersion ForkName.deneb.previous)

/-- The parameters that a configuration gives. -/
def specOf (config : Config) : Except GenesisError ChainSpec :=
  (ChainSpec.ofConfig config).mapError .config

/-- The fork and the inputs that a configuration and a block give. -/
def openGenesis (config : Config) (block : ExecutionBlock) :
    Except GenesisError (StateFork × GenesisInputs) := do
  let spec ← specOf config
  let fork ← forkAtGenesis spec
  pure (fork, .new config spec block)

/-! ## Writing a state -/

section

variable {H : Type} [Serializable H]

/-- The artifact of a state as made by the builder of a fork, which knows only
the states of its own fork. -/
def serialize (fork : StateFork) (state : VersionedState H) (form : ContentType) :
    Except GenesisError ByteArray :=
  if state.fork = fork.toForkName then .ok (artifact state form)
  else .error (.unsupportedVersion state.fork)

/-- An artifact or why there is none, and what is told on the way. -/
structure ArtifactReport where
  outcome : Except GenesisError ByteArray
  notices : List Notice

/-- Makes the artifact of a state and keeps what is told on the way. Behind the binary
encoding the first offset is checked, where the builder expects `slots` roots in each of
the two vectors, and nothing but the notices depends on the answer. -/
def reportArtifact (fork : StateFork) (slots : Nat) (state : VersionedState H)
    (form : ContentType) : ArtifactReport :=
  if state.fork = fork.toForkName then
    let bytes := artifact state form
    ⟨.ok bytes, artifactNotices state slots bytes form⟩
  else ⟨.error (.unsupportedVersion state.fork), []⟩

theorem reportArtifact_outcome (fork : StateFork) (slots : Nat) (state : VersionedState H)
    (form : ContentType) :
    (reportArtifact fork slots state form).outcome = serialize fork state form := by
  unfold reportArtifact serialize
  split <;> rfl

end

end GenesisForge
