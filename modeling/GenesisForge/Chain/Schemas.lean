import GenesisForge.Ssz.Shape

/-!
# Containers of the chain

The fields of every container, in the order in which they are encoded and
hashed. Containers that hold a sequence sized by the configuration are sized by
their values, all others by their shapes.
-/

namespace GenesisForge.Schemas

open Ssz

/-- A field whose integers are written as numbers. -/
def plain (name : String) (shape : Shape) : Field :=
  .mk name false shape

/-- A field whose integers are written as strings. -/
def quoted (name : String) (shape : Shape) : Field :=
  .mk name true shape

/-- A 64-bit integer. -/
def word : Shape := .uint 8

/-- A field holding a 64-bit integer. -/
def wordField (name : String) : Field :=
  quoted name word

def rootField (name : String) : Field :=
  plain name .root

/-- A field holding a byte string of a fixed length. -/
def bytesField (name : String) (length : Nat) : Field :=
  plain name (.bytes length)

/-- A field holding a list of containers. -/
def listField (name : String) (element : Schema) : Field :=
  plain name (.list (.container element))

def containerField (name : String) (schema : Schema) : Field :=
  plain name (.container schema)

/-- Bytes of an address of the execution chain. -/
def addressLength : Nat := 20

/-- Bytes of a compressed public key. -/
def publicKeyLength : Nat := 48

/-- Bytes of a compressed signature. -/
def signatureLength : Nat := 96

/-- Bytes of the filter over the logs of a block. -/
def logsBloomLength : Nat := 256

def forkVersionLength : Nat := 4

/-- Bytes of the attestation quote of a proposer. -/
def quoteLength : Nat := 8192

def fork : Schema := .mk "Fork" .byShape [
  bytesField "previous_version" forkVersionLength,
  bytesField "current_version" forkVersionLength,
  wordField "epoch"]

def checkpoint : Schema := .mk "Checkpoint" .byShape [
  wordField "epoch",
  rootField "root"]

def eth1Data : Schema := .mk "Eth1Data" .byShape [
  rootField "deposit_root",
  wordField "deposit_count",
  rootField "block_hash"]

def validator : Schema := .mk "Validator" .byShape [
  bytesField "pubkey" publicKeyLength,
  rootField "withdrawal_credentials",
  wordField "effective_balance",
  plain "slashed" .boolean,
  wordField "activation_eligibility_epoch",
  wordField "activation_epoch",
  wordField "exit_epoch",
  wordField "withdrawable_epoch"]

def syncCommittee : Schema := .mk "SyncCommittee" (.byValue true) [
  plain "pubkeys" (.vector (.bytes publicKeyLength)),
  bytesField "aggregate_pubkey" publicKeyLength]

def syncAggregate : Schema := .mk "SyncAggregate" (.byValue true) [
  plain "sync_committee_bits" .bitvector,
  bytesField "sync_committee_signature" signatureLength]

def withdrawal : Schema := .mk "Withdrawal" .byShape [
  wordField "index",
  wordField "validator_index",
  bytesField "address" addressLength,
  wordField "amount"]

def historicalSummary : Schema := .mk "HistoricalSummary" .byShape [
  rootField "block_summary_root",
  rootField "state_summary_root"]

/-- The fields that every header starts with. -/
def headerFields : List Field := [
  wordField "slot",
  wordField "proposer_index",
  rootField "parent_root",
  rootField "state_root",
  rootField "body_root"]

def blockHeader : Schema := .mk "BlockHeader" .byShape headerFields

def teeBlockHeader : Schema := .mk "TeeBlockHeader" .byShape (headerFields ++ [
  quoted "proposer_tee_type" (.uint 1),
  bytesField "proposer_tee_quote" quoteLength])

def signedBeaconBlockHeader : Schema := .mk "SignedBeaconBlockHeader" .byShape [
  containerField "message" blockHeader,
  bytesField "signature" signatureLength]

def proposerSlashing : Schema := .mk "ProposerSlashing" .byShape [
  containerField "signed_header_1" signedBeaconBlockHeader,
  containerField "signed_header_2" signedBeaconBlockHeader]

def attestationData : Schema := .mk "AttestationData" .byShape [
  wordField "slot",
  wordField "index",
  rootField "beacon_block_root",
  containerField "source" checkpoint,
  containerField "target" checkpoint]

def indexedAttestation : Schema := .mk "IndexedAttestation" .byShape [
  quoted "attesting_indices" (.list word),
  containerField "data" attestationData,
  bytesField "signature" signatureLength]

def attesterSlashing : Schema := .mk "AttesterSlashing" .byShape [
  containerField "attestation_1" indexedAttestation,
  containerField "attestation_2" indexedAttestation]

def attestation : Schema := .mk "Attestation" .byShape [
  plain "aggregation_bits" .bitlist,
  containerField "data" attestationData,
  bytesField "signature" signatureLength]

def attestationElectra : Schema := .mk "AttestationElectra" (.byValue false) [
  plain "aggregation_bits" .bitlist,
  containerField "data" attestationData,
  bytesField "signature" signatureLength,
  plain "committee_bits" .bitvector]

def depositData : Schema := .mk "DepositData" .byShape [
  bytesField "pubkey" publicKeyLength,
  rootField "withdrawal_credentials",
  wordField "amount",
  bytesField "signature" signatureLength]

def deposit : Schema := .mk "Deposit" .byShape [
  plain "proof" (.array .root 33),
  containerField "data" depositData]

def voluntaryExit : Schema := .mk "VoluntaryExit" .byShape [
  wordField "epoch",
  wordField "validator_index"]

def signedVoluntaryExit : Schema := .mk "SignedVoluntaryExit" .byShape [
  containerField "message" voluntaryExit,
  bytesField "signature" signatureLength]

def blsToExecutionChange : Schema := .mk "BlsToExecutionChange" .byShape [
  wordField "validator_index",
  bytesField "from_bls_pubkey" publicKeyLength,
  bytesField "to_execution_address" addressLength]

def signedBlsToExecutionChange : Schema := .mk "SignedBlsToExecutionChange" .byShape [
  containerField "message" blsToExecutionChange,
  bytesField "signature" signatureLength]

def depositRequest : Schema := .mk "DepositRequest" .byShape [
  bytesField "pubkey" publicKeyLength,
  rootField "withdrawal_credentials",
  wordField "amount",
  bytesField "signature" signatureLength,
  wordField "index"]

def withdrawalRequest : Schema := .mk "WithdrawalRequest" .byShape [
  bytesField "source_address" addressLength,
  bytesField "validator_pubkey" publicKeyLength,
  wordField "amount"]

def consolidationRequest : Schema := .mk "ConsolidationRequest" .byShape [
  bytesField "source_address" addressLength,
  bytesField "source_pubkey" publicKeyLength,
  bytesField "target_pubkey" publicKeyLength]

def executionRequests : Schema := .mk "ExecutionRequests" .byShape [
  listField "deposits" depositRequest,
  listField "withdrawals" withdrawalRequest,
  listField "consolidations" consolidationRequest]

def pendingDeposit : Schema := .mk "PendingDeposit" .byShape [
  bytesField "pubkey" publicKeyLength,
  rootField "withdrawal_credentials",
  wordField "amount",
  bytesField "signature" signatureLength,
  wordField "slot"]

def pendingPartialWithdrawal : Schema := .mk "PendingPartialWithdrawal" .byShape [
  wordField "validator_index",
  wordField "amount",
  wordField "withdrawable_epoch"]

def pendingConsolidation : Schema := .mk "PendingConsolidation" .byShape [
  wordField "source_index",
  wordField "target_index"]

/-- The fields of a payload up to its block hash. -/
def payloadFields : List Field := [
  rootField "parent_hash",
  bytesField "fee_recipient" addressLength,
  rootField "state_root",
  rootField "receipts_root",
  bytesField "logs_bloom" logsBloomLength,
  rootField "prev_randao",
  wordField "block_number",
  wordField "gas_limit",
  wordField "gas_used",
  wordField "timestamp",
  plain "extra_data" .byteList,
  quoted "base_fee_per_gas" (.uint 32),
  rootField "block_hash"]

def executionPayload : Schema := .mk "ExecutionPayload" .byShape (payloadFields ++ [
  plain "transactions" (.list .byteList),
  listField "withdrawals" withdrawal,
  wordField "blob_gas_used",
  wordField "excess_blob_gas"])

def executionPayloadHeader : Schema := .mk "ExecutionPayloadHeader" .byShape (payloadFields ++ [
  rootField "transactions_root",
  rootField "withdrawals_root",
  wordField "blob_gas_used",
  wordField "excess_blob_gas"])

/-- The fields of a block body with the given kind of attestation. -/
def bodyFields (attestation : Schema) : List Field := [
  bytesField "randao_reveal" signatureLength,
  containerField "eth1_data" eth1Data,
  bytesField "graffiti" 32,
  listField "proposer_slashings" proposerSlashing,
  listField "attester_slashings" attesterSlashing,
  listField "attestations" attestation,
  listField "deposits" deposit,
  listField "voluntary_exits" signedVoluntaryExit,
  containerField "sync_aggregate" syncAggregate,
  containerField "execution_payload" executionPayload,
  listField "bls_to_execution_changes" signedBlsToExecutionChange,
  plain "blob_kzg_commitments" (.list (.bytes publicKeyLength))]

def denebBlockBody : Schema := .mk "BlockBody" (.byValue false) (bodyFields attestation)

def electraBlockBody : Schema := .mk "BlockBody" (.byValue false)
  (bodyFields attestationElectra ++ [
    containerField "execution_requests" executionRequests])

/-- The fields of a beacon state that carries headers of the given shape. -/
def stateFields (header : Shape) : List Field := [
  wordField "genesis_time",
  rootField "genesis_validators_root",
  wordField "slot",
  containerField "fork" fork,
  plain "latest_block_header" header,
  plain "block_roots" (.vector .root),
  plain "state_roots" (.vector .root),
  plain "historical_roots" (.list .root),
  containerField "eth1_data" eth1Data,
  listField "eth1_data_votes" eth1Data,
  wordField "eth1_deposit_index",
  listField "validators" validator,
  quoted "balances" (.list word),
  plain "randao_mixes" (.vector .root),
  quoted "slashings" (.vector word),
  quoted "previous_epoch_participation" (.list (.uint 1)),
  quoted "current_epoch_participation" (.list (.uint 1)),
  plain "justification_bits" .bitvector,
  containerField "previous_justified_checkpoint" checkpoint,
  containerField "current_justified_checkpoint" checkpoint,
  containerField "finalized_checkpoint" checkpoint,
  quoted "inactivity_scores" (.list word),
  containerField "current_sync_committee" syncCommittee,
  containerField "next_sync_committee" syncCommittee,
  containerField "latest_execution_payload_header" executionPayloadHeader,
  wordField "next_withdrawal_index",
  wordField "next_withdrawal_validator_index",
  listField "historical_summaries" historicalSummary]

/-- The fields that the Electra fork adds to a beacon state. -/
def electraFields : List Field := [
  wordField "deposit_requests_start_index",
  wordField "deposit_balance_to_consume",
  wordField "exit_balance_to_consume",
  wordField "earliest_exit_epoch",
  wordField "consolidation_balance_to_consume",
  wordField "earliest_consolidation_epoch",
  listField "pending_deposits" pendingDeposit,
  listField "pending_partial_withdrawals" pendingPartialWithdrawal,
  listField "pending_consolidations" pendingConsolidation]

/-- The beacon state of the Deneb fork. -/
def denebState (header : Shape) : Schema :=
  .mk "BeaconState" (.byValue false) (stateFields header)

/-- The beacon state of the Electra fork. -/
def electraState (header : Shape) : Schema :=
  .mk "BeaconState" (.byValue false) (stateFields header ++ electraFields)

/-- The containers that have the same fields on every fork. -/
def shared : List Schema := [
  fork, checkpoint, eth1Data, validator, syncCommittee, syncAggregate, withdrawal,
  historicalSummary, blockHeader, teeBlockHeader, signedBeaconBlockHeader, proposerSlashing,
  attesterSlashing, indexedAttestation, attestation, attestationElectra, attestationData, deposit,
  depositData, signedVoluntaryExit, voluntaryExit, signedBlsToExecutionChange,
  blsToExecutionChange, depositRequest, withdrawalRequest, consolidationRequest,
  executionRequests, pendingDeposit, pendingPartialWithdrawal, pendingConsolidation,
  executionPayload, executionPayloadHeader]

end GenesisForge.Schemas
