import GenesisForge.Chain.Records
import GenesisForge.Digest.Keccak256
import GenesisForge.Execution.Rlp

/-!
# Blocks of the execution chain

A genesis state is anchored to a block of the execution chain, which is known
by the digest of its header. Fields that later versions of the chain added to
the header may lack.
-/

namespace GenesisForge

open Ssz

/-- The header of a block of the execution chain. -/
structure ExecutionHeader where
  parentHash : Root
  ommersHash : Root
  beneficiary : Address
  stateRoot : Root
  transactionsRoot : Root
  receiptsRoot : Root
  logsBloom : LogsBloom
  difficulty : Word256
  number : UInt64
  gasLimit : UInt64
  gasUsed : UInt64
  timestamp : UInt64
  extraData : ByteArray
  mixHash : Root
  nonce : FixedBytes 8
  baseFeePerGas : Option UInt64
  withdrawalsRoot : Option Root
  blobGasUsed : Option UInt64
  excessBlobGas : Option UInt64
  parentBeaconBlockRoot : Option Root
  requestsHash : Option Root

namespace ExecutionHeader

/-- The encoding of an integer field. -/
def wordItem (n : UInt64) : ByteArray :=
  Rlp.number n.toNat

def rootItem (r : Root) : ByteArray :=
  Rlp.string r.bytes

/-- The encodings of the fields that every header has. -/
def items (h : ExecutionHeader) : List ByteArray :=
  [rootItem h.parentHash, rootItem h.ommersHash, Rlp.string h.beneficiary.bytes,
    rootItem h.stateRoot, rootItem h.transactionsRoot, rootItem h.receiptsRoot,
    Rlp.string h.logsBloom.bytes, Rlp.number h.difficulty.val, wordItem h.number,
    wordItem h.gasLimit, wordItem h.gasUsed, wordItem h.timestamp, Rlp.string h.extraData,
    rootItem h.mixHash, Rlp.string h.nonce.bytes]

/-- The encodings of the fields that a header may have, as far as it has them. -/
def laterItems (h : ExecutionHeader) : List ByteArray :=
  [h.baseFeePerGas.map wordItem, h.withdrawalsRoot.map rootItem, h.blobGasUsed.map wordItem,
    h.excessBlobGas.map wordItem, h.parentBeaconBlockRoot.map rootItem,
    h.requestsHash.map rootItem].filterMap id

def encode (h : ExecutionHeader) : ByteArray :=
  Rlp.list (h.items ++ h.laterItems)

end ExecutionHeader

structure ExecutionBlock where
  header : ExecutionHeader
  /-- The transactions in their own encoding. -/
  transactions : List ByteArray
  withdrawals : Option (List Withdrawal)

def ExecutionBlock.hash (block : ExecutionBlock) : Root :=
  keccak256 block.header.encode

end GenesisForge
