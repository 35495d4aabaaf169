import GenesisForge.ChainSpec
import GenesisForge.Genesis.Error

/-!
# Roots that a genesis state commits to

The withdrawals and the transactions of the execution block enter the state by
their roots, and so do the deposits, of which there are none yet.
-/

namespace GenesisForge

open Ssz

/-- The root of a value, unless one of its trees is too deep. -/
def rootOf (v : Value) : Except PartError Root :=
  match v.treeRoot? with
  | some root => .ok root
  | none => .error .treeTooDeep

def withdrawalsRoot (spec : ChainSpec) (withdrawals : List Withdrawal) : Except PartError Root := do
  let list ← limited (Bounded.ofList (spec.size .maxWithdrawalsPerPayload) withdrawals)
  rootOf (toValue list)

/-- The transactions of a payload, each of them within its limit. -/
def boundTransactions (spec : ChainSpec) (transactions : List ByteArray) :
    Except PartError (List ByteList) :=
  transactions.mapM fun data =>
    limited (ByteList.ofBytes (spec.size .maxBytesPerTransaction) data)

def transactionsRoot (spec : ChainSpec) (transactions : List ByteArray) :
    Except PartError Root := do
  let bound ← boundTransactions spec transactions
  let list ← limited (Bounded.ofList (spec.size .maxTransactionsPerPayload) bound)
  rootOf (toValue list)

/-- The value of the list of deposits before the first deposit. -/
def noDeposits (spec : ChainSpec) : Value :=
  .list (.container Schemas.depositData) spec.depositListLimit []

/-- The root of the deposits before the first deposit. -/
def depositRoot (spec : ChainSpec) : Except PartError Root :=
  rootOf (noDeposits spec)

/-- The mixes of randomness at genesis, all of them the hash of the block. -/
def randaoMixes (spec : ChainSpec) (blockHash : Root) : List Root :=
  List.replicate (spec.size .epochsPerHistoricalVector) blockHash

end GenesisForge
