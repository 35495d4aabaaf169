import GenesisForge.Bls.PublicKey
import GenesisForge.ChainSpec
import GenesisForge.Digest.Sha256
import GenesisForge.Genesis.Error
import GenesisForge.Shuffle

/-!
# Sync committee at genesis

The members are drawn for epoch 1 from the active validators. Candidates come
in shuffled order, over and over, and a candidate is accepted by the chance
that its effective balance has of the greatest one, so a validator may be a
member more than once. Only the keys of members are looked at.

Balances are compared by products of words, which wrap around.
-/

namespace GenesisForge

open Shuffle Bls

/-- The number of bytes that mark seeds of sync committees, as a prefix. -/
def syncCommitteeDomain : ByteArray := ByteArray.mk #[7, 0, 0, 0]

/-- The seed of an epoch when every mix of randomness is `mix`. -/
def syncCommitteeSeed (hash : Hash) (epoch : UInt64) (mix : Root) : Root :=
  hash (syncCommitteeDomain ++ Bytes.littleEndian 8 epoch.toNat ++ mix.bytes)

/-- The epoch that the committee of a genesis state is drawn for. -/
def committeeEpoch : UInt64 := 1

def Validator.isActiveAt (v : Validator) (epoch : UInt64) : Bool :=
  v.activationEpoch ≤ epoch && epoch < v.exitEpoch

/-- The indices of the active validators from index `start` on. -/
def activeFrom (epoch : UInt64) : Nat → List Validator → List Nat
  | _, [] => []
  | index, v :: rest =>
    if v.isActiveAt epoch then index :: activeFrom epoch (index + 1) rest
    else activeFrom epoch (index + 1) rest

def activeIndices (validators : List Validator) (epoch : UInt64) : List Nat :=
  activeFrom epoch 0 validators

/-! ## Accepting candidates -/

/-- How a fork draws random numbers for candidates. -/
structure Lottery where
  /-- Bytes of a random number. -/
  width : Nat
  /-- The effective balance that others are compared with. -/
  ceiling : UInt64

namespace Lottery

def ofFork (spec : ChainSpec) : ForkName → Lottery
  | .electra => ⟨2, spec.value .maxEffectiveBalanceElectra⟩
  | _ => ⟨1, spec.value .maxEffectiveBalance⟩

/-- How many candidates share a hash. -/
def perHash (l : Lottery) : Nat := 32 / l.width

/-- The hash that the candidate of a number draws from. -/
def source (l : Lottery) (hash : Hash) (seed : Root) (counter : Nat) : Root :=
  hash (seed.bytes ++ Bytes.littleEndian 8 (counter / l.perHash))

/-- The greatest number that can be drawn. -/
def greatestDraw (l : Lottery) : UInt64 := .ofNat (256 ^ l.width - 1)

/-- The number that a candidate draws. -/
def draw (l : Lottery) (source : Root) (counter : Nat) : UInt64 :=
  let start := counter % l.perHash * l.width
  .ofNat (Bytes.littleEndianValue (source.bytes.extract start (start + l.width)))

/-- Whether a candidate with an effective balance is accepted. -/
def accepts (l : Lottery) (drawn balance : UInt64) : Bool :=
  l.ceiling * drawn ≤ balance * l.greatestDraw

end Lottery

/-! ## Selecting members -/

/-- What the selection goes through: the index of the candidate that each
counter proposes, and the effective balance at an index. -/
structure Candidates where
  propose : Nat → Nat
  balance : Nat → UInt64

/-- Selects members from the candidate of number `counter` on until `missing`
more are found. `source` is the hash that the candidate draws from, and
`before` holds the members so far in reverse. -/
def selectFrom (l : Lottery) (hash : Hash) (seed : Root) (candidates : Candidates) :
    Nat → Nat → Nat → Root → List Nat → Option (List Nat)
  | _, 0, _, _, before => some before.reverse
  | 0, _ + 1, _, _, _ => none
  | fuel + 1, missing + 1, counter, source, before =>
    let source := if counter % l.perHash = 0 then l.source hash seed counter else source
    let candidate := candidates.propose counter
    if l.accepts (l.draw source counter) (candidates.balance candidate) then
      selectFrom l hash seed candidates fuel missing (counter + 1) source (candidate :: before)
    else selectFrom l hash seed candidates fuel (missing + 1) (counter + 1) source before

/-- The candidates in shuffled order, over and over. The order is computed
where it is looked at, and once only. -/
def shuffledCandidates (hash : Hash) (seed : Root) (rounds : Nat) (active : Array Nat)
    (validators : Array Validator) : Candidates :=
  let order := (Array.range active.size).map fun i => Thunk.mk fun _ =>
    active.getD (shuffledIndex hash seed active.size rounds i) 0
  { propose := fun counter => ((order[counter % active.size]?).map Thunk.get).getD 0
    balance := fun index => ((validators[index]?).map (·.effectiveBalance)).getD 0 }

def syncCommitteeIndices (hash : Hash) (spec : ChainSpec) (fork : ForkName)
    (validators : List Validator) (mix : Root) : Except PartError (List Nat) :=
  let active := (activeIndices validators committeeEpoch).toArray
  if active.isEmpty then .error .noActiveValidators
  else
    let seed := syncCommitteeSeed hash committeeEpoch mix
    let candidates :=
      shuffledCandidates hash seed (spec.size .shuffleRoundCount) active validators.toArray
    match selectFrom (.ofFork spec fork) hash seed candidates (2 ^ 64)
        (spec.size .syncCommitteeSize) 0 (.zero 32) [] with
    | some indices => .ok indices
    | none => .error .neverFull

/-! ## Aggregating keys -/

/-- The members of some indices, each with its entry in the registry. -/
def membersOf (validators : Array Validator) (indices : List Nat) : List (Nat × Validator) :=
  indices.filterMap fun index => (validators[index]?).map (index, ·)

/-- The point of a key, or the failure that names the key. -/
def keyPoint (key : PublicKey) : Except PartError Point :=
  (validPoint key).mapError (.invalidPublicKey (Hex.digits key.bytes))

/-- The points of the members, each key being looked at once. `known` holds
the points found so far by index. -/
def memberPoints :
    List (Nat × Validator) → Array (Option Point) → List Point → Except PartError (List Point)
  | [], _, before => .ok before.reverse
  | (index, v) :: rest, known, before =>
    match known.getD index none with
    | some p => memberPoints rest known (p :: before)
    | none =>
      match keyPoint v.pubkey with
      | .error e => .error e
      | .ok p => memberPoints rest (known.setIfInBounds index (some p)) (p :: before)

/-- The committee of the members with the given indices. -/
def committeeOf (validators : Array Validator) (indices : List Nat) :
    Except PartError SyncCommittee :=
  let members := membersOf validators indices
  match memberPoints members (Array.replicate validators.size none) [] with
  | .error e => .error e
  | .ok [] => .error (.invalidPublicKey "aggregate" .nothingToAggregate)
  | .ok (p :: ps) => .ok ⟨members.map (·.2.pubkey), compress (Point.sum (p :: ps))⟩

/-- The sync committee of a genesis state. -/
def genesisSyncCommittee (spec : ChainSpec) (fork : ForkName) (validators : List Validator)
    (mix : Root) : Except PartError SyncCommittee := do
  let indices ← syncCommitteeIndices sha256 spec fork validators mix
  committeeOf validators.toArray indices

end GenesisForge
