import GenesisForge.ChainSpec
import GenesisForge.Genesis.Roots
import GenesisForge.Structured

/-!
# Genesis validators

The registry lists the genesis validators in the order in which they were
given. A balance is rounded down to the increment and capped to become the
effective balance, and who has the full effective balance is active from the
start. Since the Electra fork the cap depends on the withdrawal credentials,
and the least balance for activation is enough.
-/

namespace GenesisForge

open Ssz Structured

/-- A validator as given for the genesis. -/
structure GenesisValidator where
  pubkey : PublicKey
  withdrawalCredentials : Root
  /-- The balance, or none for the greatest effective one. -/
  balance : Option UInt64

namespace GenesisValidator

def fieldNames : List String := ["pubkey", "withdrawal_credentials", "balance"]

/-- The balance that a document gives; null gives none. -/
def readBalance? {D : Type} [Structured D] : Option D → Option (Option UInt64)
  | none => some none
  | some d =>
    match present? d with
    | none => none
    | some none => some none
    | some (some d) => (word? d).map some

/-- The validator that a document holds. -/
def read? {D : Type} [Structured D] (d : D) : Option GenesisValidator :=
  match members? fieldNames d with
  | some [some pubkey, some credentials, balance] => do
    pure ⟨← bytes? _ pubkey, ← root? credentials, ← readBalance? balance⟩
  | _ => none

/-- The validators that a document holds. -/
def readAll? {D : Type} [Structured D] (d : D) : Option (List GenesisValidator) :=
  (items? d).bind fun items => items.mapM read?

def balanceIn (spec : ChainSpec) (v : GenesisValidator) : UInt64 :=
  v.balance.getD (spec.value .maxEffectiveBalance)

/-- Whether the credentials let the balance grow beyond the least one. -/
def isCompounding (v : GenesisValidator) : Bool :=
  v.withdrawalCredentials.bytes.data[0]? == some 0x02

/-- The balance rounded down to a multiple of the increment. -/
def roundedBalance (spec : ChainSpec) (v : GenesisValidator) : UInt64 :=
  let balance := v.balanceIn spec
  balance - balance % max 1 (spec.value .effectiveBalanceIncrement)

/-- The greatest effective balance of a validator. -/
def cap (spec : ChainSpec) (fork : ForkName) (v : GenesisValidator) : UInt64 :=
  match fork with
  | .electra =>
    if v.isCompounding then spec.value .maxEffectiveBalanceElectra
    else spec.value .minActivationBalance
  | _ => spec.value .maxEffectiveBalance

def effectiveBalance (spec : ChainSpec) (fork : ForkName) (v : GenesisValidator) : UInt64 :=
  min (v.roundedBalance spec) (v.cap spec fork)

/-- Whether the validator is active from the start. -/
def isActive (spec : ChainSpec) (fork : ForkName) (v : GenesisValidator) : Bool :=
  match fork with
  | .electra => spec.value .minActivationBalance ≤ v.effectiveBalance spec fork
  | _ => v.effectiveBalance spec fork == spec.value .maxEffectiveBalance

/-- The entry of the validator in the registry. -/
def toEntry (spec : ChainSpec) (fork : ForkName) (v : GenesisValidator) : Validator :=
  let activation := if v.isActive spec fork then 0 else farFutureEpoch
  { pubkey := v.pubkey
    withdrawalCredentials := v.withdrawalCredentials
    effectiveBalance := v.effectiveBalance spec fork
    slashed := false
    activationEligibilityEpoch := activation
    activationEpoch := activation
    exitEpoch := farFutureEpoch
    withdrawableEpoch := farFutureEpoch }

end GenesisValidator

def registryEntries (spec : ChainSpec) (fork : ForkName) (validators : List GenesisValidator) :
    List Validator :=
  validators.map (·.toEntry spec fork)

def registry (spec : ChainSpec) (fork : ForkName) (validators : List GenesisValidator) :
    Except PartError (Bounded Validator × Root) := do
  let entries ← limited
    (Bounded.ofList (spec.size .validatorRegistryLimit) (registryEntries spec fork validators))
  pure (entries, ← rootOf (toValue entries))

def genesisBalances (spec : ChainSpec) (validators : List GenesisValidator) :
    Except PartError (Bounded UInt64) :=
  limited (Bounded.ofList (spec.size .validatorRegistryLimit)
    (validators.map (·.balanceIn spec)))

end GenesisForge
