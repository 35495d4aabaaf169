import GenesisForge.Genesis.SyncCommittee
import GenesisForge.Genesis.Validators
import Mathlib.Data.List.Forall2

/-!
# Effective balances at genesis

The registry gives every validator the greatest multiple of the increment that its balance
covers, cut to the cap that the fork and the credentials set.  An increment of zero counts
as one, and a cap that is no multiple of the increment is still met exactly.  A validator is
active if its effective balance reaches a bound, so a greater balance never takes its
activity away.
-/

namespace GenesisForge

/-- What balances are rounded down to a multiple of. -/
def ChainSpec.balanceStep (spec : ChainSpec) : Nat :=
  max 1 (spec.size .effectiveBalanceIncrement)

theorem ChainSpec.balanceStep_pos (spec : ChainSpec) : 0 < spec.balanceStep :=
  Nat.le_max_left _ _

namespace GenesisValidator

variable {spec : ChainSpec} {fork : ForkName} {v w : GenesisValidator}

/-! ## Rounding and capping -/

theorem toNat_roundedBalance (spec : ChainSpec) (v : GenesisValidator) :
    (v.roundedBalance spec).toNat =
      spec.balanceStep * ((v.balanceIn spec).toNat / spec.balanceStep) := by
  have hstep : (max 1 (spec.value .effectiveBalanceIncrement)).toNat = spec.balanceStep :=
    UInt64.toNat_max _ _
  unfold roundedBalance
  generalize v.balanceIn spec = balance
  have hmod : balance % max 1 (spec.value .effectiveBalanceIncrement) ≤ balance := by
    rw [UInt64.le_iff_toNat_le, UInt64.toNat_mod]
    exact Nat.mod_le _ _
  rw [UInt64.toNat_sub_of_le _ _ hmod, UInt64.toNat_mod, hstep, Nat.mul_div_self_eq_mod_sub_self]

theorem toNat_effectiveBalance
    (spec : ChainSpec) (fork : ForkName) (v : GenesisValidator) :
    (v.effectiveBalance spec fork).toNat =
      min (v.cap spec fork).toNat
        (spec.balanceStep * ((v.balanceIn spec).toNat / spec.balanceStep)) := by
  rw [← toNat_roundedBalance, Nat.min_comm]
  exact UInt64.toNat_min _ _

theorem effectiveBalance_le_balanceIn
    (spec : ChainSpec) (fork : ForkName) (v : GenesisValidator) :
    v.effectiveBalance spec fork ≤ v.balanceIn spec := by
  rw [UInt64.le_iff_toNat_le, toNat_effectiveBalance]
  exact Nat.le_trans (Nat.min_le_right _ _) (Nat.mul_div_le _ _)

theorem effectiveBalance_le_cap
    (spec : ChainSpec) (fork : ForkName) (v : GenesisValidator) :
    v.effectiveBalance spec fork ≤ v.cap spec fork := by
  rw [UInt64.le_iff_toNat_le, toNat_effectiveBalance]
  exact Nat.min_le_left _ _

/-- Below the cap nothing but the rounding takes from a balance. -/
theorem dvd_and_sub_lt_of_lt_cap (hlt : v.effectiveBalance spec fork < v.cap spec fork) :
    spec.balanceStep ∣ (v.effectiveBalance spec fork).toNat ∧
      (v.balanceIn spec).toNat - (v.effectiveBalance spec fork).toNat < spec.balanceStep := by
  rw [UInt64.lt_iff_toNat_lt, toNat_effectiveBalance] at hlt
  have hrounded : (v.effectiveBalance spec fork).toNat =
      spec.balanceStep * ((v.balanceIn spec).toNat / spec.balanceStep) := by
    rw [toNat_effectiveBalance]
    omega
  rw [hrounded]
  constructor
  · exact Nat.dvd_mul_right _ _
  · rw [← Nat.mod_eq_sub_mul_div]
    exact Nat.mod_lt _ spec.balanceStep_pos

theorem cap_congr (hcredentials : v.withdrawalCredentials = w.withdrawalCredentials) :
    v.cap spec fork = w.cap spec fork := by
  unfold cap isCompounding
  rw [hcredentials]

theorem effectiveBalance_mono
    (hcredentials : v.withdrawalCredentials = w.withdrawalCredentials)
    (hbalance : v.balanceIn spec ≤ w.balanceIn spec) :
    v.effectiveBalance spec fork ≤ w.effectiveBalance spec fork := by
  rw [UInt64.le_iff_toNat_le] at hbalance
  have hrounded := Nat.mul_le_mul_left spec.balanceStep
    (Nat.div_le_div_right (c := spec.balanceStep) hbalance)
  rw [UInt64.le_iff_toNat_le, toNat_effectiveBalance, toNat_effectiveBalance,
    cap_congr hcredentials]
  omega

/-! ## Activity -/

/-- The least effective balance of an active validator. -/
def activationBalance (spec : ChainSpec) : ForkName → UInt64
  | .electra => spec.value .minActivationBalance
  | _ => spec.value .maxEffectiveBalance

theorem isActive_iff :
    v.isActive spec fork ↔ activationBalance spec fork ≤ v.effectiveBalance spec fork := by
  have hcap := effectiveBalance_le_cap spec fork v
  cases fork with
  | electra => exact decide_eq_true_iff
  | _ =>
      -- Nobody has more than the greatest effective balance, so to reach it is to have it.
      unfold isActive activationBalance
      rw [beq_iff_eq]
      constructor
      · intro hfull
        rw [hfull]
        exact UInt64.le_refl _
      · intro hreached
        exact UInt64.le_antisymm hcap hreached

theorem isActive_mono
    (hcredentials : v.withdrawalCredentials = w.withdrawalCredentials)
    (hbalance : v.balanceIn spec ≤ w.balanceIn spec) (hactive : v.isActive spec fork) :
    w.isActive spec fork := by
  rw [isActive_iff] at hactive ⊢
  exact UInt64.le_trans hactive (effectiveBalance_mono hcredentials hbalance)

/-- Before Electra only the greatest effective balance makes a validator active. -/
theorem effectiveBalance_of_isActive
    (hfork : fork ≠ .electra) (hactive : v.isActive spec fork) :
    v.effectiveBalance spec fork = spec.value .maxEffectiveBalance := by
  cases fork with
  | electra => exact absurd rfl hfork
  | _ => exact eq_of_beq hactive

theorem isActiveAt_toEntry_of_lt
    (spec : ChainSpec) (fork : ForkName) (v : GenesisValidator) {epoch : UInt64}
    (hepoch : epoch < farFutureEpoch) :
    (v.toEntry spec fork).isActiveAt epoch = v.isActive spec fork := by
  cases hactive : v.isActive spec fork with
  | true => simp [Validator.isActiveAt, GenesisValidator.toEntry, hactive, hepoch]
  | false =>
      simp [Validator.isActiveAt, GenesisValidator.toEntry, hactive, UInt64.not_le.mpr hepoch]

theorem activationEpoch_toEntry_eq_zero_iff :
    (v.toEntry spec fork).activationEpoch = 0 ↔ v.isActive spec fork := by
  cases hactive : v.isActive spec fork with
  | true => simp [toEntry, hactive]
  | false => simp [toEntry, hactive, farFutureEpoch]

end GenesisValidator

/-! ## The registry -/

/-- An entry of the registry is what the law of rounding and capping makes of a validator
given for the genesis. -/
structure Validator.FollowsBalanceLaw
    (entry : Validator) (spec : ChainSpec) (fork : ForkName) (v : GenesisValidator) : Prop where
  pubkey : entry.pubkey = v.pubkey
  credentials : entry.withdrawalCredentials = v.withdrawalCredentials
  rounded : entry.effectiveBalance.toNat =
    min (v.cap spec fork).toNat
      (spec.balanceStep * ((v.balanceIn spec).toNat / spec.balanceStep))
  le_balance : entry.effectiveBalance ≤ v.balanceIn spec
  le_cap : entry.effectiveBalance ≤ v.cap spec fork
  below_cap : entry.effectiveBalance < v.cap spec fork →
    spec.balanceStep ∣ entry.effectiveBalance.toNat ∧
      (v.balanceIn spec).toNat - entry.effectiveBalance.toNat < spec.balanceStep
  epochs : entry.activationEligibilityEpoch = 0 ∧ entry.activationEpoch = 0 ∨
    entry.activationEligibilityEpoch = farFutureEpoch ∧ entry.activationEpoch = farFutureEpoch
  isActiveAt_iff : ∀ epoch < farFutureEpoch,
    (entry.isActiveAt epoch ↔ entry.activationEpoch = 0)
  before_electra : fork ≠ .electra → entry.activationEpoch = 0 →
    entry.effectiveBalance = spec.value .maxEffectiveBalance
  not_compounding : fork = .electra → ¬ v.isCompounding → entry.activationEpoch = 0 →
    entry.effectiveBalance = spec.value .minActivationBalance
  compounding : fork = .electra → v.isCompounding → entry.activationEpoch = 0 →
    spec.value .minActivationBalance ≤ entry.effectiveBalance ∧
      entry.effectiveBalance ≤ spec.value .maxEffectiveBalanceElectra

/-- The validator of an entry has the same credentials elsewhere and no smaller balance. -/
def GenesisValidator.RaisedTo (spec : ChainSpec) (v w : GenesisValidator) : Prop :=
  v.withdrawalCredentials = w.withdrawalCredentials ∧ v.balanceIn spec ≤ w.balanceIn spec

theorem GenesisValidator.toEntry_followsBalanceLaw
    (spec : ChainSpec) (fork : ForkName) (v : GenesisValidator) :
    (v.toEntry spec fork).FollowsBalanceLaw spec fork v := by
  have hcap : v.effectiveBalance spec fork ≤ v.cap spec fork := effectiveBalance_le_cap spec fork v
  constructor
  case pubkey => rfl
  case credentials => rfl
  case rounded => exact toNat_effectiveBalance spec fork v
  case le_balance => exact effectiveBalance_le_balanceIn spec fork v
  case le_cap => exact hcap
  case below_cap =>
    intro hlt
    exact dvd_and_sub_lt_of_lt_cap hlt
  case epochs =>
    by_cases hactive : v.isActive spec fork
    · simp [toEntry, hactive]
    · simp [toEntry, hactive]
  case isActiveAt_iff =>
    intro epoch hepoch
    rw [isActiveAt_toEntry_of_lt spec fork v hepoch, activationEpoch_toEntry_eq_zero_iff]
  case before_electra =>
    intro hfork hactive
    rw [activationEpoch_toEntry_eq_zero_iff] at hactive
    exact effectiveBalance_of_isActive hfork hactive
  case not_compounding =>
    intro hfork hplain hactive
    subst hfork
    rw [activationEpoch_toEntry_eq_zero_iff, isActive_iff] at hactive
    rw [cap, if_neg hplain] at hcap
    exact UInt64.le_antisymm hcap hactive
  case compounding =>
    intro hfork hcompounding hactive
    subst hfork
    rw [activationEpoch_toEntry_eq_zero_iff, isActive_iff] at hactive
    rw [cap, if_pos hcompounding] at hcap
    exact ⟨hactive, hcap⟩

/-- Every entry of the registry stands at the place of its validator and follows the law of
rounding and capping, and raised balances neither lower an effective balance nor end an
activity. -/
theorem registryEntries_follow_balanceLaw
    (spec : ChainSpec) (fork : ForkName) (given : List GenesisValidator) :
    List.Forall₂ (fun v entry => entry.FollowsBalanceLaw spec fork v) given
      (registryEntries spec fork given) ∧
    ∀ raised : List GenesisValidator,
      List.Forall₂ (GenesisValidator.RaisedTo spec) given raised →
      List.Forall₂
        (fun entry larger => entry.effectiveBalance ≤ larger.effectiveBalance ∧
          (entry.activationEpoch = 0 → larger.activationEpoch = 0))
        (registryEntries spec fork given) (registryEntries spec fork raised) := by
  unfold registryEntries
  constructor
  · rw [List.forall₂_map_right_iff, List.forall₂_same]
    intro v _
    exact v.toEntry_followsBalanceLaw spec fork
  · intro raised hraised
    rw [List.forall₂_map_left_iff, List.forall₂_map_right_iff]
    apply hraised.imp
    intro v w ⟨hcredentials, hbalance⟩
    constructor
    · exact GenesisValidator.effectiveBalance_mono hcredentials hbalance
    · intro hactive
      rw [GenesisValidator.activationEpoch_toEntry_eq_zero_iff] at hactive ⊢
      exact GenesisValidator.isActive_mono hcredentials hbalance hactive

/-- The main network with a least balance for activation that is no multiple of the
increment. -/
def unevenSpec : ChainSpec where
  value := fun p => if p = .minActivationBalance then 32500000000 else p.default
  version := ForkName.defaultVersion
  votingSlots_lt := by decide
  roundCount_lt := by decide
  treeDepth_lt := by decide

/-- A validator with the balance that is given where none is told. -/
def waitingValidator : GenesisValidator := ⟨.zero _, .zero 32, none⟩

def fundedValidator : GenesisValidator := ⟨.zero _, .zero 32, some 33700000000⟩

theorem registryEntries_unevenSpec :
    ∃ entry larger,
      registryEntries unevenSpec .electra [waitingValidator] = [entry] ∧
      registryEntries unevenSpec .electra [fundedValidator] = [larger] ∧
      1000000000 ∣ entry.effectiveBalance.toNat ∧
      entry.effectiveBalance ≤ larger.effectiveBalance ∧
      larger.effectiveBalance = 32500000000 := by
  have hraised : List.Forall₂ (GenesisValidator.RaisedTo unevenSpec)
      [waitingValidator] [fundedValidator] :=
    .cons ⟨rfl, by decide⟩ .nil
  obtain ⟨hwaiting, hlarger⟩ :=
    registryEntries_follow_balanceLaw unevenSpec .electra [waitingValidator]
  obtain ⟨hfunded, -⟩ := registryEntries_follow_balanceLaw unevenSpec .electra [fundedValidator]
  have hstep := ((List.forall₂_cons.mp hwaiting).1.below_cap (by decide)).1
  have hle := (List.forall₂_cons.mp (hlarger [fundedValidator] hraised)).1.1
  have hcap := (List.forall₂_cons.mp hfunded).1.not_compounding rfl (by decide) (by decide)
  exact ⟨_, _, rfl, rfl, hstep, hle, hcap⟩

end GenesisForge
