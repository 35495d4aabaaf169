import GenesisForge.Proofs.ConsistentGenesis

/-!
# Agreement of the two forks

The same inputs make a Deneb state and an Electra state of one chain.  The forks differ
in their versions, in the body that the header commits to, in how members are drawn for
the sync committee, and in what they make of a balance: the cap on the effective balance
and the rule of activation.  Where the two caps are the same number and no credentials
are compounding, the two rules are the same, since a capped balance is at least the cap
exactly if it is the cap.
-/

namespace GenesisForge

open Ssz Bls

/-! ## What a fork makes of a balance -/

namespace GenesisValidator

theorem isCompounding_eq_false
    {v : GenesisValidator} (hcredentials : v.withdrawalCredentials.bytes.data[0]? ≠ some 0x02) :
    v.isCompounding = false :=
  beq_false_of_ne hcredentials

section

variable {spec : ChainSpec} {v : GenesisValidator}
variable (hcaps : spec.value .maxEffectiveBalance = spec.value .minActivationBalance)
variable (hplain : v.isCompounding = false)

include hcaps hplain

theorem effectiveBalance_electra_eq :
    v.effectiveBalance spec .electra = v.effectiveBalance spec .deneb := by
  have hcap : v.cap spec .electra = v.cap spec .deneb := by
    rw [cap, hplain, if_neg Bool.false_ne_true]
    exact hcaps.symm
  rw [effectiveBalance, effectiveBalance, hcap]

theorem isActive_electra_eq : v.isActive spec .electra = v.isActive spec .deneb := by
  have hleast : activationBalance spec .electra = activationBalance spec .deneb := hcaps.symm
  rw [Bool.eq_iff_iff, isActive_iff, isActive_iff, effectiveBalance_electra_eq hcaps hplain, hleast]

theorem toEntry_electra_eq : v.toEntry spec .electra = v.toEntry spec .deneb := by
  rw [toEntry, toEntry, effectiveBalance_electra_eq hcaps hplain,
    isActive_electra_eq hcaps hplain]

end

end GenesisValidator

/-- Entries of one validator that differ at most in what its fork makes of its balance. -/
def Validator.AgreesOutsideBalance (a b : Validator) : Prop :=
  b = { a with
    effectiveBalance := b.effectiveBalance
    activationEligibilityEpoch := b.activationEligibilityEpoch
    activationEpoch := b.activationEpoch }

theorem registryEntries_agree
    (spec : ChainSpec) (fork other : ForkName) (validators : List GenesisValidator) :
    List.Forall₂ Validator.AgreesOutsideBalance (registryEntries spec fork validators)
      (registryEntries spec other validators) := by
  rw [registryEntries, registryEntries, List.forall₂_map_left_iff, List.forall₂_map_right_iff,
    List.forall₂_same]
  intro v _
  rfl

/-! ## Headers that commit to different bodies -/

/-- A header build whose body root can be replaced, whatever attestation it keeps. -/
class CommitsToBody (H : Type) extends HeaderBuild H where
  setBodyRoot : Root → H → H
  setBodyRoot_ofHeader (root : Root) (h : BlockHeader) :
    setBodyRoot root (ofHeader h) = ofHeader { h with bodyRoot := root }
  setBodyRoot_writeTag (root : Root) (tag : UInt8) (h : H) :
    setBodyRoot root (writeTag tag h) = writeTag tag (setBodyRoot root h)
  setBodyRoot_writeQuote (root : Root) (quote : ByteArray) (h : H) :
    setBodyRoot root (writeQuote quote h) = writeQuote quote (setBodyRoot root h)

instance : CommitsToBody BlockHeader where
  setBodyRoot root h := { h with bodyRoot := root }
  setBodyRoot_ofHeader _ _ := rfl
  setBodyRoot_writeTag _ _ _ := rfl
  setBodyRoot_writeQuote _ _ _ := rfl

instance : CommitsToBody TeeBlockHeader where
  setBodyRoot root h := { h with base := { h.base with bodyRoot := root } }
  setBodyRoot_ofHeader _ _ := rfl
  setBodyRoot_writeTag _ _ _ := rfl
  setBodyRoot_writeQuote _ _ _ := rfl

export CommitsToBody (setBodyRoot)

section

variable {H : Type} [CommitsToBody H]

theorem setBodyRoot_attest
    (root : Root) (vendor : TeeVendor) (quote : ByteArray) (header : H) :
    setBodyRoot root (attest vendor quote header) =
      attest vendor quote (setBodyRoot root header) := by
  rw [attest, CommitsToBody.setBodyRoot_writeQuote, CommitsToBody.setBodyRoot_writeTag, attest]

/-- The headers of two builds under one configuration differ in the body root alone. -/
theorem eq_setBodyRoot_of_genesisHeader
    {config : Config} {parts others : GenesisParts} {header other : H}
    (hheader : genesisHeader config parts = .ok header)
    (hother : genesisHeader config others = .ok other) :
    other = setBodyRoot others.bodyRoot header := by
  rw [genesisHeader_eq_map] at hheader hother
  obtain ⟨tee, htee, rfl⟩ := map_eq_ok_iff.mp hheader
  obtain ⟨tee', htee', rfl⟩ := map_eq_ok_iff.mp hother
  rw [htee] at htee'
  cases htee'
  rw [setBodyRoot_attest, CommitsToBody.setBodyRoot_ofHeader]
  rfl

end

/-! ## Parts of two states -/

theorem depositRoot_and_fork_of_genesisParts
    {fork : StateFork} {inputs : GenesisInputs} {parts : GenesisParts}
    (hparts : genesisParts fork inputs = .ok parts) :
    depositRoot inputs.spec = .ok parts.depositRoot ∧
      parts.fork = genesisFork inputs.spec fork.toForkName := by
  obtain ⟨time, -, hparts⟩ := bind_eq_ok_iff.mp hparts
  obtain ⟨payload, -, hparts⟩ := bind_eq_ok_iff.mp hparts
  obtain ⟨depositRoot, hdeposit, hparts⟩ := bind_eq_ok_iff.mp hparts
  obtain ⟨⟨entries, root⟩, -, hparts⟩ := bind_eq_ok_iff.mp hparts
  obtain ⟨balances, -, hparts⟩ := bind_eq_ok_iff.mp hparts
  obtain ⟨committee, -, hparts⟩ := bind_eq_ok_iff.mp hparts
  obtain ⟨participation, -, hparts⟩ := bind_eq_ok_iff.mp hparts
  obtain ⟨scores, -, hparts⟩ := bind_eq_ok_iff.mp hparts
  obtain ⟨bodyRoot, -, hparts⟩ := bind_eq_ok_iff.mp hparts
  cases hparts
  exact ⟨eq_ok_of_mapError_eq_ok hdeposit, rfl⟩

theorem zeros_eq_of_length_eq
    {α : Type} [OfNat α 0] {a b : Bounded Validator} (hlength : a.items.length = b.items.length)
    (hlimit : a.limit = b.limit) : zeros (α := α) a = zeros b := by
  rw [zeros, zeros, hlength, hlimit]

/-- The parts that no rule of a fork has a say in are those of the other fork, and the
registries have an entry for every validator under one limit. -/
theorem parts_agree
    {fork other : StateFork} {inputs : GenesisInputs} {parts others : GenesisParts}
    (hparts : genesisParts fork inputs = .ok parts)
    (hothers : genesisParts other inputs = .ok others) :
    others = { parts with
      fork := others.fork
      validators := others.validators
      validatorsRoot := others.validatorsRoot
      syncCommittee := others.syncCommittee
      bodyRoot := others.bodyRoot } ∧
    List.Forall₂ Validator.AgreesOutsideBalance parts.validators.items others.validators.items ∧
    others.validators.limit = parts.validators.limit := by
  have hhere := computedFrom_of_genesisParts hparts
  have hthere := computedFrom_of_genesisParts hothers
  obtain ⟨hitems, hlimit⟩ := items_of_registry hhere.registry
  obtain ⟨hitems', hlimit'⟩ := items_of_registry hthere.registry
  have htime := Except.ok.inj (hthere.time.symm.trans hhere.time)
  have hpayload := Except.ok.inj (hthere.payload.symm.trans hhere.payload)
  have hbalances := Except.ok.inj (hthere.balances.symm.trans hhere.balances)
  have hdeposit := Except.ok.inj ((depositRoot_and_fork_of_genesisParts hothers).1.symm.trans
    (depositRoot_and_fork_of_genesisParts hparts).1)
  -- The zeros depend on the length of the registry and on its limit only.
  have hlength : others.validators.items.length = parts.validators.items.length := by
    rw [hitems, hitems', registryEntries, registryEntries, List.length_map, List.length_map]
  have hsame : others.validators.limit = parts.validators.limit := hlimit'.trans hlimit.symm
  have hparticipation := hthere.participation
  rw [zeros_eq_of_length_eq hlength hsame, hhere.participation] at hparticipation
  have hscores := hthere.inactivity
  rw [zeros_eq_of_length_eq hlength hsame, hhere.inactivity] at hscores
  refine ⟨?_, ?_, hsame⟩
  · rw [← htime, ← hpayload, ← hbalances, ← hdeposit, Except.ok.inj hparticipation,
      Except.ok.inj hscores]
  · rw [hitems, hitems']
    exact registryEntries_agree _ _ _ _

/-! ## States of two forks -/

/-- Two states of one chain differ at most in what belongs to their forks: the versions,
the root of the body, the committees, and what becomes of the balances in the registry. -/
structure BeaconState.AgreesAcrossForks
    {H : Type} [CommitsToBody H] (s t : BeaconState H) : Prop where
  outside : t = { s with
    genesisValidatorsRoot := t.genesisValidatorsRoot
    fork := t.fork
    latestBlockHeader := t.latestBlockHeader
    validators := t.validators
    currentSyncCommittee := t.currentSyncCommittee
    nextSyncCommittee := t.nextSyncCommittee }
  header : ∃ bodyRoot, t.latestBlockHeader = setBodyRoot bodyRoot s.latestBlockHeader
  entries : List.Forall₂ Validator.AgreesOutsideBalance s.validators.items t.validators.items
  registryLimit : t.validators.limit = s.validators.limit

section

variable {H : Type} [CommitsToBody H]

theorem baseState_agrees
    {fork other : StateFork} {inputs : GenesisInputs} {parts others : GenesisParts}
    {header header' : H} (hparts : genesisParts fork inputs = .ok parts)
    (hothers : genesisParts other inputs = .ok others)
    (hheader : genesisHeader inputs.config parts = .ok header)
    (hheader' : genesisHeader inputs.config others = .ok header') :
    (baseState inputs.spec parts header).AgreesAcrossForks
      (baseState inputs.spec others header') := by
  obtain ⟨hagree, hentries, hlimit⟩ := parts_agree hparts hothers
  exact {
    outside := by rw [hagree]; rfl
    header := ⟨others.bodyRoot, eq_setBodyRoot_of_genesisHeader hheader hheader'⟩
    entries := hentries
    registryLimit := hlimit }

theorem registry_electra_eq
    {spec : ChainSpec} {validators : List GenesisValidator}
    (hcaps : spec.value .maxEffectiveBalance = spec.value .minActivationBalance)
    (hplain : ∀ v ∈ validators, v.isCompounding = false) :
    registry spec .electra validators = registry spec .deneb validators := by
  have hentries : registryEntries spec .electra validators =
      registryEntries spec .deneb validators :=
    List.map_congr_left fun v hv => v.toEntry_electra_eq hcaps (hplain v hv)
  rw [registry, registry, hentries]

/-- Where both forks build a state from the same inputs, the states agree in all that
the forks have in common but for the versions, the body root, the committees, the root of
the registry and what becomes of the balances in it.  The registries are the same where the
cap of the one fork is the least balance of the other and no credentials are compounding.
The versions of the Electra state follow those of the Deneb state. -/
theorem states_agree_across_forks
    {inputs : GenesisInputs} {deneb electra : VersionedState H}
    (hdeneb : buildState .deneb inputs = .ok deneb)
    (helectra : buildState .electra inputs = .ok electra) :
    deneb.base.AgreesAcrossForks electra.base ∧
    (inputs.spec.value .maxEffectiveBalance = inputs.spec.value .minActivationBalance →
      (∀ v ∈ inputs.validators, v.withdrawalCredentials.bytes.data[0]? ≠ some 0x02) →
        electra.base.validators = deneb.base.validators ∧
        electra.base.genesisValidatorsRoot = deneb.base.genesisValidatorsRoot) ∧
    electra.base.fork.previousVersion = deneb.base.fork.currentVersion := by
  obtain ⟨parts, header, hparts, hheader, rfl⟩ := buildState_eq_ok_iff.mp hdeneb
  obtain ⟨others, header', hothers, hheader', rfl⟩ := buildState_eq_ok_iff.mp helectra
  rw [base_assemble, base_assemble]
  refine ⟨baseState_agrees hparts hothers hheader hheader', fun hcaps hplain => ?_, ?_⟩
  · have hregistry : registry inputs.spec .deneb inputs.validators =
        .ok (parts.validators, parts.validatorsRoot) :=
      (computedFrom_of_genesisParts hparts).registry
    have hregistry' : registry inputs.spec .electra inputs.validators =
        .ok (others.validators, others.validatorsRoot) :=
      (computedFrom_of_genesisParts hothers).registry
    have hsame := registry_electra_eq hcaps fun v hv =>
      GenesisValidator.isCompounding_eq_false (hplain v hv)
    rw [hsame, hregistry, Except.ok.injEq, Prod.mk.injEq] at hregistry'
    exact ⟨hregistry'.1.symm, hregistry'.2.symm⟩
  · change others.fork.previousVersion = parts.fork.currentVersion
    rw [(depositRoot_and_fork_of_genesisParts hparts).2,
      (depositRoot_and_fork_of_genesisParts hothers).2]
    rfl

/-- The parameters of the main network but for one greatest balance for all validators. -/
def evenSpec : ChainSpec where
  value := fun p => if p = .maxEffectiveBalanceElectra then 32000000000 else p.default
  version := ForkName.defaultVersion
  votingSlots_lt := by decide
  roundCount_lt := by decide
  treeDepth_lt := by decide

def evenInputs : GenesisInputs :=
  (GenesisInputs.new .empty evenSpec quietBlock).addValidators [soloValidator]

theorem exists_buildState_even (fork : StateFork) :
    ∃ state, buildState (H := H) fork evenInputs = .ok state := by
  have hspec : evenInputs.spec.DefinesRoots fork :=
    { limits := by cases fork <;> decide
      transactionBytes := by decide
      depositDepth := by decide }
  have hends : evenInputs.selection fork ≠ .error .neverFull := by
    cases fork with
    | deneb => exact evenInputs.selection_deneb_ne_neverFull (by decide : evenSpec.CapsFit .deneb)
    | electra =>
      exact evenInputs.selection_electra_ne_neverFull (by decide : evenSpec.CapsFit .electra)
        (by decide)
  have hdelay : delayFailure evenSpec quietBlock = none := by decide
  have hpayload : ∀ failure ∈ payloadFailures evenSpec quietBlock, failure = none := by decide
  have hroom : [soloValidator].length ≤ evenSpec.size .validatorRegistryLimit := by decide
  have hactive : [soloValidator].any (·.isActive evenSpec fork.toForkName) = true := by
    cases fork <;> decide
  have hkeys : ∀ v ∈ [soloValidator], ∃ p, validPoint v.pubkey = .ok p :=
    exists_validPoint_of_generatorKey (by simp [soloValidator])
  exact exists_buildState hspec hends hdelay hpayload hroom hactive hkeys (by decide) (by decide)

theorem states_agree_across_forks_even :
    ∃ deneb electra : VersionedState TeeBlockHeader,
      buildState .deneb evenInputs = .ok deneb ∧ buildState .electra evenInputs = .ok electra ∧
      deneb.base.AgreesAcrossForks electra.base ∧
      electra.base.validators = deneb.base.validators ∧
      electra.base.fork.previousVersion = deneb.base.fork.currentVersion := by
  obtain ⟨deneb, hdeneb⟩ := exists_buildState_even (H := TeeBlockHeader) .deneb
  obtain ⟨electra, helectra⟩ := exists_buildState_even (H := TeeBlockHeader) .electra
  obtain ⟨hagree, hregistry, hversion⟩ := states_agree_across_forks hdeneb helectra
  have hplain : ∀ v ∈ evenInputs.validators,
      v.withdrawalCredentials.bytes.data[0]? ≠ some 0x02 := by
    decide
  exact ⟨deneb, electra, hdeneb, helectra, hagree, (hregistry rfl hplain).1, hversion⟩

end

end GenesisForge
