import GenesisForge.Proofs.BuildFailures

/-!
# Consistent genesis states

The calls that prepare a builder leave behind all of their validators and the last
of their blocks.  The state that is built then has lists of one length under one
limit, roots and keys that belong to its own registry, and one block that
everything is anchored to.
-/

namespace GenesisForge

open Ssz Bls

/-! ## Sequences of calls -/

namespace BuilderCall

def added : BuilderCall → List GenesisValidator
  | setShadowBlock _ => []
  | addValidators validators => validators

def shadowBlock? : BuilderCall → Option ExecutionBlock
  | setShadowBlock block => some block
  | addValidators _ => none

end BuilderCall

/-- The validators of all calls, those of the first call first. -/
def addedValidators (calls : List BuilderCall) : List GenesisValidator :=
  calls.flatMap (·.added)

def lastShadowBlock? (calls : List BuilderCall) : Option ExecutionBlock :=
  (calls.filterMap (·.shadowBlock?)).getLast?

/-- The block that a state is anchored to after some calls. -/
def anchorBlock (block : ExecutionBlock) (calls : List BuilderCall) : ExecutionBlock :=
  (lastShadowBlock? calls).getD block

theorem lastShadowBlock?_cons
    (call : BuilderCall) (calls : List BuilderCall) :
    lastShadowBlock? (call :: calls) = (lastShadowBlock? calls).or call.shadowBlock? := by
  unfold lastShadowBlock?
  cases call with
  | setShadowBlock block =>
      have hblock : (BuilderCall.setShadowBlock block).shadowBlock? = some block := rfl
      rw [List.filterMap_cons_some hblock, List.getLast?_cons, hblock]
      cases (calls.filterMap (·.shadowBlock?)).getLast? <;> rfl
  | addValidators validators =>
      have hnone : (BuilderCall.addValidators validators).shadowBlock? = none := rfl
      rw [List.filterMap_cons_none hnone, hnone, Option.or_none]

theorem addedValidators_cons
    (call : BuilderCall) (calls : List BuilderCall) :
    addedValidators (call :: calls) = call.added ++ addedValidators calls :=
  List.flatMap_cons

theorem exists_lastShadowBlock?
    {block : ExecutionBlock} {calls : List BuilderCall} (hmem : .setShadowBlock block ∈ calls) :
    ∃ last, lastShadowBlock? calls = some last := by
  have hfound : block ∈ calls.filterMap (·.shadowBlock?) :=
    List.mem_filterMap.mpr ⟨_, hmem, rfl⟩
  exact Option.isSome_iff_exists.mp (List.getLast?_isSome.mpr (List.ne_nil_of_mem hfound))

namespace GenesisInputs

theorem call_eq
    (inputs : GenesisInputs) (call : BuilderCall) :
    inputs.call call =
      { inputs with
        shadowBlock := call.shadowBlock?.or inputs.shadowBlock
        validators := inputs.validators ++ call.added } := by
  cases call with
  | setShadowBlock block =>
      rw [BuilderCall.added, List.append_nil]
      rfl
  | addValidators validators => rfl

theorem callAll_eq
    (inputs : GenesisInputs) (calls : List BuilderCall) :
    inputs.callAll calls =
      { inputs with
        shadowBlock := (lastShadowBlock? calls).or inputs.shadowBlock
        validators := inputs.validators ++ addedValidators calls } := by
  unfold callAll
  induction calls generalizing inputs with
  | nil =>
      rw [addedValidators, List.flatMap_nil, List.append_nil]
      rfl
  | cons call rest ih =>
      rw [List.foldl_cons, ih, call_eq, lastShadowBlock?_cons, addedValidators_cons,
        Option.or_assoc, ← List.append_assoc]

section

variable (config : Config) (spec : ChainSpec) (block : ExecutionBlock) (calls : List BuilderCall)

theorem validators_callAll_new :
    ((new config spec block).callAll calls).validators = addedValidators calls := by
  rw [callAll_eq]
  rfl

theorem sourceBlock_callAll_new :
    ((new config spec block).callAll calls).sourceBlock = anchorBlock block calls := by
  rw [callAll_eq, sourceBlock, new, Option.or_none]
  rfl

end

end GenesisInputs

/-! ## What the parts are -/

/-- Every part is what its own computation gives. -/
structure GenesisParts.ComputedFrom
    (parts : GenesisParts) (fork : StateFork) (inputs : GenesisInputs) : Prop where
  time : GenesisForge.genesisTime inputs.spec inputs.sourceBlock = .ok parts.genesisTime
  payload : GenesisForge.payloadHeader inputs.spec inputs.sourceBlock = .ok parts.payloadHeader
  registry : GenesisForge.registry inputs.spec fork.toForkName inputs.validators =
    .ok (parts.validators, parts.validatorsRoot)
  balances : genesisBalances inputs.spec inputs.validators = .ok parts.balances
  committee : genesisSyncCommittee inputs.spec fork.toForkName parts.validators.items
    parts.payloadHeader.blockHash = .ok parts.syncCommittee
  participation : zeros parts.validators = .ok parts.participation
  inactivity : zeros parts.validators = .ok parts.inactivityScores

theorem computedFrom_of_genesisParts
    {fork : StateFork} {inputs : GenesisInputs} {parts : GenesisParts}
    (hparts : genesisParts fork inputs = .ok parts) : parts.ComputedFrom fork inputs := by
  obtain ⟨time, htime, hparts⟩ := bind_eq_ok_iff.mp hparts
  obtain ⟨payload, hpayload, hparts⟩ := bind_eq_ok_iff.mp hparts
  obtain ⟨depositRoot, -, hparts⟩ := bind_eq_ok_iff.mp hparts
  obtain ⟨⟨entries, root⟩, hregistry, hparts⟩ := bind_eq_ok_iff.mp hparts
  obtain ⟨balances, hbalances, hparts⟩ := bind_eq_ok_iff.mp hparts
  obtain ⟨committee, hcommittee, hparts⟩ := bind_eq_ok_iff.mp hparts
  obtain ⟨participation, hparticipation, hparts⟩ := bind_eq_ok_iff.mp hparts
  obtain ⟨scores, hscores, hparts⟩ := bind_eq_ok_iff.mp hparts
  obtain ⟨bodyRoot, -, hparts⟩ := bind_eq_ok_iff.mp hparts
  cases hparts
  exact {
    time := htime
    payload := hpayload
    registry := eq_ok_of_mapError_eq_ok hregistry
    balances := eq_ok_of_mapError_eq_ok hbalances
    committee := eq_ok_of_mapError_eq_ok hcommittee
    participation := eq_ok_of_mapError_eq_ok hparticipation
    inactivity := eq_ok_of_mapError_eq_ok hscores }

theorem treeRoot?_of_rootOf
    {v : Value} {root : Root} (hroot : rootOf v = .ok root) : v.treeRoot? = some root := by
  unfold rootOf at hroot
  split at hroot
  · rename_i hsome
    cases hroot
    exact hsome
  · cases hroot

theorem treeRoot?_of_registry
    {spec : ChainSpec} {fork : ForkName} {validators : List GenesisValidator}
    {entries : Bounded Validator} {root : Root}
    (hregistry : registry spec fork validators = .ok (entries, root)) :
    (toValue entries).treeRoot? = some root := by
  obtain ⟨made, -, hroot⟩ := bind_eq_ok_iff.mp hregistry
  obtain ⟨found, hfound, hpair⟩ := bind_eq_ok_iff.mp hroot
  cases hpair
  exact treeRoot?_of_rootOf hfound

theorem items_of_genesisBalances
    {spec : ChainSpec} {validators : List GenesisValidator} {balances : Bounded UInt64}
    (hbalances : genesisBalances spec validators = .ok balances) :
    balances.items = validators.map (·.balanceIn spec) ∧
      balances.limit = spec.size .validatorRegistryLimit :=
  Bounded.ofList_eq_ok (eq_ok_of_mapError_eq_ok hbalances)

/-- A list has an element for every entry of the registry, under the same limit. -/
def Ssz.Bounded.GoesWith
    {α : Type} (list : Bounded α) (registry : Bounded Validator) : Prop :=
  list.items.length = registry.items.length ∧ list.limit = registry.limit

theorem goesWith_of_zeros
    {α : Type} [OfNat α 0] {registry : Bounded Validator} {list : Bounded α}
    (hzeros : zeros registry = .ok list) : list.GoesWith registry := by
  obtain ⟨hitems, hlimit⟩ := Bounded.ofList_eq_ok (eq_ok_of_mapError_eq_ok hzeros)
  constructor
  · rw [hitems, List.length_replicate]
  · exact hlimit

/-! ## Consistency -/

/-- The fields of a state at genesis belong together, and to the validators and the
block that the state was built from. -/
structure BeaconState.ConsistentAtGenesis
    {H : Type} (s : BeaconState H) (spec : ChainSpec) (fork : ForkName)
    (validators : List GenesisValidator) (block : ExecutionBlock) : Prop where
  registry : s.validators.items = registryEntries spec fork validators
  registryLimit : s.validators.limit = spec.size .validatorRegistryLimit
  balances : s.balances.GoesWith s.validators
  previousParticipation : s.previousEpochParticipation.GoesWith s.validators
  currentParticipation : s.currentEpochParticipation.GoesWith s.validators
  inactivityScores : s.inactivityScores.GoesWith s.validators
  blockRoots : s.blockRoots.length = spec.size .slotsPerHistoricalRoot
  stateRoots : s.stateRoots.length = spec.size .slotsPerHistoricalRoot
  randaoMixes : s.randaoMixes.length = spec.size .epochsPerHistoricalVector
  slashings : s.slashings.length = spec.size .epochsPerSlashingsVector
  effectiveBalance_le : ∀ (index : Nat) (v : Validator) (balance : UInt64),
    s.validators.items[index]? = some v → s.balances.items[index]? = some balance →
    v.effectiveBalance ≤ balance
  validatorsRoot : (toValue s.validators).treeRoot? = some s.genesisValidatorsRoot
  nextCommittee : s.nextSyncCommittee = s.currentSyncCommittee
  committeeSize : s.currentSyncCommittee.pubkeys.length = spec.size .syncCommitteeSize
  members : ∀ key ∈ s.currentSyncCommittee.pubkeys,
    ∃ v ∈ s.validators.items, v.isActiveAt 0 ∧ v.pubkey = key
  votedBlock : s.eth1Data.blockHash = block.hash
  payloadBlock : s.latestExecutionPayloadHeader.blockHash = block.hash
  mixedBlock : ∀ mix ∈ s.randaoMixes, mix = block.hash
  payload : payloadHeader spec block = .ok s.latestExecutionPayloadHeader
  time : GenesisForge.genesisTime spec block = .ok s.genesisTime

theorem GenesisParts.ComputedFrom.effectiveBalance_le
    {parts : GenesisParts} {fork : StateFork} {inputs : GenesisInputs}
    (hparts : parts.ComputedFrom fork inputs) {index : Nat} {v : Validator} {balance : UInt64}
    (hentry : parts.validators.items[index]? = some v)
    (hbalance : parts.balances.items[index]? = some balance) :
    v.effectiveBalance ≤ balance := by
  rw [(items_of_registry hparts.registry).1, registryEntries, List.getElem?_map] at hentry
  rw [(items_of_genesisBalances hparts.balances).1, List.getElem?_map] at hbalance
  -- Both come from the validator that was given at this place.
  cases hgiven : inputs.validators[index]? with
  | none => simp [hgiven] at hentry
  | some given =>
      rw [hgiven] at hentry hbalance
      cases hentry
      cases hbalance
      exact GenesisValidator.effectiveBalance_le_balanceIn inputs.spec fork.toForkName given

theorem GenesisParts.ComputedFrom.goesWith_balances
    {parts : GenesisParts} {fork : StateFork} {inputs : GenesisInputs}
    (hparts : parts.ComputedFrom fork inputs) : parts.balances.GoesWith parts.validators := by
  obtain ⟨hentries, hlimit⟩ := items_of_registry hparts.registry
  obtain ⟨hbalances, hbalancesLimit⟩ := items_of_genesisBalances hparts.balances
  constructor
  · rw [hentries, hbalances, registryEntries, List.length_map, List.length_map]
  · rw [hlimit, hbalancesLimit]

/-- A member of the committee is active from the start, and not only in the epoch
that the committee is drawn for. -/
theorem GenesisParts.ComputedFrom.exists_active_of_mem
    {parts : GenesisParts} {fork : StateFork} {inputs : GenesisInputs}
    (hparts : parts.ComputedFrom fork inputs) {key : PublicKey}
    (hkey : key ∈ parts.syncCommittee.pubkeys) :
    ∃ v ∈ parts.validators.items, v.isActiveAt 0 ∧ v.pubkey = key := by
  obtain ⟨-, hmembers⟩ := length_and_mem_of_genesisSyncCommittee hparts.committee
  obtain ⟨entry, hentry, hactive, hpubkey⟩ := hmembers key hkey
  refine ⟨entry, hentry, ?_, hpubkey⟩
  rw [(items_of_registry hparts.registry).1] at hentry
  obtain ⟨given, -, rfl⟩ := List.mem_map.mp hentry
  rw [isActiveAt_toEntry] at hactive
  rw [GenesisValidator.isActiveAt_toEntry_of_lt _ _ _ (by decide)]
  exact hactive

theorem GenesisParts.ComputedFrom.consistentAtGenesis
    {H : Type} {parts : GenesisParts} {fork : StateFork} {inputs : GenesisInputs}
    (hparts : parts.ComputedFrom fork inputs) (header : H) :
    (baseState inputs.spec parts header).ConsistentAtGenesis inputs.spec fork.toForkName
      inputs.validators inputs.sourceBlock := by
  obtain ⟨hentries, hlimit⟩ := items_of_registry hparts.registry
  obtain ⟨hhash, -⟩ := fields_of_payloadHeader hparts.payload
  have hparticipation := goesWith_of_zeros hparts.participation
  exact {
    registry := hentries
    registryLimit := hlimit
    balances := hparts.goesWith_balances
    previousParticipation := hparticipation
    currentParticipation := hparticipation
    inactivityScores := goesWith_of_zeros hparts.inactivity
    blockRoots := List.length_replicate
    stateRoots := List.length_replicate
    randaoMixes := List.length_replicate
    slashings := List.length_replicate
    effectiveBalance_le := fun _ _ _ hentry hbalance =>
      hparts.effectiveBalance_le hentry hbalance
    validatorsRoot := treeRoot?_of_registry hparts.registry
    nextCommittee := rfl
    committeeSize := (length_and_mem_of_genesisSyncCommittee hparts.committee).1
    members := fun _ hkey => hparts.exists_active_of_mem hkey
    votedBlock := hhash
    payloadBlock := hhash
    mixedBlock := fun _ hmix => (List.eq_of_mem_replicate hmix).trans hhash
    payload := hparts.payload
    time := hparts.time }

theorem fork_assemble
    {H : Type} (fork : StateFork) (spec : ChainSpec) (parts : GenesisParts) (header : H) :
    (assemble fork spec parts header).fork = fork.toForkName := by
  cases fork <;> rfl

/-- Once there is a block to anchor the state to, the first block is not looked at. -/
theorem buildState_callAll_eq_of_shadowBlock
    {H : Type} [HeaderBuild H] (fork : StateFork) (config : Config) (spec : ChainSpec)
    (block other : ExecutionBlock) {calls : List BuilderCall} {last : ExecutionBlock}
    (hlast : lastShadowBlock? calls = some last) :
    buildState (H := H) fork ((GenesisInputs.new config spec block).callAll calls) =
      buildState fork ((GenesisInputs.new config spec other).callAll calls) := by
  rw [GenesisInputs.callAll_eq, GenesisInputs.callAll_eq, hlast]
  rfl

/-- Every state that a builder returns is consistent, whatever calls prepared it. -/
theorem consistentAtGenesis_of_buildState
    {H : Type} [HeaderBuild H] {fork : StateFork} {config : Config} {spec : ChainSpec}
    {block : ExecutionBlock} {calls : List BuilderCall} {state : VersionedState H}
    (hbuild : buildState fork ((GenesisInputs.new config spec block).callAll calls) =
      .ok state) :
    state.fork = fork.toForkName ∧
    state.base.ConsistentAtGenesis spec fork.toForkName (addedValidators calls)
      (anchorBlock block calls) ∧
    ∀ shadow, .setShadowBlock shadow ∈ calls → ∀ other,
      buildState fork ((GenesisInputs.new config spec other).callAll calls) = .ok state := by
  refine ⟨?_, ?_, ?_⟩
  · obtain ⟨parts, header, -, -, rfl⟩ := buildState_eq_ok_iff.mp hbuild
    exact fork_assemble _ _ _ _
  · obtain ⟨parts, header, hparts, -, rfl⟩ := buildState_eq_ok_iff.mp hbuild
    have hconsistent := (computedFrom_of_genesisParts hparts).consistentAtGenesis header
    rw [GenesisInputs.validators_callAll_new, GenesisInputs.sourceBlock_callAll_new]
      at hconsistent
    rw [base_assemble]
    rw [GenesisInputs.callAll_eq] at hconsistent ⊢
    exact hconsistent
  · intro shadow hmem other
    obtain ⟨last, hlast⟩ := exists_lastShadowBlock? hmem
    rw [buildState_callAll_eq_of_shadowBlock fork config spec other block hlast]
    exact hbuild

def generatorKey : PublicKey :=
  .bigEndian _ <| 2 ^ 383 +
    0x17f1d3a73197d7942695638c4fa9ac0fc3688c4f9774b905a14e3a3f171bac586c55e83ff97a1aeffb3af00adb22c6bb

theorem exists_validPoint_generatorKey : ∃ p, validPoint generatorKey = .ok p := by
  have hvalid : (validPoint generatorKey).isOk = true := by decide +kernel
  cases hpoint : validPoint generatorKey with
  | ok p => exact ⟨p, rfl⟩
  | error fault =>
      rw [hpoint] at hvalid
      cases hvalid

theorem exists_validPoint_of_generatorKey
    {validators : List GenesisValidator} (hkeys : ∀ v ∈ validators, v.pubkey = generatorKey) :
    ∀ v ∈ validators, ∃ p, validPoint v.pubkey = .ok p := by
  intro v hv
  rw [hkeys v hv]
  exact exists_validPoint_generatorKey

/-- A validator that is given no balance, and so has the greatest one. -/
def soloValidator : GenesisValidator := ⟨generatorKey, .zero 32, none⟩

/-- A validator with too little balance to be active. -/
def idleValidator : GenesisValidator := ⟨generatorKey, .zero 32, some 1000000000⟩

def quietBlock : ExecutionBlock :=
  ⟨⟨.zero 32, .zero 32, .zero _, .zero 32, .zero 32, .zero 32, .zero _, word256OfWord 0, 0, 0,
    0, 0, ByteArray.empty, .zero 32, .zero 8, none, none, some 0, some 0, none, none⟩, [], none⟩

/-- The block that follows `quietBlock`. -/
def laterBlock : ExecutionBlock :=
  { quietBlock with header := { quietBlock.header with number := 1, timestamp := 12 } }

/-- Calls that add validators before and after the block is replaced. -/
def stagedCalls : List BuilderCall :=
  [.addValidators [soloValidator], .setShadowBlock laterBlock, .addValidators [idleValidator]]

theorem exists_buildState_staged
    {H : Type} [HeaderBuild H] (config : Config) (block : ExecutionBlock)
    (hattestation : attestationFailure config = none) :
    ∃ state, buildState (H := H) .deneb
      ((GenesisInputs.new config .mainnet block).callAll stagedCalls) = .ok state := by
  have hends := GenesisInputs.selection_deneb_ne_neverFull
    ((GenesisInputs.new config .mainnet block).callAll stagedCalls)
    (by decide : ChainSpec.mainnet.CapsFit .deneb)
  have hdelay : delayFailure .mainnet laterBlock = none := by decide
  have hpayload : ∀ failure ∈ payloadFailures .mainnet laterBlock, failure = none := by decide
  have hroom : [soloValidator, idleValidator].length ≤
      ChainSpec.mainnet.size .validatorRegistryLimit := by decide
  have hactive : [soloValidator, idleValidator].any (·.isActive .mainnet .deneb) = true := by
    decide
  have hkeys : ∀ v ∈ [soloValidator, idleValidator], ∃ p, validPoint v.pubkey = .ok p :=
    exists_validPoint_of_generatorKey (by simp [soloValidator, idleValidator])
  have hplaces : ChainSpec.mainnet.size .syncCommitteeSize ≠ 0 := by decide
  exact exists_buildState (ChainSpec.definesRoots_mainnet .deneb) hends hdelay hpayload hroom
    hactive hkeys hplaces hattestation

theorem consistentAtGenesis_stagedCalls :
    ∃ state, buildState (H := TeeBlockHeader) .deneb
        ((GenesisInputs.new .empty .mainnet quietBlock).callAll stagedCalls) = .ok state ∧
      state.base.ConsistentAtGenesis .mainnet .deneb [soloValidator, idleValidator]
        laterBlock ∧
      ∀ other, buildState .deneb
        ((GenesisInputs.new .empty .mainnet other).callAll stagedCalls) = .ok state := by
  obtain ⟨state, hbuild⟩ :=
    exists_buildState_staged (H := TeeBlockHeader) .empty quietBlock (by decide)
  obtain ⟨-, hconsistent, hother⟩ := consistentAtGenesis_of_buildState hbuild
  exact ⟨state, hbuild, hconsistent, hother laterBlock (by simp [stagedCalls])⟩

end GenesisForge
