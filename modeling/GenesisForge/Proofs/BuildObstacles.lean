import GenesisForge.Proofs.CommitteeKeys
import GenesisForge.Proofs.EffectiveBalances
import GenesisForge.Proofs.RootsDefined

/-!
# Obstacles to a build

A build checks its inputs and takes roots, and the first check that refuses and the
first tree that is too deep stop it.  How deep a tree is depends on the limits of
the configuration, which no check compares with the depth that roots are defined
for.

Whether the selection of a committee ends is a question of its own.  It does where everybody
who is active has the greatest balance, if the caps leave room for a random number.
-/

namespace GenesisForge

open Ssz Bls

/-! ## Single obstacles -/

/-- More elements than a limit allows. -/
def limitFailure (count limit : Nat) : Option PartError :=
  if limit < count then some (.limit (.aboveLimit count limit)) else none

/-- A tree among those with room for these numbers of leaves is too deep. -/
def depthFailure (leaves : List Nat) : Option PartError :=
  if ∃ n ∈ leaves, 2 ^ 49 < n then some .treeTooDeep else none

def delayFailure (spec : ChainSpec) (block : ExecutionBlock) : Option GenesisError :=
  let earliest := earliestTime spec block
  let delay := spec.value .genesisDelay
  if 2 ^ 64 ≤ earliest.toNat + delay.toNat then
    some (.outOfRange "GENESIS_DELAY" delay 0 (0xFFFFFFFFFFFFFFFF - earliest))
  else none

def missingFailure {α : Type} (name : String) (field : Option α) : Option GenesisError :=
  if field.isNone then some (.missingField name) else none

/-- The key of the validator at an index is refused. -/
def keyFailure (validators : List GenesisValidator) (index : Nat) : Option PartError :=
  (validators[index]?).bind fun v => refusal v.pubkey

/-- The members that are selected for the sync committee, by index. -/
def GenesisInputs.selection (inputs : GenesisInputs) (fork : StateFork) :
    Except PartError (List Nat) :=
  syncCommitteeIndices sha256 inputs.spec fork.toForkName
    (registryEntries inputs.spec fork.toForkName inputs.validators) inputs.sourceBlock.hash

/-- The conditions on the sync committee, in order. -/
def committeeFailures (fork : StateFork) (inputs : GenesisInputs) : List (Option PartError) := [
  if inputs.validators.any (·.isActive inputs.spec fork.toForkName) = false then
    some .noActiveValidators
  else none,
  ((inputs.selection fork).toOption.getD []).findSome? (keyFailure inputs.validators),
  if inputs.spec.size .syncCommitteeSize = 0 then
    some (.invalidPublicKey "aggregate" .nothingToAggregate)
  else none]

def attestationFailure (config : Config) : Option GenesisError :=
  match ProposerTee.resolve config with
  | .ok _ => none
  | .error e => some e

/-! ## Obstacles in order -/

/-- Obstacles to a part, told under its name. -/
def obstaclesIn (name : String) (obstacles : List (Option PartError)) :
    List (Option GenesisError) :=
  obstacles.map (Option.map (.ofPart name))

/-- Obstacles to the root of a list of containers. -/
def listObstacles (count limit : Nat) : List (Option PartError) :=
  [limitFailure count limit, depthFailure [limit]]

def transactionsObstacles (spec : ChainSpec) (transactions : List ByteArray) :
    List (Option PartError) := [
  transactions.findSome? fun data => limitFailure data.size (spec.size .maxBytesPerTransaction),
  limitFailure transactions.length (spec.size .maxTransactionsPerPayload),
  depthFailure (spec.size .maxTransactionsPerPayload ::
    transactions.map fun _ => (spec.size .maxBytesPerTransaction + 31) / 32)]

def payloadObstacles (spec : ChainSpec) (block : ExecutionBlock) : List (Option GenesisError) := [
  if 32 < block.header.extraData.size then some (.extraDataTooLong block.header.extraData.size 32)
  else none,
  missingFailure "blob-gas-used" block.header.blobGasUsed,
  missingFailure "excess-blob-gas" block.header.excessBlobGas] ++
  (obstaclesIn "withdrawals root" (block.withdrawals.elim [] fun withdrawals =>
    listObstacles withdrawals.length (spec.size .maxWithdrawalsPerPayload)) ++
  obstaclesIn "transactions root" (transactionsObstacles spec block.transactions))

def partObstacles (fork : StateFork) (inputs : GenesisInputs) : List (Option GenesisError) :=
  delayFailure inputs.spec inputs.sourceBlock ::
  (payloadObstacles inputs.spec inputs.sourceBlock ++
  (obstaclesIn "deposit root" [depthFailure [inputs.spec.depositListLimit]] ++
  (obstaclesIn "validators root"
    (listObstacles inputs.validators.length (inputs.spec.size .validatorRegistryLimit)) ++
  (obstaclesIn "sync committee" (committeeFailures fork inputs) ++
  obstaclesIn "body root" [depthFailure (fork.bodyLimits.map inputs.spec.size)]))))

/-- Everything that may stop a build, in the order in which it is met. -/
def buildObstacles (fork : StateFork) (inputs : GenesisInputs) : List (Option GenesisError) :=
  partObstacles fork inputs ++ [attestationFailure inputs.config]

/-! ## Single steps -/

theorem failsWith_genesisTime
    (spec : ChainSpec) (block : ExecutionBlock) :
    FailsWith (genesisTime spec block) [delayFailure spec block] :=
  FailsWith.check (fun hlate => if_neg (Nat.not_lt.mpr hlate))
    (fun hearly => ⟨_, if_pos (Nat.not_le.mp hearly)⟩)

theorem failsWith_checkExtraData
    (data : ByteArray) :
    FailsWith (checkExtraData data)
      [if 32 < data.size then some (.extraDataTooLong data.size 32) else none] :=
  FailsWith.check (fun hlong => if_neg (Nat.not_le.mpr hlong))
    (fun hshort => ⟨_, if_pos (Nat.not_lt.mp hshort)⟩)

theorem failsWith_requireField
    {α : Type} (name : String) (field : Option α) :
    FailsWith (requireField name field) [missingFailure name field] := by
  cases field with
  | none => exact FailsWith.check (fun _ => rfl) (fun hsome => absurd rfl hsome)
  | some a => exact FailsWith.check (fun hnone => by cases hnone) (fun _ => ⟨a, rfl⟩)

theorem failsWith_limited
    {α : Type} {made : Except SizeError α} {count limit : Nat}
    (hmany : limit < count → made = .error (.aboveLimit count limit))
    (hfew : count ≤ limit → ∃ a, made = .ok a) :
    FailsWith (limited made) [limitFailure count limit] := by
  refine FailsWith.check (fun habove => ?_) (fun hwithin => ?_)
  · rw [hmany habove]
    rfl
  · obtain ⟨a, ha⟩ := hfew (Nat.not_lt.mp hwithin)
    rw [ha]
    exact ⟨a, rfl⟩

theorem failsWith_limited_ofList
    {α : Type} (limit : Nat) (items : List α) :
    FailsWith (limited (Bounded.ofList limit items)) [limitFailure items.length limit] :=
  failsWith_limited (fun hmany => dif_neg (Nat.not_le.mpr hmany)) (fun hfew => ⟨_, dif_pos hfew⟩)

theorem failsWith_limited_ofBytes
    (limit : Nat) (data : ByteArray) :
    FailsWith (limited (ByteList.ofBytes limit data)) [limitFailure data.size limit] :=
  failsWith_limited (fun hmany => dif_neg (Nat.not_le.mpr hmany)) (fun hfew => ⟨_, dif_pos hfew⟩)

theorem limited_ofList_eq_ok
    {α : Type} {limit : Nat} {items : List α} (hfit : items.length ≤ limit) :
    limited (Bounded.ofList limit items) = .ok ⟨items, limit, hfit⟩ := by
  rw [Bounded.ofList, dif_pos hfit]
  rfl

theorem FailsWith.inPart
    {α : Type} {computed : Except PartError α} {obstacles : List (Option PartError)}
    (hfails : FailsWith computed obstacles) (name : String) :
    FailsWith (inPart name computed) (obstaclesIn name obstacles) :=
  hfails.mapError _

/-! ## Roots -/

theorem depthFailure_eq_none_iff
    {leaves : List Nat} : depthFailure leaves = none ↔ ∀ n ∈ leaves, n ≤ 2 ^ 49 := by
  simp [depthFailure]

theorem failsWith_rootOf
    {v : Value} {leaves : List Nat} (hroot : v.hasRoot ↔ ∀ n ∈ leaves, n ≤ 2 ^ 49) :
    FailsWith (rootOf v) [depthFailure leaves] := by
  have hnone : (∃ n ∈ leaves, 2 ^ 49 < n) ↔ ¬ v.hasRoot := by
    rw [hroot]
    simp
  refine FailsWith.check (fun hdeep => ?_) (fun hshallow => ?_)
  · rw [rootOf, Value.treeRoot?, if_neg (hnone.mp hdeep)]
  · rw [hnone, not_not] at hshallow
    rw [rootOf, Value.treeRoot?, if_pos hshallow]
    exact ⟨_, rfl⟩

theorem failsWith_rootOf_bounded
    {α : Type} [Serializable α] {limit : Nat} {items : List α} {list : Bounded α}
    (hunpacked : (Serializable.shape α).perChunk? = none)
    (hstatic : (Serializable.shape α).isStatic)
    (hlist : limited (Bounded.ofList limit items) = .ok list) :
    FailsWith (rootOf (toValue list)) [depthFailure [limit]] := by
  obtain ⟨-, hlimit⟩ := Bounded.ofList_eq_ok (eq_ok_of_mapError_eq_ok hlist)
  apply failsWith_rootOf
  rw [hasRoot_bounded_iff hunpacked hstatic, hlimit, List.forall_mem_singleton]

section

variable {spec : ChainSpec}

theorem failsWith_withdrawalsRoot
    (withdrawals : List Withdrawal) :
    FailsWith (withdrawalsRoot spec withdrawals)
      (listObstacles withdrawals.length (spec.size .maxWithdrawalsPerPayload)) := by
  refine (failsWith_limited_ofList _ _).bind fun list hlist => ?_
  exact failsWith_rootOf_bounded rfl rfl hlist

theorem failsWith_transactionsRoot
    (transactions : List ByteArray) :
    FailsWith (transactionsRoot spec transactions) (transactionsObstacles spec transactions) := by
  have hbound := FailsWith.mapM fun data (_ : data ∈ transactions) =>
    failsWith_limited_ofBytes (spec.size .maxBytesPerTransaction) data
  refine hbound.bind fun bound hbound => ?_
  have hlength := (forall₂_of_mapM_eq_ok hbound).length_eq
  rw [hlength]
  refine (failsWith_limited_ofList _ _).bind fun list hlist => failsWith_rootOf ?_
  rw [toValue_eq_transactionsValue hbound hlist, hasRoot_transactionsValue_iff,
    List.forall_mem_cons, List.forall_mem_map]

theorem failsWith_blockWithdrawalsRoot
    (block : ExecutionBlock) :
    FailsWith (blockWithdrawalsRoot spec block)
      (obstaclesIn "withdrawals root" (block.withdrawals.elim [] fun withdrawals =>
        listObstacles withdrawals.length (spec.size .maxWithdrawalsPerPayload))) := by
  rw [blockWithdrawalsRoot]
  cases block.withdrawals with
  | none => exact FailsWith.ok _
  | some withdrawals => exact (failsWith_withdrawalsRoot withdrawals).inPart _

/-- The extra data is found to fit before anything else is looked at, so that its
own limit is never met. -/
theorem failsWith_payloadHeader
    (block : ExecutionBlock) :
    FailsWith (payloadHeader spec block) (payloadObstacles spec block) := by
  refine (failsWith_checkExtraData block.header.extraData).bind fun _ hextra => ?_
  refine (failsWith_requireField _ block.header.blobGasUsed).bind fun _ _ => ?_
  refine (failsWith_requireField _ block.header.excessBlobGas).bind fun _ _ => ?_
  refine (failsWith_blockWithdrawalsRoot block).bind fun _ _ => ?_
  refine ((failsWith_transactionsRoot block.transactions).inPart _).bind_nil fun _ _ => ?_
  -- The length was checked above, before the first root.
  have hfit : block.header.extraData.size ≤ maxExtraDataLength := by
    by_contra hlong
    rw [checkExtraData, if_neg hlong] at hextra
    cases hextra
  rw [ByteList.ofBytes, dif_pos hfit]
  exact FailsWith.ok _

theorem failsWith_depositRoot
    (spec : ChainSpec) : FailsWith (depositRoot spec) [depthFailure [spec.depositListLimit]] := by
  apply failsWith_rootOf
  rw [hasRoot_noDeposits_iff, List.forall_mem_singleton]

theorem failsWith_registry
    (fork : ForkName) (validators : List GenesisValidator) :
    FailsWith (registry spec fork validators)
      (listObstacles validators.length (spec.size .validatorRegistryLimit)) := by
  have hcount : (registryEntries spec fork validators).length = validators.length :=
    List.length_map _
  rw [← hcount]
  refine (failsWith_limited_ofList _ _).bind fun entries hentries => ?_
  exact (failsWith_rootOf_bounded rfl rfl hentries).map (entries, ·)

theorem failsWith_bodyRoot
    (fork : StateFork) :
    FailsWith (rootOf (genesisBody spec fork)) [depthFailure (fork.bodyLimits.map spec.size)] := by
  apply failsWith_rootOf
  rw [hasRoot_genesisBody_iff, List.forall_mem_map]

/-! ## Registry and committee -/

/-- Who is active at all is so from the start and for good. -/
theorem isActiveAt_toEntry
    (spec : ChainSpec) (fork : ForkName) (v : GenesisValidator) :
    (v.toEntry spec fork).isActiveAt committeeEpoch = v.isActive spec fork :=
  GenesisValidator.isActiveAt_toEntry_of_lt spec fork v (by decide)

theorem activeIndices_registryEntries_eq_nil_iff
    {fork : ForkName} {validators : List GenesisValidator} :
    activeIndices (registryEntries spec fork validators) committeeEpoch = [] ↔
      validators.any (·.isActive spec fork) = false := by
  rw [activeIndices_eq_nil_iff, List.any_eq_false]
  simp only [registryEntries, List.forall_mem_map, isActiveAt_toEntry]

/-- Entries keep the keys of the validators that they are made for. -/
theorem keyFailure_eq_refusal
    {spec : ChainSpec} {fork : ForkName} {validators : List GenesisValidator} {index : Nat}
    {key : PublicKey}
    (hkey : ((registryEntries spec fork validators)[index]?).map (·.pubkey) = some key) :
    keyFailure validators index = refusal key := by
  rw [registryEntries, List.getElem?_map, Option.map_map] at hkey
  obtain ⟨v, hv, rfl⟩ := Option.map_eq_some_iff.mp hkey
  rw [keyFailure, hv]
  rfl

theorem failsWith_genesisSyncCommittee
    {fork : StateFork} {inputs : GenesisInputs}
    (hends : inputs.selection fork ≠ .error .neverFull) :
    FailsWith
      (genesisSyncCommittee inputs.spec fork.toForkName
        (registryEntries inputs.spec fork.toForkName inputs.validators)
        inputs.sourceBlock.hash)
      (committeeFailures fork inputs) := by
  have hselection := failsWith_syncCommitteeIndices hends
  simp only [activeIndices_registryEntries_eq_nil_iff] at hselection
  refine hselection.bind fun indices hindices => ?_
  have hselected : inputs.selection fork = .ok indices := hindices
  obtain ⟨hlength, hmem⟩ := length_and_mem_of_syncCommitteeIndices hindices
  obtain ⟨keys, hkeys⟩ := exists_areKeysOf hmem
  have hrefusals : indices.findSome? (keyFailure inputs.validators) = keys.findSome? refusal :=
    findSome?_eq_of_forall₂ (hkeys.imp fun _ _ hkey => keyFailure_eq_refusal hkey)
  have hempty : keys = [] ↔ inputs.spec.size .syncCommitteeSize = 0 := by
    rw [← hlength, hkeys.length_eq, List.length_eq_zero_iff]
  have hcommittee := failsWith_committeeOfKeys keys
  simp only [hempty, ← hrefusals] at hcommittee
  rw [hselected, committeeOf_eq_committeeOfKeys hkeys]
  exact hcommittee

/-! ## The whole build -/

theorem failsWith_zeros
    {α : Type} [OfNat α 0] (registry : Bounded Validator) :
    FailsWith (zeros (α := α) registry) [] := by
  have hfit : (List.replicate registry.items.length (0 : α)).length ≤ registry.limit := by
    rw [List.length_replicate]
    exact registry.length_le
  rw [zeros, limited_ofList_eq_ok hfit]
  exact FailsWith.ok _

end

/-- The lists that go with the registry have its length and its limit, so that
none of them is refused. -/
theorem failsWith_genesisParts
    {fork : StateFork} {inputs : GenesisInputs}
    (hends : inputs.selection fork ≠ .error .neverFull) :
    FailsWith (genesisParts fork inputs) (partObstacles fork inputs) := by
  refine (failsWith_genesisTime inputs.spec inputs.sourceBlock).bind fun _ _ => ?_
  refine (failsWith_payloadHeader inputs.sourceBlock).bind fun header hheader => ?_
  refine ((failsWith_depositRoot inputs.spec).mapError _).bind fun _ _ => ?_
  refine ((failsWith_registry _ inputs.validators).inPart _).bind fun pair hpair => ?_
  obtain ⟨entries, root⟩ := pair
  obtain ⟨hitems, hlimit⟩ := items_of_registry (eq_ok_of_mapError_eq_ok hpair)
  -- There are as many balances as entries, and those fit under the same limit.
  have hbalances : FailsWith (genesisBalances inputs.spec inputs.validators) [] := by
    have hfit : (inputs.validators.map (·.balanceIn inputs.spec)).length ≤
        inputs.spec.size .validatorRegistryLimit := by
      have hentries := entries.length_le
      rw [hitems, hlimit, registryEntries, List.length_map] at hentries
      rw [List.length_map]
      exact hentries
    rw [genesisBalances, limited_ofList_eq_ok hfit]
    exact FailsWith.ok _
  refine FailsWith.bind_of_nil (hbalances.mapError _) fun _ _ => ?_
  have hcommittee : FailsWith
      (inPart "sync committee" (genesisSyncCommittee inputs.spec fork.toForkName entries.items
        header.blockHash))
      (obstaclesIn "sync committee" (committeeFailures fork inputs)) := by
    rw [hitems, (fields_of_payloadHeader hheader).1]
    exact (failsWith_genesisSyncCommittee hends).inPart _
  refine hcommittee.bind fun _ _ => ?_
  refine FailsWith.bind_of_nil ((failsWith_zeros entries).mapError _) fun _ _ => ?_
  refine FailsWith.bind_of_nil ((failsWith_zeros entries).mapError _) fun _ _ => ?_
  exact ((failsWith_bodyRoot fork).inPart _).bind_nil fun _ _ => FailsWith.ok _

theorem failsWith_genesisHeader
    {H : Type} [HeaderBuild H] (config : Config) (parts : GenesisParts) :
    FailsWith (genesisHeader (H := H) config parts) [attestationFailure config] := by
  rw [FailsWith.single_iff]
  intro e
  rw [genesisHeader_eq_map, map_eq_error_iff, attestationFailure]
  cases ProposerTee.resolve config <;> simp

theorem failsWith_buildObstacles
    {H : Type} [HeaderBuild H] {fork : StateFork} {inputs : GenesisInputs}
    (hends : inputs.selection fork ≠ .error .neverFull) :
    FailsWith (buildState (H := H) fork inputs) (buildObstacles fork inputs) :=
  (failsWith_genesisParts hends).bind fun parts _ =>
    (failsWith_genesisHeader inputs.config parts).map _

/-! ## Selections that end -/

/-- The caps of a fork leave room for a random number. -/
def ChainSpec.CapsFit (spec : ChainSpec) : ForkName → Prop
  | .electra =>
    spec.size .maxEffectiveBalanceElectra ≤ (2 ^ 64 - 1) / 65535 ∧
      spec.size .minActivationBalance ≤ (2 ^ 64 - 1) / 65535
  | _ => spec.size .maxEffectiveBalance ≤ (2 ^ 64 - 1) / 255

instance (spec : ChainSpec) (fork : ForkName) : Decidable (spec.CapsFit fork) :=
  match fork with
  | .electra => inferInstanceAs (Decidable (_ ∧ _))
  | .phase0 | .altair | .bellatrix | .capella | .deneb => inferInstanceAs (Decidable (_ ≤ _))

section

variable {spec : ChainSpec} {fork : ForkName}

theorem mul_lt_of_le_div {n d : Nat} (hle : n ≤ (2 ^ 64 - 1) / d) : n * d < 2 ^ 64 :=
  Nat.lt_of_le_of_lt (Nat.mul_le_of_le_div d n (2 ^ 64 - 1) hle) (by decide)

theorem ceiling_mul_lt (hcaps : spec.CapsFit fork) :
    (Lottery.ofFork spec fork).ceiling.toNat * (Lottery.ofFork spec fork).greatestDraw.toNat <
      2 ^ 64 := by
  cases fork with
  | electra => exact mul_lt_of_le_div (d := 65535) hcaps.1
  | _ => exact mul_lt_of_le_div (d := 255) hcaps

theorem cap_mul_lt (hcaps : spec.CapsFit fork) (v : GenesisValidator) :
    (v.cap spec fork).toNat * (Lottery.ofFork spec fork).greatestDraw.toNat < 2 ^ 64 := by
  cases fork with
  | electra =>
      rw [GenesisValidator.cap]
      by_cases hcompounding : v.isCompounding
      · rw [if_pos hcompounding]
        exact mul_lt_of_le_div (d := 65535) hcaps.1
      · rw [if_neg hcompounding]
        exact mul_lt_of_le_div (d := 65535) hcaps.2
  | _ => exact mul_lt_of_le_div (d := 255) hcaps

/-- Every effective balance can be multiplied by what is drawn, as its cap can. -/
theorem effectiveBalance_mul_lt (hcaps : spec.CapsFit fork) (v : GenesisValidator) :
    (v.effectiveBalance spec fork).toNat * (Lottery.ofFork spec fork).greatestDraw.toNat <
      2 ^ 64 := by
  have hcap := UInt64.le_iff_toNat_le.mp (GenesisValidator.effectiveBalance_le_cap spec fork v)
  exact Nat.lt_of_le_of_lt (Nat.mul_le_mul_right _ hcap) (cap_mul_lt hcaps v)

end

namespace GenesisInputs

/-- A selection ends where nobody who is active has less than the balance that others are
compared with. -/
theorem selection_ne_neverFull
    {inputs : GenesisInputs} {fork : StateFork} (hcaps : inputs.spec.CapsFit fork.toForkName)
    (hceiling : ∀ v ∈ inputs.validators, v.isActive inputs.spec fork.toForkName →
      (Lottery.ofFork inputs.spec fork.toForkName).ceiling ≤
        v.effectiveBalance inputs.spec fork.toForkName) :
    inputs.selection fork ≠ .error .neverFull := by
  refine syncCommitteeIndices_ne_neverFull fun entry hentry hactive => ?_
  obtain ⟨v, hv, rfl⟩ := List.mem_map.mp hentry
  rw [isActiveAt_toEntry] at hactive
  exact ⟨hceiling v hv hactive, effectiveBalance_mul_lt hcaps v⟩

/-- On Deneb who is active has the greatest effective balance, so that no candidate
is ever turned down. -/
theorem selection_deneb_ne_neverFull
    (inputs : GenesisInputs) (hcaps : inputs.spec.CapsFit .deneb) :
    inputs.selection .deneb ≠ .error .neverFull := by
  refine selection_ne_neverFull hcaps fun v _ hactive => ?_
  have hgreatest : v.effectiveBalance inputs.spec .deneb =
      inputs.spec.value .maxEffectiveBalance :=
    GenesisValidator.effectiveBalance_of_isActive nofun hactive
  exact UInt64.le_of_eq hgreatest.symm

/-- On Electra nobody is turned down where the least balance for activation is already
the greatest one. -/
theorem selection_electra_ne_neverFull
    (inputs : GenesisInputs) (hcaps : inputs.spec.CapsFit .electra)
    (hlevel : inputs.spec.value .maxEffectiveBalanceElectra ≤
      inputs.spec.value .minActivationBalance) :
    inputs.selection .electra ≠ .error .neverFull := by
  refine selection_ne_neverFull hcaps fun v _ hactive => ?_
  have hleast : inputs.spec.value .minActivationBalance ≤
      v.effectiveBalance inputs.spec .electra := of_decide_eq_true hactive
  exact UInt64.le_trans hlevel hleast

end GenesisInputs

end GenesisForge
