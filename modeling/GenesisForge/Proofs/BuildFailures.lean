import GenesisForge.Proofs.BuildObstacles

/-!
# Failures of a build

Where every tree that a build takes the root of has a root, a build fails on
conditions that the inputs show, checked in a fixed order, and reports the first
one that applies.
-/

namespace GenesisForge

open Ssz Bls

/-! ## The conditions -/

/-- The conditions on the execution block, in order. -/
def payloadFailures (spec : ChainSpec) (block : ExecutionBlock) : List (Option GenesisError) := [
  if 32 < block.header.extraData.size then some (.extraDataTooLong block.header.extraData.size 32)
  else none,
  missingFailure "blob-gas-used" block.header.blobGasUsed,
  missingFailure "excess-blob-gas" block.header.excessBlobGas,
  (block.withdrawals.bind fun withdrawals =>
    limitFailure withdrawals.length (spec.size .maxWithdrawalsPerPayload)).map
      (.part "withdrawals root"),
  (block.transactions.findSome? fun data =>
    limitFailure data.size (spec.size .maxBytesPerTransaction)).map (.part "transactions root"),
  (limitFailure block.transactions.length (spec.size .maxTransactionsPerPayload)).map
    (.part "transactions root")]

/-- The conditions on the parts of a state, in order. -/
def partFailures (fork : StateFork) (inputs : GenesisInputs) : List (Option GenesisError) :=
  delayFailure inputs.spec inputs.sourceBlock ::
  (payloadFailures inputs.spec inputs.sourceBlock ++
  ((limitFailure inputs.validators.length (inputs.spec.size .validatorRegistryLimit)).map
    (.part "validators root") ::
  (committeeFailures fork inputs).map (Option.map (.part "sync committee"))))

/-- The conditions on which a build fails, in order. -/
def buildFailures (fork : StateFork) (inputs : GenesisInputs) : List (Option GenesisError) :=
  partFailures fork inputs ++ [attestationFailure inputs.config]

/-! ## Obstacles that remain -/

theorem findSome?_ne_some
    {ε α : Type} {failure : α → Option ε} {e : ε} (hnone : ∀ a, failure a ≠ some e) (l : List α) :
    l.findSome? failure ≠ some e := by
  intro hfirst
  obtain ⟨a, _, ha⟩ := List.exists_of_findSome?_eq_some hfirst
  exact hnone a ha

theorem limitFailure_ne_treeTooDeep
    (count limit : Nat) : limitFailure count limit ≠ some .treeTooDeep := by
  simp [limitFailure]

/-- What is told under the name of a part is not a tree that is too deep. -/
theorem obstaclesIn_eq_map
    {obstacles : List (Option PartError)} (hdefined : some .treeTooDeep ∉ obstacles)
    (name : String) : obstaclesIn name obstacles = obstacles.map (Option.map (.part name)) := by
  refine List.map_congr_left fun obstacle hmem => ?_
  cases obstacle with
  | none => rfl
  | some e =>
      cases e with
      | treeTooDeep => exact absurd hmem hdefined
      | limit | invalidPublicKey | noActiveValidators | neverFull => rfl

theorem obstaclesIn_listObstacles
    {count limit : Nat} (hlimit : limit ≤ 2 ^ 49) (name : String) :
    obstaclesIn name (listObstacles count limit) =
      [(limitFailure count limit).map (.part name), none] := by
  have hdepth : depthFailure [limit] = none := by
    rw [depthFailure_eq_none_iff, List.forall_mem_singleton]
    exact hlimit
  have hdefined : some .treeTooDeep ∉ [limitFailure count limit, none] := by
    simp [(limitFailure_ne_treeTooDeep count limit).symm]
  rw [listObstacles, hdepth, obstaclesIn_eq_map hdefined]
  rfl

theorem treeTooDeep_notMem_transactionFailures
    (spec : ChainSpec) (transactions : List ByteArray) :
    some .treeTooDeep ∉ [
      transactions.findSome? fun data =>
        limitFailure data.size (spec.size .maxBytesPerTransaction),
      limitFailure transactions.length (spec.size .maxTransactionsPerPayload), none] := by
  have hlong := findSome?_ne_some (fun data : ByteArray =>
    limitFailure_ne_treeTooDeep data.size (spec.size .maxBytesPerTransaction)) transactions
  simp [hlong.symm, (limitFailure_ne_treeTooDeep _ _).symm]

theorem treeTooDeep_notMem_committeeFailures
    (fork : StateFork) (inputs : GenesisInputs) :
    some .treeTooDeep ∉ committeeFailures fork inputs := by
  have hkey (index : Nat) : keyFailure inputs.validators index ≠ some .treeTooDeep := by
    intro hdeep
    obtain ⟨v, _, hv⟩ := Option.bind_eq_some_iff.mp hdeep
    cases hpoint : validPoint v.pubkey <;> simp [refusal, hpoint] at hv
  simp [committeeFailures, (findSome?_ne_some hkey _).symm]

namespace ChainSpec.DefinesRoots

variable {spec : ChainSpec} {fork : StateFork} (hspec : spec.DefinesRoots fork)

include hspec

theorem shared_le
    {limit : Parameter} (hlimit : limit ∈ sharedLimits) : spec.size limit ≤ 2 ^ 49 :=
  hspec.limits limit (List.mem_append_left _ hlimit)

theorem transactionsObstacles_eq
    (transactions : List ByteArray) :
    transactionsObstacles spec transactions = [
      transactions.findSome? fun data =>
        limitFailure data.size (spec.size .maxBytesPerTransaction),
      limitFailure transactions.length (spec.size .maxTransactionsPerPayload), none] := by
  have hdepth : depthFailure (spec.size .maxTransactionsPerPayload ::
      transactions.map fun _ => (spec.size .maxBytesPerTransaction + 31) / 32) = none := by
    rw [depthFailure_eq_none_iff, List.forall_mem_cons, List.forall_mem_map]
    constructor
    · exact hspec.shared_le (by decide)
    · intro _ _
      have hbytes := hspec.transactionBytes
      omega
  rw [transactionsObstacles, hdepth]

theorem depthFailure_deposits : depthFailure [spec.depositListLimit] = none := by
  rw [depthFailure_eq_none_iff, List.forall_mem_singleton]
  exact Nat.pow_le_pow_right (by decide) hspec.depositDepth

theorem depthFailure_body : depthFailure (fork.bodyLimits.map spec.size) = none := by
  rw [depthFailure_eq_none_iff, List.forall_mem_map]
  intro limit hlimit
  apply hspec.limits
  rw [StateFork.bodyLimits, List.mem_append] at hlimit
  rw [List.mem_append]
  exact hlimit.imp_left List.mem_of_mem_tail

theorem findSome?_payloadObstacles
    (block : ExecutionBlock) :
    (payloadObstacles spec block).findSome? id = (payloadFailures spec block).findSome? id := by
  have htransactions := obstaclesIn_eq_map
    (treeTooDeep_notMem_transactionFailures spec block.transactions) "transactions root"
  rw [payloadObstacles, hspec.transactionsObstacles_eq, htransactions, payloadFailures]
  cases block.withdrawals with
  | none => simp [obstaclesIn, findSome?_id_cons]
  | some withdrawals =>
      rw [Option.elim_some, obstaclesIn_listObstacles (hspec.shared_le (by decide))]
      simp [findSome?_id_cons]

end ChainSpec.DefinesRoots

/-- Without trees that are too deep, the obstacles are the conditions. -/
theorem findSome?_buildObstacles
    {fork : StateFork} {inputs : GenesisInputs} (hspec : inputs.spec.DefinesRoots fork) :
    (buildObstacles fork inputs).findSome? id = (buildFailures fork inputs).findSome? id := by
  have hcommittee := obstaclesIn_eq_map (treeTooDeep_notMem_committeeFailures fork inputs)
    "sync committee"
  rw [buildObstacles, partObstacles, hspec.depthFailure_deposits,
    obstaclesIn_listObstacles (hspec.shared_le (by decide)), hcommittee,
    hspec.depthFailure_body, buildFailures, partFailures]
  simp only [obstaclesIn, List.map_cons, List.map_nil, Option.map_none, findSome?_id_cons,
    List.findSome?_append, List.findSome?_nil, hspec.findSome?_payloadObstacles, Option.none_or,
    Option.or_assoc]

theorem failsWith_buildState
    {H : Type} [HeaderBuild H] {fork : StateFork} {inputs : GenesisInputs}
    (hspec : inputs.spec.DefinesRoots fork)
    (hends : inputs.selection fork ≠ .error .neverFull) :
    FailsWith (buildState (H := H) fork inputs) (buildFailures fork inputs) :=
  (failsWith_buildObstacles hends).congr (findSome?_buildObstacles hspec)

/-- Where every key is valid, a committee fails only without active validators or
without places. -/
theorem committeeFailures_eq_none
    {fork : StateFork} {inputs : GenesisInputs}
    (hactive : inputs.validators.any (·.isActive inputs.spec fork.toForkName) = true)
    (hkeys : ∀ v ∈ inputs.validators, ∃ p, validPoint v.pubkey = .ok p)
    (hplaces : inputs.spec.size .syncCommitteeSize ≠ 0) :
    ∀ failure ∈ committeeFailures fork inputs, failure = none := by
  have hkey (index : Nat) : keyFailure inputs.validators index = none := by
    rw [keyFailure, Option.bind_eq_none_iff]
    intro v hv
    obtain ⟨p, hp⟩ := hkeys v (List.mem_of_getElem? hv)
    rw [refusal, hp]
  simp [committeeFailures, hactive, hkey, hplaces]

/-- A build succeeds where the selection of its committee ends and none of its
conditions applies. -/
theorem exists_buildState
    {H : Type} [HeaderBuild H] {fork : StateFork} {inputs : GenesisInputs}
    (hspec : inputs.spec.DefinesRoots fork)
    (hends : inputs.selection fork ≠ .error .neverFull)
    (hdelay : delayFailure inputs.spec inputs.sourceBlock = none)
    (hpayload : ∀ failure ∈ payloadFailures inputs.spec inputs.sourceBlock, failure = none)
    (hroom : inputs.validators.length ≤ inputs.spec.size .validatorRegistryLimit)
    (hactive : inputs.validators.any (·.isActive inputs.spec fork.toForkName) = true)
    (hkeys : ∀ v ∈ inputs.validators, ∃ p, validPoint v.pubkey = .ok p)
    (hplaces : inputs.spec.size .syncCommitteeSize ≠ 0)
    (hattestation : attestationFailure inputs.config = none) :
    ∃ state, buildState (H := H) fork inputs = .ok state := by
  have hfails := failsWith_buildState (H := H) hspec hends
  have hcommittee : ∀ failure ∈ committeeFailures fork inputs, failure = none :=
    committeeFailures_eq_none hactive hkeys hplaces
  rw [hfails.isOk_iff, List.findSome?_eq_none_iff]
  intro failure hmem
  simp only [buildFailures, partFailures, List.mem_append, List.mem_cons, List.mem_map,
    List.not_mem_nil, or_false] at hmem
  rcases hmem with (rfl | hblock | rfl | ⟨committee, hmember, rfl⟩) | rfl
  · exact hdelay
  · exact hpayload failure hblock
  · rw [limitFailure, if_neg (Nat.not_lt.mpr hroom)]
    rfl
  · rw [hcommittee committee hmember]
    rfl
  · exact hattestation

/-! ## What is told -/

/-- The errors that a build tells of: no part but four, and no tree. -/
def GenesisError.IsTold : GenesisError → Prop
  | .outOfRange .. | .missingField _ | .extraDataTooLong .. | .config _ => True
  | .part name _ =>
    name ∈ ["withdrawals root", "transactions root", "validators root", "sync committee"]
  | .unsupportedVersion _ | .unsupportedFormat _ | .treeTooDeep => False

theorem isTold_of_vendorOr
    {config : Config} {key : String} {vendor : TeeVendor} {e : GenesisError}
    (herror : ProposerTee.vendorOr config key vendor = .error e) : e.IsTold := by
  obtain hword | ⟨tag, -, htag⟩ := bind_eq_error_iff.mp herror
  · cases hread : config.wordOr key vendor.tag.toUInt64 with
    | ok word =>
        rw [hread] at hword
        cases hword
    | error cause =>
        rw [hread] at hword
        cases hword
        trivial
  · split at htag
    · cases htag
    · cases htag
      trivial

theorem isTold_of_resolve
    {config : Config} {e : GenesisError} (herror : ProposerTee.resolve config = .error e) :
    e.IsTold := by
  rw [ProposerTee.resolve] at herror
  split at herror
  · cases herror
  · obtain hcommon | ⟨common, -, hrest⟩ := bind_eq_error_iff.mp herror
    · exact isTold_of_vendorOr hcommon
    · obtain hown | ⟨own, -, hnone⟩ := bind_eq_error_iff.mp hrest
      · exact isTold_of_vendorOr hown
      · cases hnone

theorem isTold_of_check
    {refused : Prop} [Decidable refused] {told e : GenesisError}
    (hfailure : some e = if refused then some told else none) (htold : told.IsTold) :
    e.IsTold := by
  obtain ⟨-, hsame⟩ := Option.ite_none_right_eq_some.mp hfailure.symm
  cases hsame
  exact htold

theorem isTold_of_map_part
    {failure : Option PartError} {name : String} {e : GenesisError}
    (hname :
      name ∈ ["withdrawals root", "transactions root", "validators root", "sync committee"])
    (hfailure : some e = failure.map (.part name)) : e.IsTold := by
  obtain ⟨cause, -, rfl⟩ := Option.map_eq_some_iff.mp hfailure.symm
  exact hname

theorem isTold_of_mem_buildFailures
    {fork : StateFork} {inputs : GenesisInputs} {e : GenesisError}
    (hmem : some e ∈ buildFailures fork inputs) : e.IsTold := by
  simp only [buildFailures, partFailures, payloadFailures, List.mem_cons, List.mem_append,
    List.not_mem_nil, or_false, List.mem_map] at hmem
  rcases hmem with (hdelay | (hextra | hblob | hexcess | hwithdrawals | hlong | hmany) |
    hregistry | ⟨failure, _, hcommittee⟩) | hattestation
  · exact isTold_of_check hdelay trivial
  · exact isTold_of_check hextra trivial
  · exact isTold_of_check hblob trivial
  · exact isTold_of_check hexcess trivial
  · exact isTold_of_map_part (by decide) hwithdrawals
  · exact isTold_of_map_part (by decide) hlong
  · exact isTold_of_map_part (by decide) hmany
  · exact isTold_of_map_part (by decide) hregistry
  · exact isTold_of_map_part (by decide) hcommittee.symm
  · rw [attestationFailure] at hattestation
    split at hattestation
    · cases hattestation
    · rename_i e hresolve
      cases hattestation
      exact isTold_of_resolve hresolve

theorem treeTooDeep_notMem_buildFailures
    (fork : StateFork) (inputs : GenesisInputs) :
    some .treeTooDeep ∉ buildFailures fork inputs := by
  intro hmem
  exact isTold_of_mem_buildFailures hmem

/-! ## The whole build -/

end GenesisForge
