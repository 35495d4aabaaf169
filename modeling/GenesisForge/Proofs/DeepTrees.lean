import GenesisForge.Proofs.AttestationIsolation

/-!
# Trees that stop a build

A configuration may ask for trees that have no roots.  The depth of the deposit tree
is checked against the width of a word only, and the limits of lists are not checked at
all, whereas roots are defined for trees of depth 49.  No build gets past a tree beyond
that, and where all trees are within it no build is stopped by one.
-/

namespace GenesisForge

open Ssz

theorem depositListLimit_le_iff
    {spec : ChainSpec} :
    spec.depositListLimit ≤ 2 ^ 49 ↔ spec.size .depositContractTreeDepth ≤ 49 :=
  Nat.pow_le_pow_iff_right (by decide)

theorem exists_depositRoot_iff
    {spec : ChainSpec} :
    (∃ root, depositRoot spec = .ok root) ↔ spec.size .depositContractTreeDepth ≤ 49 := by
  rw [(failsWith_depositRoot spec).isOk_iff, findSome?_id_cons, List.findSome?_nil,
    Option.or_none, depthFailure_eq_none_iff, List.forall_mem_singleton,
    depositListLimit_le_iff]

section

variable {H : Type} [HeaderBuild H] {fork : StateFork} {inputs : GenesisInputs}

theorem buildState_ne_treeTooDeep
    (hspec : inputs.spec.DefinesRoots fork) (hends : inputs.selection fork ≠ .error .neverFull) :
    buildState (H := H) fork inputs ≠ .error .treeTooDeep := by
  intro hdeep
  have hmem := (failsWith_buildState hspec hends).mem_of_eq_error hdeep
  exact treeTooDeep_notMem_buildFailures fork inputs hmem

/-- Every build asks for the trees of the deposits, of the registry and of the lists
in a block body, whatever it is built from. -/
theorem limits_le_of_buildState
    (hends : inputs.selection fork ≠ .error .neverFull) {state : VersionedState H}
    (hbuild : buildState fork inputs = .ok state) :
    (∀ p ∈ sharedLimits ++ fork.ownLimits, inputs.spec.size p ≤ 2 ^ 49) ∧
      inputs.spec.size .depositContractTreeDepth ≤ 49 := by
  have hnone := (failsWith_buildObstacles hends).isOk_iff.mp ⟨state, hbuild⟩
  rw [List.findSome?_eq_none_iff] at hnone
  have hshallow (name : String) (leaves : List Nat)
      (hmem : (depthFailure leaves).map (GenesisError.ofPart name) ∈ buildObstacles fork inputs) :
      ∀ n ∈ leaves, n ≤ 2 ^ 49 :=
    depthFailure_eq_none_iff.mp (Option.map_eq_none_iff.mp (hnone _ hmem))
  have hdeposits := hshallow "deposit root" [inputs.spec.depositListLimit]
    (by simp [buildObstacles, partObstacles, obstaclesIn])
  have hregistry := hshallow "validators root" [inputs.spec.size .validatorRegistryLimit]
    (by simp [buildObstacles, partObstacles, obstaclesIn, listObstacles])
  have hbody := hshallow "body root" (fork.bodyLimits.map inputs.spec.size)
    (by simp [buildObstacles, partObstacles, obstaclesIn])
  rw [List.forall_mem_singleton] at hdeposits hregistry
  rw [List.forall_mem_map] at hbody
  constructor
  · have hlimits : sharedLimits ++ fork.ownLimits =
        .validatorRegistryLimit :: fork.bodyLimits := rfl
    rw [hlimits, List.forall_mem_cons]
    exact ⟨hregistry, hbody⟩
  · exact depositListLimit_le_iff.mp hdeposits

end

/-- A build ends at the first of its obstacles.  A tree is none of them where every
tree is within the depth that roots are defined for, and no build gets past a deeper
one, the root of the deposits being refused at every depth above 49. -/
theorem buildState_stops_at_first_obstacle
    {H : Type} [HeaderBuild H] (fork : StateFork) (inputs : GenesisInputs)
    (hends : inputs.selection fork ≠ .error .neverFull) :
    (∀ e, buildState (H := H) fork inputs = .error e ↔
      (buildObstacles fork inputs).findSome? id = some e) ∧
    (inputs.spec.DefinesRoots fork → buildState (H := H) fork inputs ≠ .error .treeTooDeep) ∧
    (∀ state : VersionedState H, buildState fork inputs = .ok state →
      (∀ p ∈ sharedLimits ++ fork.ownLimits, inputs.spec.size p ≤ 2 ^ 49) ∧
        inputs.spec.size .depositContractTreeDepth ≤ 49) ∧
    ((∃ root, depositRoot inputs.spec = .ok root) ↔
      inputs.spec.size .depositContractTreeDepth ≤ 49) := by
  refine ⟨?_, ?_, ?_, ?_⟩
  · exact failsWith_buildObstacles hends
  · intro hspec
    exact buildState_ne_treeTooDeep hspec hends
  · intro state hbuild
    exact limits_le_of_buildState hends hbuild
  · exact exists_depositRoot_iff

/-- A configuration of nothing but a deeper deposit tree. -/
def deepConfig : Config := Config.empty.set Parameter.depositContractTreeDepth.key (.number 50)

/-- The parameters of the main network but for a deeper deposit tree. -/
def deepSpec : ChainSpec where
  value := fun p => if p = .depositContractTreeDepth then 50 else p.default
  version := ForkName.defaultVersion
  votingSlots_lt := by decide
  roundCount_lt := by decide
  treeDepth_lt := by decide

theorem specOf_deepConfig : specOf deepConfig = .ok deepSpec := by
  obtain ⟨spec, hspec, hvalue, hversion⟩ : ∃ spec, specOf deepConfig = .ok spec ∧
      (∀ p : Parameter, spec.value p = deepSpec.value p) ∧
      ∀ fork : ForkName, spec.version fork = deepSpec.version fork := by
    refine ⟨_, rfl, fun p => ?_, fun fork => ?_⟩
    · cases p <;> rfl
    · cases fork <;> rfl
  obtain rfl : spec = deepSpec := ChainSpec.ext hvalue hversion
  exact hspec

def deepInputs : GenesisInputs :=
  (GenesisInputs.new deepConfig deepSpec quietBlock).addValidators [soloValidator]

theorem buildState_deepInputs :
    specOf deepConfig = .ok deepSpec ∧
      deepInputs.selection .deneb ≠ .error .neverFull ∧
      buildState (H := TeeBlockHeader) .deneb deepInputs = .error .treeTooDeep := by
  have hends := deepInputs.selection_deneb_ne_neverFull (by decide : deepSpec.CapsFit .deneb)
  have hbuild := buildState_stops_at_first_obstacle (H := TeeBlockHeader) .deneb deepInputs hends
  exact ⟨specOf_deepConfig, hends, (hbuild.1 _).mpr rfl⟩

theorem depositRoot_deepConfig :
    ∃ spec, specOf deepConfig = .ok spec ∧ depositRoot spec = .error .treeTooDeep :=
  ⟨deepSpec, specOf_deepConfig, rfl⟩

end GenesisForge
