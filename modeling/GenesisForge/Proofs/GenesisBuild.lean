import GenesisForge.Genesis.Build
import GenesisForge.Proofs.FirstFailures

/-!
# Steps of a genesis build

A builder is called any number of times before it builds.  What it builds is
then made of parts that do not depend on the header build, a header, and their
assembly.
-/

namespace GenesisForge

open Ssz

/-- A call that prepares a builder. -/
inductive BuilderCall where
  | setShadowBlock (block : ExecutionBlock)
  | addValidators (validators : List GenesisValidator)

namespace GenesisInputs

def call (inputs : GenesisInputs) : BuilderCall → GenesisInputs
  | .setShadowBlock block => inputs.setShadowBlock block
  | .addValidators validators => inputs.addValidators validators

/-- The inputs after all of the calls, the first one first. -/
def callAll (inputs : GenesisInputs) (calls : List BuilderCall) : GenesisInputs :=
  calls.foldl call inputs

end GenesisInputs

theorem fields_of_payloadHeader
    {spec : ChainSpec} {block : ExecutionBlock} {header : ExecutionPayloadHeader}
    (hheader : payloadHeader spec block = .ok header) :
    header.blockHash = block.hash ∧ header.extraData.limit = maxExtraDataLength := by
  obtain ⟨_, _, hheader⟩ := bind_eq_ok_iff.mp hheader
  obtain ⟨_, _, hheader⟩ := bind_eq_ok_iff.mp hheader
  obtain ⟨_, _, hheader⟩ := bind_eq_ok_iff.mp hheader
  obtain ⟨_, _, hheader⟩ := bind_eq_ok_iff.mp hheader
  obtain ⟨_, _, hheader⟩ := bind_eq_ok_iff.mp hheader
  obtain ⟨extraData, hextra, hheader⟩ := bind_eq_ok_iff.mp hheader
  cases hheader
  constructor
  · rfl
  · exact (ByteList.ofBytes_eq_ok (eq_ok_of_mapError_eq_ok (eq_ok_of_mapError_eq_ok hextra))).2

theorem items_of_registry
    {spec : ChainSpec} {fork : ForkName} {validators : List GenesisValidator}
    {entries : Bounded Validator} {root : Root}
    (hregistry : registry spec fork validators = .ok (entries, root)) :
    entries.items = registryEntries spec fork validators ∧
      entries.limit = spec.size .validatorRegistryLimit := by
  obtain ⟨made, hmade, hroot⟩ := bind_eq_ok_iff.mp hregistry
  obtain ⟨_, _, hpair⟩ := bind_eq_ok_iff.mp hroot
  cases hpair
  exact Bounded.ofList_eq_ok (eq_ok_of_mapError_eq_ok hmade)

theorem genesisHeader_eq_map
    {H : Type} [HeaderBuild H] (config : Config) (parts : GenesisParts) :
    genesisHeader (H := H) config parts =
      (ProposerTee.resolve config).map fun tee =>
        attest tee.vendor tee.quote.bytes (HeaderBuild.ofHeader (.ofBodyRoot parts.bodyRoot)) := by
  unfold genesisHeader attestFrom
  cases ProposerTee.resolve config <;> rfl

theorem buildState_eq_ok_iff
    {H : Type} [HeaderBuild H] {fork : StateFork} {inputs : GenesisInputs}
    {state : VersionedState H} :
    buildState fork inputs = .ok state ↔
      ∃ parts header,
        genesisParts fork inputs = .ok parts ∧
        genesisHeader inputs.config parts = .ok header ∧
        state = assemble fork inputs.spec parts header := by
  change (genesisParts fork inputs >>= _) = .ok state ↔ _
  rw [bind_eq_ok_iff]
  constructor
  · rintro ⟨parts, hparts, hmade⟩
    obtain ⟨header, hheader, rfl⟩ := map_eq_ok_iff.mp hmade
    exact ⟨parts, header, hparts, hheader, rfl⟩
  · rintro ⟨parts, header, hparts, hheader, rfl⟩
    exact ⟨parts, hparts, map_eq_ok_iff.mpr ⟨header, hheader, rfl⟩⟩

theorem base_assemble
    {H : Type} (fork : StateFork) (spec : ChainSpec) (parts : GenesisParts) (header : H) :
    (assemble fork spec parts header).base = baseState spec parts header := by
  cases fork <;> rfl

end GenesisForge
