import GenesisForge.Proofs.ConsistentGenesis
import GenesisForge.Proofs.HeaderBuilds

/-!
# What the configured attestation reaches

The parameters that name the vendor of the proposer are kept among all the others.  Two
configurations that agree in the others give the same parameters of a chain, and so the
same parts of a state or the same failure.  The vendor is looked up when the parts are
there, and reaches nothing but the tag in the header, which is one byte of an encoded
state.
-/

namespace GenesisForge

open Ssz

/-! ## Configurations that agree outside some keys -/

namespace Config

def AgreesOutside (keys : List String) (a b : Config) : Prop :=
  ∀ key, key ∉ keys → a.get? key = b.get? key

theorem agreesOutside_set
    {keys : List String} {key : String} (hkey : key ∈ keys) (config : Config)
    (value : ConfigValue) : config.AgreesOutside keys (config.set key value) := by
  intro other hother
  have hne : (other == key) = false := beq_false_of_ne fun heq => hother (heq ▸ hkey)
  rw [get?, get?, set, List.lookup_cons, hne]

namespace AgreesOutside

variable {keys : List String} {a b : Config} {key : String}

theorem wordOr_eq
    (hagree : a.AgreesOutside keys b) (hkey : key ∉ keys) (default : UInt64) :
    a.wordOr key default = b.wordOr key default := by
  rw [wordOr, wordOr, word, word, hagree key hkey]

theorem fixedBytesOr_eq
    (hagree : a.AgreesOutside keys b) (hkey : key ∉ keys) {n : Nat} (default : FixedBytes n) :
    a.fixedBytesOr n key default = b.fixedBytesOr n key default := by
  rw [fixedBytesOr, fixedBytesOr, hagree key hkey]

end AgreesOutside

end Config

namespace ProposerTee

/-- The keys of all parameters that are about the attestation of the proposer. -/
def keys : List String := [nameKey, vendorKey, proposerKey, attestationKey]

/-- Whatever is configured, the quote is the placeholder. -/
theorem quote_of_resolve
    {config : Config} {tee : ProposerTee} (hresolve : resolve config = .ok tee) :
    tee.quote = defaultQuote := by
  rw [resolve] at hresolve
  cases hnamed : named? config with
  | some vendor =>
      rw [hnamed] at hresolve
      cases hresolve
      rfl
  | none =>
      rw [hnamed] at hresolve
      obtain ⟨common, -, hproposer⟩ := bind_eq_ok_iff.mp hresolve
      obtain ⟨vendor, -, htee⟩ := bind_eq_ok_iff.mp hproposer
      cases htee
      rfl

end ProposerTee

/-! ## Parameters of the chain -/

theorem Parameter.key_notMem_keys (p : Parameter) : p.key ∉ ProposerTee.keys := by
  cases p <;> decide

theorem ForkName.versionKey_notMem_keys (fork : ForkName) :
    fork.versionKey ∉ ProposerTee.keys := by
  cases fork <;> decide

theorem ChainSpec.ext
    {a b : ChainSpec} (hvalue : ∀ p, a.value p = b.value p)
    (hversion : ∀ fork, a.version fork = b.version fork) : a = b := by
  obtain ⟨value, version, _, _, _⟩ := a
  obtain rfl : value = b.value := funext hvalue
  obtain rfl : version = b.version := funext hversion
  rfl

/-- The parameters of a chain are made of what is read for each of them. -/
theorem ChainSpec.ofConfig_congr
    {a b : Config} (hword : ∀ p : Parameter, p.read a = p.read b)
    (hversion : ∀ fork : ForkName, fork.readVersion a = fork.readVersion b) :
    ofConfig a = ofConfig b := by
  simp only [ofConfig, readVersions, Parameter.readAll, hword, hversion]

/-- A configuration without values gives the parameters of the main network. -/
theorem specOf_empty : specOf .empty = .ok .mainnet := by
  obtain ⟨spec, hspec, hvalue, hversion⟩ : ∃ spec, specOf .empty = .ok spec ∧
      (∀ p : Parameter, spec.value p = p.default) ∧
      ∀ fork : ForkName, spec.version fork = fork.defaultVersion := by
    refine ⟨_, rfl, fun p => ?_, fun fork => ?_⟩
    · cases p <;> rfl
    · cases fork <;> rfl
  obtain rfl : spec = .mainnet := ChainSpec.ext hvalue hversion
  exact hspec

/-! ## Opening a builder -/

inductive Opening where
  /-- For the fork that is active from the start. -/
  | atGenesis
  /-- For a given fork, with the parameters of the configuration. -/
  | ofFork (fork : StateFork)
  /-- For a given fork, with given parameters. -/
  | ofSpec (fork : StateFork) (spec : ChainSpec)

namespace Opening

/-- The fork and the inputs of a builder before any call. -/
def inputs (opening : Opening) (config : Config) (block : ExecutionBlock) :
    Except GenesisError (StateFork × GenesisInputs) :=
  match opening with
  | atGenesis => openGenesis config block
  | ofFork fork => (specOf config).map fun spec => (fork, .new config spec block)
  | ofSpec fork spec => .ok (fork, .new config spec block)

/-- Opens a builder, prepares it by calls and builds a state. -/
def build {H : Type} [HeaderBuild H] (opening : Opening) (config : Config)
    (block : ExecutionBlock) (calls : List BuilderCall) :
    Except GenesisError (VersionedState H) := do
  let (fork, inputs) ← opening.inputs config block
  buildState fork (inputs.callAll calls)

/-- The fork and the parameters of a builder. -/
def chain (opening : Opening) (config : Config) : Except GenesisError (StateFork × ChainSpec) :=
  match opening with
  | atGenesis => specOf config >>= fun spec => (forkAtGenesis spec).map (·, spec)
  | ofFork fork => (specOf config).map (fork, ·)
  | ofSpec fork spec => .ok (fork, spec)

/-- What a build does before it looks for the attestation of the proposer. -/
def parts (opening : Opening) (config : Config) (block : ExecutionBlock)
    (calls : List BuilderCall) : Except GenesisError (StateFork × ChainSpec × GenesisParts) := do
  let (fork, spec) ← opening.chain config
  let parts ← genesisParts fork ((GenesisInputs.new config spec block).callAll calls)
  pure (fork, spec, parts)

/-- The parts of a state are there, and the attestation that is configured is refused. -/
def FailsToAttest (opening : Opening) (config : Config) (block : ExecutionBlock)
    (calls : List BuilderCall) (e : GenesisError) : Prop :=
  (∃ prepared, opening.parts config block calls = .ok prepared) ∧
    ProposerTee.resolve config = .error e

theorem inputs_eq_map_chain (opening : Opening) (config : Config) (block : ExecutionBlock) :
    opening.inputs config block =
      (opening.chain config).map fun (fork, spec) => (fork, .new config spec block) := by
  cases opening with
  | atGenesis =>
      rw [inputs, chain, openGenesis]
      cases specOf config with
      | error e => rfl
      | ok spec =>
          change forkAtGenesis spec >>= _ = ((forkAtGenesis spec).map _).map _
          cases forkAtGenesis spec <;> rfl
  | ofFork fork =>
      rw [inputs, chain]
      cases specOf config <;> rfl
  | ofSpec fork spec => rfl

theorem build_ofFork
    {H : Type} [HeaderBuild H] {config : Config} {spec : ChainSpec}
    (hspec : specOf config = .ok spec) (fork : StateFork) (block : ExecutionBlock)
    (calls : List BuilderCall) :
    (ofFork fork).build (H := H) config block calls =
      buildState fork ((GenesisInputs.new config spec block).callAll calls) := by
  rw [build, inputs, hspec]
  rfl

theorem build_eq_bind_parts
    {H : Type} [HeaderBuild H] (opening : Opening) (config : Config) (block : ExecutionBlock)
    (calls : List BuilderCall) :
    opening.build (H := H) config block calls =
      opening.parts config block calls >>= fun (fork, spec, parts) =>
        (genesisHeader config parts).map (assemble fork spec parts) := by
  rw [build, parts, inputs_eq_map_chain]
  cases opening.chain config with
  | error e => rfl
  | ok opened =>
      obtain ⟨fork, spec⟩ := opened
      change buildState fork ((GenesisInputs.new config spec block).callAll calls) =
        (genesisParts fork ((GenesisInputs.new config spec block).callAll calls) >>= _) >>= _
      rw [buildState, GenesisInputs.callAll_eq]
      cases genesisParts fork _ <;> rfl

end Opening

/-! ## Steps that agree -/

section

variable {a b : Config} (hagree : a.AgreesOutside ProposerTee.keys b)
include hagree

theorem specOf_eq_of_agreesOutside : specOf a = specOf b := by
  have hword (p : Parameter) : p.read a = p.read b :=
    hagree.wordOr_eq p.key_notMem_keys p.default
  have hversion (fork : ForkName) : fork.readVersion a = fork.readVersion b :=
    hagree.fixedBytesOr_eq fork.versionKey_notMem_keys fork.defaultVersion
  rw [specOf, specOf, ChainSpec.ofConfig_congr hword hversion]

theorem Opening.chain_eq_of_agreesOutside (opening : Opening) :
    opening.chain a = opening.chain b := by
  cases opening with
  | atGenesis => rw [chain, chain, specOf_eq_of_agreesOutside hagree]
  | ofFork fork => rw [chain, chain, specOf_eq_of_agreesOutside hagree]
  | ofSpec fork spec => rfl

/-- Everything before the attestation is the same, the first failure included. -/
theorem Opening.parts_eq_of_agreesOutside
    (opening : Opening) (block : ExecutionBlock) (calls : List BuilderCall) :
    opening.parts a block calls = opening.parts b block calls := by
  have hparts (fork : StateFork) (spec : ChainSpec) :
      genesisParts fork ((GenesisInputs.new a spec block).callAll calls) =
        genesisParts fork ((GenesisInputs.new b spec block).callAll calls) := by
    rw [GenesisInputs.callAll_eq, GenesisInputs.callAll_eq]
    rfl
  rw [parts, parts, opening.chain_eq_of_agreesOutside hagree]
  simp only [hparts]

end

/-! ## The attested header -/

/-- Headers of one body differ in their tags alone, whatever attested them. -/
theorem eq_of_genesisHeader
    {a b : Config} {parts : GenesisParts} {header other : TeeBlockHeader}
    (hheader : genesisHeader a parts = .ok header)
    (hother : genesisHeader b parts = .ok other) :
    other = { header with teeType := other.teeType } := by
  rw [genesisHeader_eq_map] at hheader hother
  obtain ⟨tee, htee, rfl⟩ := map_eq_ok_iff.mp hheader
  obtain ⟨tee', htee', rfl⟩ := map_eq_ok_iff.mp hother
  rw [ProposerTee.quote_of_resolve htee, ProposerTee.quote_of_resolve htee']
  rfl

theorem eq_ofBodyRoot_of_genesisHeader
    {config : Config} {parts : GenesisParts} {header : BlockHeader}
    (hheader : genesisHeader config parts = .ok header) :
    header = .ofBodyRoot parts.bodyRoot := by
  rw [genesisHeader_eq_map] at hheader
  obtain ⟨tee, -, rfl⟩ := map_eq_ok_iff.mp hheader
  rfl

/-- Where the tag of the header stands in the encoding of a state. -/
def tagPlace : Nat := statePrefixLength + BlockHeader.encodedLength

theorem TeeBlockHeader.slotLength_toValue (header : TeeBlockHeader) :
    (toValue header).slotLength = encodedLength := by
  rw [(Serializable.hasShape header).slotLength_eq (by decide) (by decide) (by decide)]
  exact size_encode_toValue header (by decide)

/-- The encodings of states that differ in their tags alone have the same bytes around
the tag. -/
theorem VersionedState.exists_encode_mapHeader_eq (state : VersionedState TeeBlockHeader) :
    ∃ head tail : ByteArray, head.size = tagPlace ∧
      ∀ tag, (state.mapHeader fun header => { header with teeType := tag }).value.encode =
        head ++ ByteArray.empty.push tag ++ tail := by
  have hcount : (state.base.values.take 4).length = Schemas.fieldsBeforeHeader.length := rfl
  obtain ⟨front, back, hfront, haround⟩ : ∃ front back : ByteArray,
      front.size = statePrefixLength ∧
      ∀ tag, (state.mapHeader fun header => { header with teeType := tag }).value.encode =
        front ++ (toValue { state.base.latestBlockHeader with teeType := tag }).encode ++ back := by
    rw [← state.base.size_before_header]
    cases state with
    | deneb s =>
        obtain ⟨front, back, hfront, haround⟩ := exists_encode_container_eq rfl
          (Schemas.fields_denebState_eq (Serializable.shape TeeBlockHeader)) hcount rfl
          (s.values.drop 5) TeeBlockHeader.encodedLength
        exact ⟨front, back, hfront, fun tag => haround _ (TeeBlockHeader.slotLength_toValue _)⟩
    | electra s =>
        obtain ⟨front, back, hfront, haround⟩ := exists_encode_container_eq rfl
          (Schemas.fields_electraState_eq (Serializable.shape TeeBlockHeader)) hcount rfl
          (s.base.values.drop 5 ++ s.electra.values) TeeBlockHeader.encodedLength
        exact ⟨front, back, hfront, fun tag => haround _ (TeeBlockHeader.slotLength_toValue _)⟩
  refine ⟨front ++ (toValue state.base.latestBlockHeader.base).encode,
    state.base.latestBlockHeader.teeQuote.bytes ++ back, ?_, fun tag => ?_⟩
  · rw [ByteArray.size_append, hfront, BlockHeader.size_encode, tagPlace]
  · rw [haround, TeeBlockHeader.encode_eq, TeeBlockHeader.attestation]
    simp only [ByteArray.append_assoc]

theorem VersionedState.mapHeader_tag_self (state : VersionedState TeeBlockHeader) :
    (state.mapHeader fun header =>
      { header with teeType := state.base.latestBlockHeader.teeType }) = state := by
  cases state <;> rfl

/-- Encoded states that differ in their tags alone have one length and differ in one byte. -/
theorem VersionedState.encode_eq_outside_tag
    {state other : VersionedState TeeBlockHeader}
    (hother : other = state.mapHeader fun header =>
      { header with teeType := other.base.latestBlockHeader.teeType }) :
    other.value.encode.size = state.value.encode.size ∧
      ∀ i, i ≠ tagPlace → other.value.encode[i]? = state.value.encode[i]? := by
  obtain ⟨head, tail, hhead, hencode⟩ := state.exists_encode_mapHeader_eq
  have hstate := hencode state.base.latestBlockHeader.teeType
  rw [state.mapHeader_tag_self] at hstate
  rw [hother, hencode, hstate]
  refine ⟨by simp, fun i hi => ?_⟩
  exact Bytes.getElem?_middle_of_ne head tail _ _ (hhead ▸ hi)

/-! ## Two builds -/

section

variable {a b : Config} (hagree : a.AgreesOutside ProposerTee.keys b)
include hagree

/-- A build fails as another one does, unless it is the attestation that is refused. -/
theorem Opening.build_eq_error_of_agreesOutside
    {H : Type} [HeaderBuild H] {opening : Opening} {block : ExecutionBlock}
    {calls : List BuilderCall} {e : GenesisError}
    (hbuild : opening.build (H := H) a block calls = .error e)
    (hother : ¬ opening.FailsToAttest a block calls e) :
    opening.build (H := H) b block calls = .error e := by
  rw [build_eq_bind_parts, bind_eq_error_iff] at hbuild
  rw [build_eq_bind_parts, bind_eq_error_iff, ← opening.parts_eq_of_agreesOutside hagree]
  obtain hparts | ⟨⟨fork, spec, parts⟩, hparts, hheader⟩ := hbuild
  · exact .inl hparts
  · have hrefused := map_eq_error_iff.mp hheader
    rw [genesisHeader_eq_map] at hrefused
    exact absurd ⟨⟨_, hparts⟩, map_eq_error_iff.mp hrefused⟩ hother

/-- Builds that succeed put headers to the same parts. -/
theorem Opening.exists_assemble_of_agreesOutside
    {H : Type} [HeaderBuild H] {opening : Opening} {block : ExecutionBlock}
    {calls : List BuilderCall} {state other : VersionedState H}
    (hstate : opening.build a block calls = .ok state)
    (hother : opening.build b block calls = .ok other) :
    ∃ fork spec parts header header',
      genesisHeader a parts = .ok header ∧ assemble fork spec parts header = state ∧
      genesisHeader b parts = .ok header' ∧ assemble fork spec parts header' = other := by
  rw [build_eq_bind_parts, bind_eq_ok_iff] at hstate hother
  obtain ⟨⟨fork, spec, parts⟩, hparts, hstate⟩ := hstate
  obtain ⟨⟨fork', spec', parts'⟩, hparts', hother⟩ := hother
  rw [← opening.parts_eq_of_agreesOutside hagree, hparts] at hparts'
  cases hparts'
  obtain ⟨header, hheader, rfl⟩ := map_eq_ok_iff.mp hstate
  obtain ⟨header', hheader', rfl⟩ := map_eq_ok_iff.mp hother
  exact ⟨fork, spec, parts, header, header', hheader, rfl, hheader', rfl⟩

end

/-- What is configured about the attestation reaches nothing but the tag of the header.
Under configurations that agree in all the rest, for one block, the same calls and one way
to open the builder, the attested states that are built differ in their tags alone, which
are one byte of their encodings, the plain states are the same, and a build that fails
before the attestation is looked at fails as the other one does. -/
theorem builds_eq_outside_tag
    {a b : Config} (hagree : a.AgreesOutside ProposerTee.keys b) (opening : Opening)
    (block : ExecutionBlock) (calls : List BuilderCall) :
    (∀ state other : VersionedState TeeBlockHeader,
      opening.build a block calls = .ok state → opening.build b block calls = .ok other →
        (other = state.mapHeader fun header =>
          { header with teeType := other.base.latestBlockHeader.teeType }) ∧
        (artifact other .ssz).size = (artifact state .ssz).size ∧
        ∀ i, i ≠ 176 → (artifact other .ssz)[i]? = (artifact state .ssz)[i]?) ∧
    (∀ state other : VersionedState BlockHeader,
      opening.build a block calls = .ok state → opening.build b block calls = .ok other →
        other = state) ∧
    ∀ (H : Type) [HeaderBuild H] (e : GenesisError),
      opening.build (H := H) a block calls = .error e →
        ¬ opening.FailsToAttest a block calls e →
          opening.build (H := H) b block calls = .error e := by
  refine ⟨fun state other hstate hother => ?_, fun state other hstate hother => ?_,
    fun H _ e hbuild hattestation =>
      Opening.build_eq_error_of_agreesOutside hagree hbuild hattestation⟩
  · have htag : other = state.mapHeader fun header =>
        { header with teeType := other.base.latestBlockHeader.teeType } := by
      obtain ⟨fork, spec, parts, header, header', hheader, rfl, hheader', rfl⟩ :=
        Opening.exists_assemble_of_agreesOutside hagree hstate hother
      rw [mapHeader_assemble, base_assemble]
      exact congrArg _ (eq_of_genesisHeader hheader hheader')
    exact ⟨htag, VersionedState.encode_eq_outside_tag htag⟩
  · obtain ⟨fork, spec, parts, header, header', hheader, rfl, hheader', rfl⟩ :=
      Opening.exists_assemble_of_agreesOutside hagree hstate hother
    rw [eq_ofBodyRoot_of_genesisHeader hheader, eq_ofBodyRoot_of_genesisHeader hheader']

/-- What does reach the tag is the vendor that the configuration gives. -/
theorem teeType_of_build
    {opening : Opening} {config : Config} {block : ExecutionBlock} {calls : List BuilderCall}
    {state : VersionedState TeeBlockHeader} {tee : ProposerTee}
    (hbuild : opening.build config block calls = .ok state)
    (hresolve : ProposerTee.resolve config = .ok tee) :
    state.base.latestBlockHeader.teeType = tee.vendor.tag := by
  rw [Opening.build_eq_bind_parts, bind_eq_ok_iff] at hbuild
  obtain ⟨⟨fork, spec, parts⟩, -, hmade⟩ := hbuild
  obtain ⟨header, hheader, rfl⟩ := map_eq_ok_iff.mp hmade
  rw [genesisHeader_eq_map, hresolve] at hheader
  cases hheader
  rw [base_assemble]
  rfl

/-- A configuration of nothing but another vendor. -/
def tdxConfig : Config := Config.empty.set ProposerTee.vendorKey (.number 1)

theorem agreesOutside_tdxConfig : Config.empty.AgreesOutside ProposerTee.keys tdxConfig :=
  Config.agreesOutside_set (by decide) _ _

theorem exists_build_staged
    {H : Type} [HeaderBuild H] {config : Config}
    (hagree : Config.empty.AgreesOutside ProposerTee.keys config)
    (hattestation : attestationFailure config = none) :
    ∃ state, (Opening.ofFork .deneb).build (H := H) config quietBlock stagedCalls = .ok state := by
  have hspec : specOf config = .ok .mainnet := by
    rw [← specOf_eq_of_agreesOutside hagree, specOf_empty]
  rw [Opening.build_ofFork hspec]
  exact exists_buildState_staged config quietBlock hattestation

theorem builds_eq_outside_tag_staged :
    (∃ state other : VersionedState TeeBlockHeader,
      (Opening.ofFork .deneb).build .empty quietBlock stagedCalls = .ok state ∧
      (Opening.ofFork .deneb).build tdxConfig quietBlock stagedCalls = .ok other ∧
      state.base.latestBlockHeader.teeType = 0 ∧
      other = (state.mapHeader fun header => { header with teeType := 1 }) ∧
      ∀ i, i ≠ 176 → (artifact other .ssz)[i]? = (artifact state .ssz)[i]?) ∧
    (∃ state : VersionedState BlockHeader,
      (Opening.ofFork .deneb).build .empty quietBlock stagedCalls = .ok state ∧
      (Opening.ofFork .deneb).build tdxConfig quietBlock stagedCalls = .ok state) ∧
    Opening.atGenesis.build (H := TeeBlockHeader) tdxConfig quietBlock stagedCalls =
      .error (.unsupportedVersion .capella) := by
  obtain ⟨htagged, hplain, -⟩ :=
    builds_eq_outside_tag agreesOutside_tdxConfig (.ofFork .deneb) quietBlock stagedCalls
  obtain ⟨-, -, hfails⟩ :=
    builds_eq_outside_tag agreesOutside_tdxConfig .atGenesis quietBlock stagedCalls
  refine ⟨?_, ?_, ?_⟩
  · obtain ⟨state, hstate⟩ := exists_build_staged (H := TeeBlockHeader) (fun _ _ => rfl) rfl
    obtain ⟨other, hother⟩ := exists_build_staged (H := TeeBlockHeader) agreesOutside_tdxConfig rfl
    obtain ⟨heq, -, hbytes⟩ := htagged state other hstate hother
    have htag : other.base.latestBlockHeader.teeType = 1 := teeType_of_build hother rfl
    rw [htag] at heq
    exact ⟨state, other, hstate, hother, teeType_of_build hstate rfl, heq, hbytes⟩
  · obtain ⟨state, hstate⟩ := exists_build_staged (H := BlockHeader) (fun _ _ => rfl) rfl
    obtain ⟨other, hother⟩ := exists_build_staged (H := BlockHeader) agreesOutside_tdxConfig rfl
    rw [hplain state other hstate hother] at hother
    exact ⟨state, hstate, hother⟩
  · have hchain : Opening.atGenesis.chain .empty = .error (.unsupportedVersion .capella) := by
      rw [Opening.chain, specOf_empty]
      rfl
    refine hfails TeeBlockHeader _ ?_ ?_
    · rw [Opening.build_eq_bind_parts, Opening.parts, hchain]
      rfl
    · rintro ⟨⟨prepared, hparts⟩, -⟩
      rw [Opening.parts, hchain] at hparts
      cases hparts

end GenesisForge
