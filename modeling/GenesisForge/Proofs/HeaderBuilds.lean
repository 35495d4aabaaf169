import GenesisForge.Proofs.EncodingInjective
import GenesisForge.Proofs.GenesisBuild
import GenesisForge.Proofs.OffsetWords

/-!
# States of the two header builds

A genesis state with an attested header is the plain genesis state with the
attestation inserted behind the header.  This holds of the states themselves
and of their encodings, where the insertion also moves every payload and so
raises the offsets of the state, and only those.
-/

namespace GenesisForge

open Ssz

section

variable {H K : Type}

def BeaconState.mapHeader (f : H → K) (s : BeaconState H) : BeaconState K :=
  { s with latestBlockHeader := f s.latestBlockHeader }

/-- The state that differs in nothing but its header. -/
def VersionedState.mapHeader (f : H → K) : VersionedState H → VersionedState K
  | .deneb state => .deneb (state.mapHeader f)
  | .electra state => .electra ⟨state.base.mapHeader f, state.electra⟩

theorem mapHeader_assemble
    (f : H → K) (fork : StateFork) (spec : ChainSpec) (parts : GenesisParts)
    (header : H) :
    (assemble fork spec parts header).mapHeader f =
      assemble fork spec parts (f header) := by
  cases fork <;> rfl

end

/-! ## Headers -/

/-- The bytes that an attested header has and a plain header has not. -/
def TeeBlockHeader.attestation (h : TeeBlockHeader) : ByteArray :=
  ByteArray.empty.push h.teeType ++ h.teeQuote.bytes

theorem TeeBlockHeader.size_attestation (h : TeeBlockHeader) :
    h.attestation.size = 8193 := by
  rw [attestation, ByteArray.size_append, h.teeQuote.size_eq, ByteArray.size_push,
    ByteArray.size_empty, Schemas.quoteLength]

theorem TeeBlockHeader.encode_eq (h : TeeBlockHeader) :
    (toValue h).encode = (toValue h.base).encode ++ h.attestation := by
  have htag : (toValue h.teeType).encode = ByteArray.empty.push h.teeType := by
    simp [toValue, Value.encode, Bytes.littleEndian, Bytes.appendLittleEndian]
  have hparts :
      fieldParts Schemas.teeBlockHeader.fields
          (h.base.values ++ [toValue h.teeType, toValue h.teeQuote]) =
        fieldParts Schemas.blockHeader.fields h.base.values ++
          [⟨true, (toValue h.teeType).encode⟩, ⟨true, h.teeQuote.bytes⟩] := rfl
  have hfixed : ∀ part ∈ fieldParts Schemas.blockHeader.fields h.base.values,
      part.isFixed := fieldParts_inPlace (by decide) h.base.values
  have hattestation (position : Nat) :
      layOut position [⟨true, (toValue h.teeType).encode⟩, ⟨true, h.teeQuote.bytes⟩] =
        h.attestation := by
    rw [htag, layOut_eq]
    simp [fixedPart, payloads, TeeBlockHeader.attestation]
  change (Value.container Schemas.teeBlockHeader _).encode =
    (Value.container Schemas.blockHeader h.base.values).encode ++ _
  rw [Value.encode, Value.encode, hparts, layOut_append_of_inPlace hfixed, hattestation]

theorem BlockHeader.size_encode (h : BlockHeader) :
    (toValue h).encode.size = encodedLength :=
  (Serializable.hasShape h).size_encode_of_isStatic (by decide)

theorem TeeBlockHeader.slotLength_eq (h : TeeBlockHeader) :
    (toValue h).slotLength = (toValue h.base).slotLength + h.attestation.size := by
  have hplain := (Serializable.hasShape h.base).slotLength_eq (by decide) (by decide)
    (by decide)
  rw [(Serializable.hasShape h).slotLength_eq (by decide) (by decide) (by decide), hplain,
    h.encode_eq, ByteArray.size_append]

/-! ## Encoded states -/

namespace Schemas

def fieldsBeforeHeader : List Field :=
  (stateFields .root).take 4

def fieldsAfterHeader : List Field :=
  (stateFields .root).drop 5

theorem fields_denebState_eq (header : Shape) :
    (denebState header).fields =
      fieldsBeforeHeader ++ plain "latest_block_header" header :: fieldsAfterHeader :=
  rfl

theorem fields_electraState_eq (header : Shape) :
    (electraState header).fields =
      fieldsBeforeHeader ++ plain "latest_block_header" header ::
        (fieldsAfterHeader ++ electraFields) :=
  rfl

end Schemas

theorem size_encode_toValue
    {α : Type} [Serializable α] (a : α) (hstatic : (Serializable.shape α).isStatic) :
    (toValue a).encode.size = (Serializable.shape α).staticLength :=
  (Serializable.hasShape a).size_encode_of_isStatic hstatic

theorem BeaconState.size_before_header
    {H : Type} [Serializable H] (s : BeaconState H) :
    ((fieldParts Schemas.fieldsBeforeHeader (s.values.take 4)).map
      Part.slotSize).sum = statePrefixLength := by
  change (toValue s.genesisTime).encode.size +
    ((toValue s.genesisValidatorsRoot).encode.size +
      ((toValue s.slot).encode.size + ((toValue s.fork).encode.size + 0))) = _
  rw [size_encode_toValue _ rfl, size_encode_toValue _ rfl, size_encode_toValue _ rfl,
    size_encode_toValue _ rfl]
  rfl

namespace VersionedState

/-- The encoding of a state with an attested header is that of the plain state
with the attestation inserted behind the header and every offset raised. -/
theorem encode_value_eq (state : VersionedState TeeBlockHeader) :
    state.value.encode =
      insertAt (statePrefixLength + BlockHeader.encodedLength)
        state.base.latestBlockHeader.attestation
        (addToWords state.base.latestBlockHeader.attestation.size
          (state.mapHeader TeeBlockHeader.base).value.offsetPlaces
          (state.mapHeader TeeBlockHeader.base).value.encode) := by
  have hslot := state.base.latestBlockHeader.slotLength_eq
  have hencode := state.base.latestBlockHeader.encode_eq
  have hcount : (state.base.values.take 4).length = Schemas.fieldsBeforeHeader.length := rfl
  rw [← state.base.size_before_header, ← state.base.latestBlockHeader.base.size_encode]
  cases state with
  | deneb s =>
      exact encode_container_grow rfl rfl (Schemas.fields_denebState_eq _)
        (Schemas.fields_denebState_eq _) hcount rfl rfl hslot hencode (s.values.drop 5)
  | electra s =>
      exact encode_container_grow rfl rfl (Schemas.fields_electraState_eq _)
        (Schemas.fields_electraState_eq _) hcount rfl rfl hslot hencode
        (s.base.values.drop 5 ++ s.electra.values)

end VersionedState

theorem Schemas.allLackBitvectors_take_stateFields
    {header : Shape} (hheader : header.lacksBitvectors) :
    allLackBitvectors ((stateFields header).take 17) := by
  change (header.lacksBitvectors && _) = true
  rw [hheader]
  rfl

/-- The bits of the justified epochs are the only bit vector of a state. -/
theorem BeaconState.emptyBitvectorsAmong_values
    {H : Type} [Serializable H] (hheader : (Serializable.shape H).lacksBitvectors)
    {s : BeaconState H} (hbits : s.justificationBits.bits ≠ []) :
    emptyBitvectorsAmong s.values = 0 := by
  have hsplit : s.values =
      s.values.take 17 ++ toValue s.justificationBits :: s.values.drop 18 := rfl
  have hfields := hasFields_iff.mp s.hasFields
  have hbefore : emptyBitvectorsAmong (s.values.take 17) = 0 :=
    emptyBitvectorsAmong_of_allLackBitvectors (List.forall₂_take 17 hfields)
      (Schemas.allLackBitvectors_take_stateFields hheader)
  have hafter : emptyBitvectorsAmong (s.values.drop 18) = 0 :=
    emptyBitvectorsAmong_of_allLackBitvectors (List.forall₂_drop 18 hfields) rfl
  have hhere : (toValue s.justificationBits).emptyBitvectors = 0 := by
    simp [toValue, Value.emptyBitvectors, hbits]
  rw [hsplit, emptyBitvectorsAmong_append, emptyBitvectorsAmong, hbefore, hhere, hafter]

theorem ElectraPart.emptyBitvectorsAmong_values (e : ElectraPart) :
    emptyBitvectorsAmong e.values = 0 :=
  emptyBitvectorsAmong_of_allLackBitvectors (hasFields_iff.mp e.hasFields) rfl

theorem Schemas.lacksBitvectors_of_mem_headers :
    ∀ header ∈ headers, header.lacksBitvectors := by
  decide

theorem VersionedState.wordAt_encode_le
    {H : Type} [Serializable H] (hheader : Serializable.shape H ∈ Schemas.headers)
    {state : VersionedState H} (hbits : state.base.justificationBits.bits ≠ [])
    {place : Nat} (hplace : place ∈ state.value.offsetPlaces) :
    wordAt state.value.encode place ≤ state.value.encode.size := by
  have hlacks := Schemas.lacksBitvectors_of_mem_headers _ hheader
  cases state with
  | deneb s =>
      have hformed := Schemas.wellFormed_of_mem_all _ (Schemas.denebState_mem_all hheader)
      exact Ssz.wordAt_encode_le rfl (hasFields_iff.mp s.hasFields)
        (Schema.wellFormed_fields hformed)
        (s.emptyBitvectorsAmong_values hlacks hbits) hplace
  | electra s =>
      have hformed := Schemas.wellFormed_of_mem_all _ (Schemas.electraState_mem_all hheader)
      have hnone : emptyBitvectorsAmong (s.base.values ++ s.electra.values) = 0 := by
        rw [emptyBitvectorsAmong_append, s.base.emptyBitvectorsAmong_values hlacks hbits,
          s.electra.emptyBitvectorsAmong_values]
      exact Ssz.wordAt_encode_le rfl
        (hasFields_iff.mp (hasFields_append s.base.hasFields s.electra.hasFields))
        (Schema.wellFormed_fields hformed) hnone hplace

/-! ## Builds -/

theorem genesisHeader_base (config : Config) (parts : GenesisParts) :
    (genesisHeader (H := BlockHeader) config parts) =
      (genesisHeader (H := TeeBlockHeader) config parts).map TeeBlockHeader.base := by
  rw [genesisHeader_eq_map, genesisHeader_eq_map]
  cases ProposerTee.resolve config <;> rfl

theorem buildState_plain_eq (fork : StateFork) (inputs : GenesisInputs) :
    buildState (H := BlockHeader) fork inputs =
      (buildState (H := TeeBlockHeader) fork inputs).map
        (·.mapHeader TeeBlockHeader.base) := by
  unfold buildState
  cases genesisParts fork inputs with
  | error e => rfl
  | ok parts =>
      simp only [Except.bind]
      rw [genesisHeader_base]
      cases genesisHeader (H := TeeBlockHeader) inputs.config parts with
      | error e => rfl
      | ok header =>
          simp only [Except.map]
          rw [mapHeader_assemble]

/-- How many fields of a state are behind an offset. -/
def StateFork.offsetCount : StateFork → Nat
  | .deneb => 9
  | .electra => 12

theorem length_offsetPlaces_of_buildState
    {fork : StateFork} {inputs : GenesisInputs} {state : VersionedState BlockHeader}
    (hbuild : buildState fork inputs = .ok state) :
    state.value.offsetPlaces.length = fork.offsetCount := by
  obtain ⟨parts, header, _, _, rfl⟩ := buildState_eq_ok_iff.mp hbuild
  cases fork with
  | deneb => exact length_offsetPlaces_container rfl
  | electra => exact length_offsetPlaces_container rfl

theorem justificationBits_of_buildState
    {H : Type} [HeaderBuild H] {fork : StateFork} {inputs : GenesisInputs}
    {state : VersionedState H} (hbuild : buildState fork inputs = .ok state) :
    state.base.justificationBits = .unset justificationBitCount := by
  obtain ⟨parts, header, _, _, rfl⟩ := buildState_eq_ok_iff.mp hbuild
  rw [base_assemble]
  rfl

/-- A build with the attested header fails as the plain build does.  Where both
succeed, the states differ in the attestation alone, and so do their encodings:
the 8193 bytes of the attestation stand behind the header, and every offset of
the state, and nothing else, is greater by their number. -/
theorem tee_build_eq_plain_build
    (fork : StateFork) (config : Config) (spec : ChainSpec) (block : ExecutionBlock)
    (calls : List BuilderCall) :
    let inputs := (GenesisInputs.new config spec block).callAll calls
    buildState (H := BlockHeader) fork inputs =
        (buildState (H := TeeBlockHeader) fork inputs).map
          (·.mapHeader TeeBlockHeader.base) ∧
      ∀ state : VersionedState TeeBlockHeader,
        buildState fork inputs = .ok state → state.value.encode.size < 2 ^ 32 →
          let plain := (state.mapHeader TeeBlockHeader.base).value
          let header := state.base.latestBlockHeader
          plain.offsetPlaces.length = fork.offsetCount ∧
          (∀ place ∈ plain.offsetPlaces, wordAt plain.encode place + 8193 < 2 ^ 32) ∧
          state.value.encode =
            insertAt 176 (ByteArray.empty.push header.teeType ++ header.teeQuote.bytes)
              (addToWords 8193 plain.offsetPlaces plain.encode) := by
  intro inputs
  refine ⟨buildState_plain_eq fork inputs, fun state hbuild hfit => ?_⟩
  intro plain header
  have hplain : buildState fork inputs = .ok (state.mapHeader TeeBlockHeader.base) := by
    rw [buildState_plain_eq, hbuild]
    rfl
  have hbits : (state.mapHeader TeeBlockHeader.base).base.justificationBits.bits ≠ [] := by
    rw [justificationBits_of_buildState hplain]
    decide
  have hencode := state.encode_value_eq
  rw [header.size_attestation] at hencode
  refine ⟨length_offsetPlaces_of_buildState hplain, fun place hplace => ?_, hencode⟩
  have hword : wordAt plain.encode place ≤ plain.encode.size :=
    VersionedState.wordAt_encode_le List.mem_cons_self hbits hplace
  have hsize : state.value.encode.size = plain.encode.size + 8193 := by
    rw [hencode, size_insertAt, Value.size_addToWords_offsetPlaces, header.size_attestation]
  omega

end GenesisForge
