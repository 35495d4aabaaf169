import GenesisForge.Proofs.ConsistentGenesis
import GenesisForge.Proofs.HeaderBuilds

/-!
# The first offset of a state

The check of an encoded state reads a word at a place that it computes from the
header and the two vectors of roots.  For a state whose vectors have the length
that the check was told, the place is that of the first offset, and the word there
is the length of the fixed part: no payload stands in front of the first one.

The bytes of an artifact do not depend on the check.
-/

namespace GenesisForge

open Ssz

namespace Ssz

/-- The bytes that the fields of a container take in front of its payloads. -/
def Value.fixedPartSize : Value → Nat
  | .container schema values => ((fieldParts schema.fields values).map Part.slotSize).sum
  | v => v.encode.size

/-- A container that is sized by its values announces the fixed part that it has,
unless some bit vector has no bits. -/
theorem slotLengths_eq_fixedPartSize
    {schema : Schema} {values : List Value}
    (hfields : List.Forall₂ (fun v (f : Field) => v.HasShape f.shape) values schema.fields)
    (hformed : ∀ f ∈ schema.fields, f.shape.wellFormed)
    (hbits : emptyBitvectorsAmong values = 0) :
    slotLengths values = (Value.container schema values).fixedPartSize := by
  rw [slotLengths_eq_size_fixedPart 0 hfields hformed hbits, ← fieldParts_eq, size_fixedPart]
  rfl

theorem fixedPartSize_le_size_encode (v : Value) : v.fixedPartSize ≤ v.encode.size := by
  cases v with
  | container schema values =>
      rw [Value.encode, layOut_eq, ByteArray.size_append, size_fixedPart]
      exact Nat.le_add_right _ _
  | _ => exact Nat.le_refl _

section

variable {schema : Schema} {front rest : List Field} {f : Field}
  {values before after : List Value} {v : Value}
  (hfields : schema.fields = front ++ f :: rest) (hf : ¬ f.shape.isFixed)
  (hvalues : values = before ++ v :: after) (hcount : before.length = front.length)

include hfields hf hvalues hcount

theorem fieldParts_append_variable :
    fieldParts schema.fields values =
      fieldParts front before ++ ⟨false, v.encode⟩ :: fieldParts rest after := by
  rw [Bool.not_eq_true] at hf
  rw [hfields, hvalues, fieldParts_eq, fieldParts_eq, fieldParts_eq,
    List.zipWith_append hcount.symm, List.zipWith_cons_cons, hf]

theorem first_offset_le_fixedPartSize :
    ((fieldParts front before).map Part.slotSize).sum + offsetWidth ≤
      (Value.container schema values).fixedPartSize := by
  rw [Value.fixedPartSize, fieldParts_append_variable hfields hf hvalues hcount, List.map_append,
    List.sum_append, List.map_cons, List.sum_cons]
  have hslot : (⟨false, v.encode⟩ : Part).slotSize = offsetWidth := rfl
  omega

/-- The first offset of a container points to the end of its fixed part. -/
theorem wordAt_first_offset
    {fixed : Bool} (hsizing : schema.sizing = .byValue fixed) (hfront : allFixed front)
    (hlengths : slotLengths values = (Value.container schema values).fixedPartSize)
    (hfit : (Value.container schema values).encode.size < 2 ^ 32) :
    wordAt (Value.container schema values).encode
        ((fieldParts front before).map Part.slotSize).sum =
      (Value.container schema values).fixedPartSize := by
  have hsize := fixedPartSize_le_size_encode (Value.container schema values)
  rw [encode_container_byValue hsizing, fieldParts_append_variable hfields hf hvalues hcount,
    wordAt_layOut, payloads_of_inPlace (fieldParts_inPlace hfront before), ByteArray.size_empty,
    Nat.add_zero, hlengths]
  exact Nat.mod_eq_of_lt (Nat.lt_of_le_of_lt hsize hfit)

end

theorem size_encode_toValue_le
    {α : Type} [Serializable α] (a : α) {most : Nat} (hstatic : (Serializable.shape α).isStatic)
    (hlength : (Serializable.shape α).staticLength ≤ most) : (toValue a).encode.size ≤ most := by
  rw [size_encode_toValue a hstatic]
  exact hlength

theorem size_encode_list
    {α : Type} [Serializable α] (items : List α) (hstatic : (Serializable.shape α).isStatic) :
    (toValue items).encode.size = (Serializable.shape α).staticLength * items.length := by
  change (Value.vector (Serializable.shape α) (items.map toValue)).encode.size = _
  rw [encode_vector, size_encodeItems, if_pos (Shape.isFixed_of_isStatic hstatic)]
  have heach : ∀ v ∈ items.map toValue, 0 + v.encode.size = (Serializable.shape α).staticLength := by
    intro v hv
    obtain ⟨a, _, rfl⟩ := List.mem_map.mp hv
    rw [Nat.zero_add, size_encode_toValue a hstatic]
  rw [sum_map_eq_mul heach, List.length_map]

theorem size_encode_bounded
    {α : Type} [Serializable α] (list : Bounded α) (hstatic : (Serializable.shape α).isStatic) :
    (toValue list).encode.size = (Serializable.shape α).staticLength * list.items.length := by
  rw [← size_encode_list list.items hstatic]
  change (Value.list _ _ _).encode.size = (Value.vector _ _).encode.size
  rw [encode_list, encode_vector]

theorem size_encode_container_le
    (schema : Schema) {values : List Value} {most : Nat}
    (heach : ∀ v ∈ values, v.encode.size ≤ most) :
    (Value.container schema values).encode.size ≤ (offsetWidth + most) * values.length := by
  rw [size_encode_container]
  generalize schema.fields = fields
  induction values generalizing fields with
  | nil => simp
  | cons v rest ih =>
      rw [List.forall_mem_cons] at heach
      cases fields with
      | nil => simp
      | cons f fields =>
          have hrest := ih heach.2 fields
          rw [List.zipWith_cons_cons, List.sum_cons, List.length_cons, Nat.mul_succ]
          split
          · omega
          · omega

end Ssz

/-! ## States -/

namespace Schemas

theorem static_of_mem_headers :
    ∀ header ∈ headers, header.isStatic ∧ header.wellFormed ∧ header.lacksBitvectors := by
  decide

theorem staticLength_of_mem_headers :
    ∀ header ∈ headers, header.staticLength = BlockHeader.encodedLength ∨
      header.staticLength = TeeBlockHeader.encodedLength := by
  decide

/-- The fields in front of the first offset of a state. -/
def fieldsBeforeRoots (header : Shape) : List Field :=
  (stateFields header).take 7

theorem fields_denebState_eq_roots
    (header : Shape) :
    (denebState header).fields =
      fieldsBeforeRoots header ++
        plain "historical_roots" (.list .root) :: (stateFields header).drop 8 :=
  rfl

theorem fields_electraState_eq_roots
    (header : Shape) :
    (electraState header).fields =
      fieldsBeforeRoots header ++
        plain "historical_roots" (.list .root) ::
          ((stateFields header).drop 8 ++ electraFields) :=
  rfl

theorem allFixed_fieldsBeforeRoots
    {header : Shape} (hfixed : header.isFixed) : allFixed (fieldsBeforeRoots header) := by
  change (header.isFixed && true) = true
  rw [hfixed]
  rfl

end Schemas

section

variable {H : Type} [Serializable H]

theorem byteLength_eq_staticLength
    (hheader : Serializable.shape H ∈ Schemas.headers) (header : H) :
    byteLength header = (Serializable.shape H).staticLength := by
  obtain ⟨hstatic, hformed, -⟩ := Schemas.static_of_mem_headers _ hheader
  exact (Serializable.hasShape header).byteLength_eq_staticLength
    (Shape.tellsSizes_of_wellFormed hformed) hstatic

/-- The place that the check computes is that of the first offset. -/
theorem BeaconState.size_before_roots
    (hheader : Serializable.shape H ∈ Schemas.headers) (s : BeaconState H) {slots : Nat}
    (hblocks : s.blockRoots.length = slots) (hstates : s.stateRoots.length = slots) :
    ((fieldParts (Schemas.fieldsBeforeRoots (Serializable.shape H)) (s.values.take 7)).map
      Part.slotSize).sum = firstOffsetPosition (byteLength s.latestBlockHeader) slots := by
  obtain ⟨hstatic, -, -⟩ := Schemas.static_of_mem_headers _ hheader
  have hparts :
      fieldParts (Schemas.fieldsBeforeRoots (Serializable.shape H)) (s.values.take 7) =
        fieldParts Schemas.fieldsBeforeHeader (s.values.take 4) ++
          [⟨(Serializable.shape H).isFixed, (toValue s.latestBlockHeader).encode⟩,
            ⟨true, (toValue s.blockRoots).encode⟩, ⟨true, (toValue s.stateRoots).encode⟩] := rfl
  have hroots (roots : List Root) : (toValue roots).encode.size = 32 * roots.length :=
    size_encode_list roots rfl
  have hlength := byteLength_eq_staticLength hheader s.latestBlockHeader
  rw [hparts, List.map_append, List.sum_append, s.size_before_header,
    Shape.isFixed_of_isStatic hstatic]
  simp only [List.map_cons, List.map_nil, List.sum_cons, List.sum_nil, Part.slotSize, if_true,
    hroots, hblocks, hstates, size_encode_toValue _ hstatic, ← hlength]
  rw [firstOffsetPosition]
  omega

theorem checkFirstOffset_eq_consistent
    {bytes : ByteArray} {headerLength slots : Nat}
    (hroom : firstOffsetPosition headerLength slots + offsetWidth ≤ bytes.size)
    (hbehind : firstOffsetPosition headerLength slots <
      wordAt bytes (firstOffsetPosition headerLength slots)) :
    checkFirstOffset bytes headerLength slots =
      .consistent (wordAt bytes (firstOffsetPosition headerLength slots)) := by
  unfold checkFirstOffset
  rw [if_pos hroom]
  exact if_neg (Nat.not_le.mpr hbehind)

/-- The check finds the length of the fixed part of a container whose first offset
stands where it looks. -/
theorem checkFirstOffset_container
    {schema : Schema} {front rest : List Field} {f : Field} {values before after : List Value}
    {v : Value} {fixed : Bool} {headerLength slots : Nat}
    (hfields : schema.fields = front ++ f :: rest) (hf : ¬ f.shape.isFixed)
    (hvalues : values = before ++ v :: after) (hcount : before.length = front.length)
    (hsizing : schema.sizing = .byValue fixed) (hfront : allFixed front)
    (hlengths : slotLengths values = (Value.container schema values).fixedPartSize)
    (hplace : ((fieldParts front before).map Part.slotSize).sum =
      firstOffsetPosition headerLength slots)
    (hfit : (Value.container schema values).encode.size < 2 ^ 32) :
    checkFirstOffset (Value.container schema values).encode headerLength slots =
      .consistent (Value.container schema values).fixedPartSize := by
  have hword := wordAt_first_offset hfields hf hvalues hcount hsizing hfront hlengths hfit
  have hbehind := first_offset_le_fixedPartSize hfields hf hvalues hcount
  have hsize := fixedPartSize_le_size_encode (Value.container schema values)
  rw [hplace] at hword hbehind
  rw [← hword] at hbehind hsize ⊢
  apply checkFirstOffset_eq_consistent
  · omega
  · have hwidth : 0 < offsetWidth := by decide
    omega

theorem VersionedState.checkFirstOffset_eq
    (hheader : Serializable.shape H ∈ Schemas.headers) {state : VersionedState H} {slots : Nat}
    (hbits : state.base.justificationBits.bits ≠ [])
    (hblocks : state.base.blockRoots.length = slots)
    (hstates : state.base.stateRoots.length = slots) (hfit : state.value.encode.size < 2 ^ 32) :
    checkFirstOffset state.value.encode (byteLength state.base.latestBlockHeader) slots =
      .consistent state.value.fixedPartSize := by
  obtain ⟨hstatic, -, hlacks⟩ := Schemas.static_of_mem_headers _ hheader
  have hfront := Schemas.allFixed_fieldsBeforeRoots (Shape.isFixed_of_isStatic hstatic)
  have hplace := state.base.size_before_roots hheader hblocks hstates
  cases state with
  | deneb s =>
      have hformed := Schemas.wellFormed_of_mem_all _ (Schemas.denebState_mem_all hheader)
      have hlengths := slotLengths_eq_fixedPartSize (hasFields_iff.mp s.hasFields)
        (Schema.wellFormed_fields hformed) (s.emptyBitvectorsAmong_values hlacks hbits)
      have hvalues : s.values =
          s.values.take 7 ++ toValue s.historicalRoots :: s.values.drop 8 := rfl
      exact checkFirstOffset_container (Schemas.fields_denebState_eq_roots _) Bool.false_ne_true
        hvalues rfl rfl hfront hlengths hplace hfit
  | electra s =>
      have hformed := Schemas.wellFormed_of_mem_all _ (Schemas.electraState_mem_all hheader)
      have hnone : emptyBitvectorsAmong (s.base.values ++ s.electra.values) = 0 := by
        rw [emptyBitvectorsAmong_append, s.base.emptyBitvectorsAmong_values hlacks hbits,
          s.electra.emptyBitvectorsAmong_values]
      have hlengths := slotLengths_eq_fixedPartSize
        (hasFields_iff.mp (hasFields_append s.base.hasFields s.electra.hasFields))
        (Schema.wellFormed_fields hformed) hnone
      have hvalues : s.base.values ++ s.electra.values =
          s.base.values.take 7 ++ toValue s.base.historicalRoots ::
            (s.base.values.drop 8 ++ s.electra.values) := rfl
      exact checkFirstOffset_container (Schemas.fields_electraState_eq_roots _)
        Bool.false_ne_true hvalues rfl rfl hfront hlengths hplace hfit

end

/-! ## Sizes of states -/

theorem SyncCommittee.size_encode_le
    (committee : SyncCommittee) {count : Nat} (hcount : committee.pubkeys.length ≤ count) :
    (toValue committee).encode.size ≤ (52 + 48 * count) * 2 := by
  have heach : ∀ v ∈ [toValue committee.pubkeys, toValue committee.aggregatePubkey],
      v.encode.size ≤ 48 + 48 * count := by
    simp only [List.forall_mem_cons, size_encode_list committee.pubkeys rfl,
      size_encode_toValue committee.aggregatePubkey rfl]
    have hwidth : (Serializable.shape PublicKey).staticLength = 48 := rfl
    rw [hwidth]
    refine ⟨by omega, by omega, by simp⟩
  refine Nat.le_trans (size_encode_container_le Schemas.syncCommittee heach) ?_
  simp only [offsetWidth, List.length_cons, List.length_nil]
  omega

theorem ExecutionPayloadHeader.size_encode_le
    (payload : ExecutionPayloadHeader) (hextra : payload.extraData.data.size ≤ 32) :
    (toValue payload).encode.size ≤ (offsetWidth + 256) * 17 := by
  have hbytes : (toValue payload.extraData).encode.size ≤ 256 := by
    change payload.extraData.data.size ≤ 256
    omega
  refine size_encode_container_le Schemas.executionPayloadHeader ?_
  simp (disch := decide) only [List.forall_mem_cons, size_encode_toValue_le, hbytes, true_and]
  simp

/-- A Deneb state is as long as its longest lists allow. -/
theorem size_encode_baseState_le
    {H : Type} [HeaderBuild H] (hheader : Serializable.shape H ∈ Schemas.headers)
    {spec : ChainSpec} {parts : GenesisParts} {most : Nat} (header : H) (hleast : 10000 ≤ most)
    (hroots : 32 * spec.size .slotsPerHistoricalRoot ≤ most)
    (hmixes : 32 * spec.size .epochsPerHistoricalVector ≤ most)
    (hslashings : 8 * spec.size .epochsPerSlashingsVector ≤ most)
    (hvalidators : 121 * parts.validators.items.length ≤ most)
    (hbalances : parts.balances.GoesWith parts.validators)
    (hparticipation : parts.participation.GoesWith parts.validators)
    (hscores : parts.inactivityScores.GoesWith parts.validators)
    (hcommittee : (52 + 48 * parts.syncCommittee.pubkeys.length) * 2 ≤ most)
    (hextra : parts.payloadHeader.extraData.data.size ≤ 32) :
    (toValue (baseState spec parts header)).encode.size ≤ (offsetWidth + most) * 28 := by
  have hstatic {α : Type} [Serializable α] (a : α) (hstatic : (Serializable.shape α).isStatic)
      (hlength : (Serializable.shape α).staticLength ≤ 10000) :
      (toValue a).encode.size ≤ most :=
    size_encode_toValue_le a hstatic (Nat.le_trans hlength hleast)
  have hheaderSize : (toValue header).encode.size ≤ most := by
    obtain ⟨hheaderStatic, -, -⟩ := Schemas.static_of_mem_headers _ hheader
    refine hstatic header hheaderStatic ?_
    rcases Schemas.staticLength_of_mem_headers _ hheader with hlength | hlength
    · rw [hlength]
      decide
    · rw [hlength]
      decide
  have hempty {α : Type} [Serializable α] (limit : Nat) (hstatic : (Serializable.shape α).isStatic) :
      (toValue (Bounded.empty limit : Bounded α)).encode.size ≤ most := by
    rw [size_encode_bounded _ hstatic]
    exact Nat.zero_le most
  have hlist {α : Type} [Serializable α] (count : Nat) (a : α)
      (hstatic : (Serializable.shape α).isStatic)
      (hlength : (Serializable.shape α).staticLength * count ≤ most) :
      (toValue (List.replicate count a)).encode.size ≤ most := by
    rw [size_encode_list _ hstatic, List.length_replicate]
    exact hlength
  have hentries {α : Type} [Serializable α] (list : Bounded α)
      (hgoes : list.items.length = parts.validators.items.length)
      (hstatic : (Serializable.shape α).isStatic)
      (hwidth : (Serializable.shape α).staticLength ≤ 121) :
      (toValue list).encode.size ≤ most := by
    rw [size_encode_bounded _ hstatic, hgoes]
    exact Nat.le_trans (Nat.mul_le_mul_right _ hwidth) hvalidators
  have hkeys := parts.syncCommittee.size_encode_le (Nat.le_refl _)
  have hpayload := parts.payloadHeader.size_encode_le hextra
  refine size_encode_container_le (Schemas.denebState (Serializable.shape H)) ?_
  simp only [BeaconState.values, baseState, randaoMixes, List.forall_mem_cons]
  refine ⟨hstatic _ rfl (by decide), hstatic _ rfl (by decide), hstatic _ rfl (by decide),
    hstatic _ rfl (by decide), hheaderSize, hlist _ _ rfl hroots, hlist _ _ rfl hroots,
    hempty _ rfl, hstatic _ rfl (by decide), hempty _ rfl, hstatic _ rfl (by decide),
    hentries _ rfl rfl (by decide), hentries _ hbalances.1 rfl (by decide), hlist _ _ rfl hmixes,
    hlist _ _ rfl hslashings, hentries _ hparticipation.1 rfl (by decide),
    hentries _ hparticipation.1 rfl (by decide), ?_, hstatic _ rfl (by decide),
    hstatic _ rfl (by decide), hstatic _ rfl (by decide), hentries _ hscores.1 rfl (by decide),
    hkeys.trans hcommittee, hkeys.trans hcommittee, hpayload.trans ?_, hstatic _ rfl (by decide),
    hstatic _ rfl (by decide), hempty _ rfl, by simp⟩
  · change (Bits.pack (Bitvector.unset justificationBitCount).bits).size ≤ most
    rw [size_pack]
    exact Nat.le_trans (by decide) hleast
  · exact Nat.le_trans (by decide) hleast

theorem size_extraData_of_payloadHeader
    {spec : ChainSpec} {block : ExecutionBlock} {payload : ExecutionPayloadHeader}
    (hpayload : payloadHeader spec block = .ok payload) :
    payload.extraData.data.size ≤ maxExtraDataLength := by
  rw [← (fields_of_payloadHeader hpayload).2]
  exact payload.extraData.size_le

theorem size_encode_staged_lt
    {H : Type} [HeaderBuild H] (hheader : Serializable.shape H ∈ Schemas.headers)
    {state : VersionedState H}
    (hbuild : buildState .deneb
      ((GenesisInputs.new .empty .mainnet quietBlock).callAll stagedCalls) = .ok state) :
    state.value.encode.size < 2 ^ 32 := by
  obtain ⟨parts, header, hmade, -, rfl⟩ := buildState_eq_ok_iff.mp hbuild
  have hparts := computedFrom_of_genesisParts hmade
  have hentries : parts.validators.items.length = 2 := by
    rw [(items_of_registry hparts.registry).1, registryEntries, List.length_map]
    rfl
  have hkeys : parts.syncCommittee.pubkeys.length = 512 :=
    (length_and_mem_of_genesisSyncCommittee hparts.committee).1
  have hsize : (toValue (baseState .mainnet parts header)).encode.size ≤
      (offsetWidth + 2 ^ 22) * 28 := by
    refine size_encode_baseState_le hheader header (by decide) (by decide) (by decide) (by decide)
      ?_ hparts.goesWith_balances (goesWith_of_zeros hparts.participation)
      (goesWith_of_zeros hparts.inactivity) ?_ (size_extraData_of_payloadHeader hparts.payload)
    · rw [hentries]
      decide
    · rw [hkeys]
      decide
  exact Nat.lt_of_le_of_lt hsize (by decide)

/-! ## What is told of a state -/

/-- Notices none of which is a warning. -/
def OnlyFacts (notices : List Notice) : Prop :=
  ∀ notice ∈ notices, notice.level = .info

theorem onlyFacts_consistent
    (offset headerLength slots : Nat) :
    OnlyFacts ((OffsetCheck.consistent offset).notices headerLength slots) := by
  unfold OnlyFacts OffsetCheck.notices
  simp only [List.forall_mem_cons]
  exact ⟨rfl, rfl, by simp⟩

theorem onlyFacts_artifactNotices
    {H : Type} [Serializable H] {state : VersionedState H} {slots offset : Nat} {bytes : ByteArray}
    (hcheck : checkFirstOffset bytes (byteLength state.base.latestBlockHeader) slots =
      .consistent offset) :
    OnlyFacts (artifactNotices state slots bytes .ssz) := by
  unfold OnlyFacts artifactNotices
  simp only [hcheck]
  rw [List.forall_mem_append, List.forall_mem_cons]
  refine ⟨⟨rfl, onlyFacts_consistent _ _ _⟩, ?_⟩
  rw [List.forall_mem_singleton]
  rfl

section

variable {H : Type} [HeaderBuild H]

theorem onlyFacts_stateNotices
    (hheader : Serializable.shape H ∈ Schemas.headers) (state : VersionedState H) :
    OnlyFacts (stateNotices state) := by
  have hexpected : ¬ (byteLength state.base.latestBlockHeader ≠ TeeBlockHeader.encodedLength ∧
      byteLength state.base.latestBlockHeader ≠ BlockHeader.encodedLength) := by
    rintro ⟨htee, hplain⟩
    rw [byteLength_eq_staticLength hheader] at htee hplain
    rcases Schemas.staticLength_of_mem_headers _ hheader with hlength | hlength
    · exact hplain hlength
    · exact htee hlength
  unfold OnlyFacts stateNotices headerNotices
  simp only [if_neg hexpected, List.forall_mem_append, List.forall_mem_cons]
  exact ⟨⟨rfl, by simp⟩, rfl, rfl, rfl, by simp⟩

theorem notices_reportBuild
    {fork : StateFork} {inputs : GenesisInputs} {state : VersionedState H}
    (hbuild : buildState fork inputs = .ok state) :
    (reportBuild (H := H) fork inputs).notices =
      ProposerTee.notices inputs.config ++ stateNotices state := by
  obtain ⟨parts, header, hparts, hmade, rfl⟩ := buildState_eq_ok_iff.mp hbuild
  unfold reportBuild
  simp only [hparts, hmade]

theorem fork_of_buildState
    {fork : StateFork} {inputs : GenesisInputs} {state : VersionedState H}
    (hbuild : buildState fork inputs = .ok state) : state.fork = fork.toForkName := by
  obtain ⟨parts, header, -, -, rfl⟩ := buildState_eq_ok_iff.mp hbuild
  exact fork_assemble _ _ _ _

theorem lengths_of_buildState
    {fork : StateFork} {inputs : GenesisInputs} {state : VersionedState H}
    (hbuild : buildState fork inputs = .ok state) :
    state.base.blockRoots.length = inputs.spec.size .slotsPerHistoricalRoot ∧
      state.base.stateRoots.length = inputs.spec.size .slotsPerHistoricalRoot := by
  obtain ⟨parts, header, -, -, rfl⟩ := buildState_eq_ok_iff.mp hbuild
  rw [base_assemble]
  exact ⟨List.length_replicate, List.length_replicate⟩

theorem reportArtifact_own
    {fork : StateFork} {state : VersionedState H} (hfork : state.fork = fork.toForkName)
    (slots : Nat) :
    reportArtifact fork slots state .ssz =
      ⟨.ok state.value.encode, artifactNotices state slots state.value.encode .ssz⟩ :=
  if_pos hfork

theorem reportArtifact_other
    {fork : StateFork} {state : VersionedState H} (hfork : state.fork ≠ fork.toForkName)
    (slots : Nat) (form : ContentType) :
    reportArtifact fork slots state form = ⟨.error (.unsupportedVersion state.fork), []⟩ :=
  if_neg hfork

/-- The check of the first offset finds every state that was built to be laid out as
it expects, and no warning is given.  The bytes of an artifact are the encoding of
the state, whatever the check that runs behind the encoding answers. -/
theorem checkFirstOffset_of_buildState
    (hheader : Serializable.shape H ∈ Schemas.headers) (fork : StateFork)
    (inputs : GenesisInputs) :
    (∀ state : VersionedState H, buildState fork inputs = .ok state →
      state.value.encode.size < 2 ^ 32 →
        let slots := inputs.spec.size .slotsPerHistoricalRoot
        serialize fork state .ssz = .ok state.value.encode ∧
        checkFirstOffset state.value.encode (byteLength state.base.latestBlockHeader) slots =
          .consistent state.value.fixedPartSize ∧
        (reportBuild (H := H) fork inputs).notices =
          ProposerTee.notices inputs.config ++ stateNotices state ∧
        OnlyFacts (stateNotices state) ∧
        OnlyFacts (reportArtifact fork slots state .ssz).notices ∧
        OnlyFacts (artifactNotices state slots state.value.encode .ssz)) ∧
    (∀ state : VersionedState H, state.fork = fork.toForkName →
      serialize fork state .ssz = .ok state.value.encode ∧
      ∀ slots, reportArtifact fork slots state .ssz =
        ⟨.ok state.value.encode, artifactNotices state slots state.value.encode .ssz⟩) ∧
    ∀ state : VersionedState H, state.fork ≠ fork.toForkName →
      ∀ form, serialize fork state form = .error (.unsupportedVersion state.fork) ∧
        ∀ slots, reportArtifact fork slots state form =
          ⟨.error (.unsupportedVersion state.fork), []⟩ := by
  have hown : ∀ state : VersionedState H, state.fork = fork.toForkName →
      serialize fork state .ssz = .ok state.value.encode := by
    intro state hfork
    exact if_pos hfork
  refine ⟨?_, fun state hfork => ⟨hown state hfork, reportArtifact_own hfork⟩, ?_⟩
  · intro state hbuild hfit slots
    have hfork := fork_of_buildState hbuild
    obtain ⟨hblocks, hstates⟩ := lengths_of_buildState hbuild
    have hbits : state.base.justificationBits.bits ≠ [] := by
      rw [justificationBits_of_buildState hbuild]
      decide
    have hcheck := state.checkFirstOffset_eq hheader hbits hblocks hstates hfit
    have hfacts := onlyFacts_artifactNotices hcheck
    refine ⟨hown state hfork, hcheck, notices_reportBuild hbuild,
      onlyFacts_stateNotices hheader state, ?_, hfacts⟩
    rw [reportArtifact_own hfork]
    exact hfacts
  · intro state hfork form
    exact ⟨if_neg hfork, fun slots => reportArtifact_other hfork slots form⟩

end

theorem checkFirstOffset_staged :
    Serializable.shape TeeBlockHeader ∈ Schemas.headers ∧
      ∃ state : VersionedState TeeBlockHeader,
        buildState .deneb ((GenesisInputs.new .empty .mainnet quietBlock).callAll stagedCalls) =
          .ok state ∧
        state.value.encode.size < 2 ^ 32 ∧
        serialize .deneb state .ssz = .ok state.value.encode ∧
        checkFirstOffset state.value.encode 8305 8192 = .consistent state.value.fixedPartSize ∧
        OnlyFacts (artifactNotices state 8192 state.value.encode .ssz) ∧
        (reportArtifact .deneb 0 state .ssz).outcome = .ok state.value.encode ∧
        serialize .electra state .json = .error (.unsupportedVersion .deneb) := by
  have hheader : Serializable.shape TeeBlockHeader ∈ Schemas.headers :=
    List.mem_cons_of_mem _ List.mem_cons_self
  obtain ⟨state, hbuild⟩ :=
    exists_buildState_staged (H := TeeBlockHeader) .empty quietBlock (by decide)
  have hfit := size_encode_staged_lt hheader hbuild
  have hlength := byteLength_eq_staticLength hheader state.base.latestBlockHeader
  have hfork : state.fork = .deneb := fork_of_buildState hbuild
  obtain ⟨hbuilt, hown, -⟩ := checkFirstOffset_of_buildState hheader .deneb
    ((GenesisInputs.new .empty .mainnet quietBlock).callAll stagedCalls)
  obtain ⟨-, -, hother⟩ := checkFirstOffset_of_buildState hheader .electra
    ((GenesisInputs.new .empty .mainnet quietBlock).callAll stagedCalls)
  obtain ⟨hbytes, hcheck, -, -, -, hfacts⟩ := hbuilt state hbuild hfit
  have hreport := (hown state hfork).2 0
  rw [hlength] at hcheck
  refine ⟨hheader, state, hbuild, hfit, hbytes, hcheck, hfacts, by rw [hreport], ?_⟩
  rw [(hother state (by rw [hfork]; decide) .json).1, hfork]

end GenesisForge
