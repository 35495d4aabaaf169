import GenesisForge.Genesis.Attestation
import GenesisForge.Proofs.ByteStrings
import Mathlib.Data.List.Induction

/-!
# Runs of attestations

Headers are written to any number of times, from the configuration or not, and a
step may come without a header or with a configuration that is refused.  What a
run leaves behind is what its last effective step alone would have: nothing of an
earlier quote stays, and a step that fails writes nothing.

The slots of a header are either shown or not, and each of them may be missing.
What is written into one slot does not depend on the other one.
-/

namespace GenesisForge

/-! ## Slots of headers -/

/-- A header with slots and any other fields. -/
structure SlottedHeader (F : Type) where
  fields : F
  slots : AttestationSlots

instance (F : Type) : KeepsAttestation (SlottedHeader F) where
  writeTag tag h := { h with slots := KeepsAttestation.writeTag tag h.slots }
  writeQuote quote h := { h with slots := KeepsAttestation.writeQuote quote h.slots }
  writeTag_writeTag a b h := by
    simp only [KeepsAttestation.writeTag_writeTag]
  writeQuote_writeQuote a b h := by
    simp only [KeepsAttestation.writeQuote_writeQuote]
  writeTag_writeQuote tag quote h := by
    simp only [KeepsAttestation.writeTag_writeQuote]

/-- A header build whose elements are nothing but slots and other fields. -/
class ShowsSlots (H : Type) [KeepsAttestation H] where
  Fields : Type
  fields : H → Fields
  slots : H → AttestationSlots
  eq_of_shown {g h : H} : fields g = fields h → slots g = slots h → g = h
  fields_writeTag (tag : UInt8) (h : H) : fields (KeepsAttestation.writeTag tag h) = fields h
  fields_writeQuote (quote : ByteArray) (h : H) :
    fields (KeepsAttestation.writeQuote quote h) = fields h
  slots_writeTag (tag : UInt8) (h : H) :
    slots (KeepsAttestation.writeTag tag h) = KeepsAttestation.writeTag tag (slots h)
  slots_writeQuote (quote : ByteArray) (h : H) :
    slots (KeepsAttestation.writeQuote quote h) = KeepsAttestation.writeQuote quote (slots h)

instance (F : Type) : ShowsSlots (SlottedHeader F) where
  Fields := F
  fields h := h.fields
  slots h := h.slots
  eq_of_shown {g h} hfields hslots := by
    obtain ⟨fields, slots⟩ := g
    cases hfields
    cases hslots
    rfl
  fields_writeTag _ _ := rfl
  fields_writeQuote _ _ := rfl
  slots_writeTag _ _ := rfl
  slots_writeQuote _ _ := rfl

instance : ShowsSlots AttestationSlots where
  Fields := Unit
  fields _ := ()
  slots h := h
  eq_of_shown _ hslots := hslots
  fields_writeTag _ _ := rfl
  fields_writeQuote _ _ := rfl
  slots_writeTag _ _ := rfl
  slots_writeQuote _ _ := rfl

instance : ShowsSlots BlockHeader where
  Fields := BlockHeader
  fields h := h
  slots _ := ⟨false, none, none⟩
  eq_of_shown hfields _ := hfields
  fields_writeTag _ _ := rfl
  fields_writeQuote _ _ := rfl
  slots_writeTag _ _ := rfl
  slots_writeQuote _ _ := rfl

theorem TagKind.store_of_lt
    {kind : TagKind} {tag : UInt8} (htag : tag.toNat < 2 ^ (kind.bits - 1)) :
    kind.store tag = tag.toNat := by
  have hhalf : 2 ^ (kind.bits - 1) ≤ 2 ^ kind.bits :=
    Nat.pow_le_pow_right (by decide) (Nat.sub_le _ _)
  have hmod : tag.toNat % 2 ^ kind.bits = tag.toNat :=
    Nat.mod_eq_of_lt (Nat.lt_of_lt_of_le htag hhalf)
  unfold TagKind.store
  simp only [hmod]
  rw [if_neg]
  intro hnegative
  exact Nat.not_le.mpr htag hnegative.2

theorem TagKind.store_byte
    (tag : UInt8) : (⟨8, false⟩ : TagKind).store tag = tag.toNat := by
  have hmod : tag.toNat % 2 ^ 8 = tag.toNat := Nat.mod_eq_of_lt tag.toNat_lt
  unfold TagKind.store
  simp [hmod]

instance : ShowsSlots TeeBlockHeader where
  Fields := BlockHeader
  fields h := h.base
  slots h := ⟨true, some (⟨8, false⟩, h.teeType.toNat), some (.fixed h.teeQuote.bytes)⟩
  eq_of_shown {g h} hbase hslots := by
    obtain ⟨base, tag, quote⟩ := g
    cases hbase
    simp only [AttestationSlots.mk.injEq, Option.some.injEq, Prod.mk.injEq, Int.natCast_inj,
      UInt8.toNat_inj, QuoteSlot.fixed.injEq, true_and] at hslots
    obtain ⟨rfl, hquote⟩ := hslots
    rw [FixedBytes.ext hquote]
  fields_writeTag _ _ := rfl
  fields_writeQuote _ _ := rfl
  slots_writeTag tag h := by
    simp [KeepsAttestation.writeTag, TagKind.store_byte]
  slots_writeQuote quote h := by
    simp [KeepsAttestation.writeQuote, QuoteSlot.write, h.teeQuote.size_eq]

/-! ## What is written -/

theorem QuoteSlot.getElem?_fit
    {length i : Nat} (quote : ByteArray) (hi : i < length) :
    (fit length quote).data[i]? = some (quote.data[i]?.getD 0) := by
  have hsize : quote.size = quote.data.size := rfl
  have hcopied : (quote.data.extract 0 length).size = min length quote.data.size := by
    rw [Array.size_extract, Nat.sub_zero]
  rw [fit, Bytes.appendFill_eq, ByteArray.data_append, Bytes.data_fill, ByteArray.data_extract]
  by_cases hquote : i < quote.data.size
  · rw [Array.getElem?_append_left (by omega), Array.getElem?_extract, if_pos (by omega),
      Nat.zero_add, Array.getElem?_eq_getElem hquote]
    rfl
  · rw [Array.getElem?_append_right (by omega), Array.getElem?_replicate, if_pos (by omega),
      Array.getElem?_eq_none (by omega)]
    rfl

/-- The slots after a vendor and a quote were written, told slot by slot from what
they were before.  The tags of all vendors fit into the least of the types. -/
structure AttestationSlots.WrittenWith
    (before : AttestationSlots) (vendor : TeeVendor) (quote : ByteArray)
    (after : AttestationSlots) : Prop where
  isExposed : after.isExposed = before.isExposed
  hidden : before.isExposed = false → after = before
  noTag : before.tag = none → after.tag = none
  tag : ∀ kind old, before.isExposed → before.tag = some (kind, old) → 8 ≤ kind.bits →
    after.tag = some (kind, (vendor.tag.toNat : Int))
  noQuote : before.quote = none → after.quote = none
  fixed : ∀ old, before.isExposed → before.quote = some (.fixed old) →
    ∃ bytes, after.quote = some (.fixed bytes) ∧ bytes.size = old.size ∧
      ∀ i < old.size, bytes.data[i]? = some (quote.data[i]?.getD 0)
  growing : ∀ old, before.isExposed → before.quote = some (.growing old) →
    after.quote = some (.growing quote)

theorem TeeVendor.tag_lt
    (vendor : TeeVendor) {bits : Nat} (hbits : 8 ≤ bits) :
    vendor.tag.toNat < 2 ^ (bits - 1) := by
  have hleast : 2 ^ 7 ≤ 2 ^ (bits - 1) := Nat.pow_le_pow_right (by decide) (by omega)
  have htag : vendor.tag.toNat ≤ 2 := by cases vendor <;> decide
  omega

theorem AttestationSlots.writtenWith_attest
    (before : AttestationSlots) (vendor : TeeVendor) (quote : ByteArray) :
    before.WrittenWith vendor quote (attest vendor quote before) := by
  obtain ⟨isExposed, tag, kept⟩ := before
  cases isExposed with
  | false =>
      constructor
      all_goals simp [attest, KeepsAttestation.writeTag, KeepsAttestation.writeQuote]
  | true =>
      constructor
      case tag =>
        rintro kind old - htag hbits
        cases htag
        rw [← TagKind.store_of_lt (vendor.tag_lt hbits)]
        rfl
      case fixed =>
        rintro old - hquote
        cases hquote
        refine ⟨QuoteSlot.fit old.size quote, rfl, QuoteSlot.size_fit _ _, ?_⟩
        intro i hi
        exact QuoteSlot.getElem?_fit quote hi
      case growing =>
        rintro old - hquote
        cases hquote
        rfl
      all_goals simp +contextual [attest, KeepsAttestation.writeTag, KeepsAttestation.writeQuote]

/-! ## Steps -/

/-- A step that writes an attestation into a header.  The first two steps may come
without a header. -/
inductive AttestationStep where
  | write (isGiven : Bool) (vendor : TeeVendor) (quote : ByteArray)
  | writeDefault (isGiven : Bool)
  | configure (config : Config)

namespace AttestationStep

/-- Whether there is a header to write to, and something to write. -/
def isEffective : AttestationStep → Bool
  | write isGiven _ _ => isGiven
  | writeDefault isGiven => isGiven
  | configure config => (ProposerTee.resolve config).isOk

/-- The vendor and the quote that a step writes, if it is effective. -/
def written? : AttestationStep → Option (TeeVendor × ByteArray)
  | write isGiven vendor quote => if isGiven then some (vendor, quote) else none
  | writeDefault isGiven => if isGiven then some (.sev, defaultQuote.bytes) else none
  | configure config =>
    match ProposerTee.resolve config with
    | .ok tee => some (tee.vendor, tee.quote.bytes)
    | .error _ => none

theorem isEffective_eq
    (step : AttestationStep) : step.isEffective = step.written?.isSome := by
  cases step with
  | write isGiven vendor quote => cases isGiven <;> rfl
  | writeDefault isGiven => cases isGiven <;> rfl
  | configure config =>
      rw [isEffective, written?]
      cases ProposerTee.resolve config <;> rfl

theorem exists_written_of_isEffective
    {step : AttestationStep} (heffective : step.isEffective) :
    ∃ vendor quote, step.written? = some (vendor, quote) := by
  rw [isEffective_eq] at heffective
  obtain ⟨⟨vendor, quote⟩, hwritten⟩ := Option.isSome_iff_exists.mp heffective
  exact ⟨vendor, quote, hwritten⟩

section

variable {H : Type} [KeepsAttestation H]

def run (step : AttestationStep) (header : H) : H :=
  match step with
  | write isGiven vendor quote => if isGiven then attest vendor quote header else header
  | writeDefault isGiven => if isGiven then attestDefault header else header
  | configure config =>
    match attestFrom config header with
    | .ok (attested, _) => attested
    | .error _ => header

theorem run_eq
    (step : AttestationStep) (header : H) :
    step.run header =
      step.written?.elim header fun (vendor, quote) => attest vendor quote header := by
  cases step with
  | write isGiven vendor quote => cases isGiven <;> rfl
  | writeDefault isGiven => cases isGiven <;> rfl
  | configure config =>
      rw [run, written?, attestFrom]
      cases ProposerTee.resolve config <;> rfl

theorem run_eq_attest
    {step : AttestationStep} {vendor : TeeVendor} {quote : ByteArray}
    (hwritten : step.written? = some (vendor, quote)) (header : H) :
    step.run header = attest vendor quote header := by
  rw [run_eq, hwritten]
  rfl

theorem run_eq_self
    {step : AttestationStep} (hidle : ¬ step.isEffective) (header : H) :
    step.run header = header := by
  rw [isEffective_eq, Option.not_isSome_iff_eq_none] at hidle
  rw [run_eq, hidle]
  rfl

end

end AttestationStep

/-! ## Runs -/

open AttestationStep

section

variable {H : Type} [KeepsAttestation H]

theorem fields_attest
    [ShowsSlots H] (vendor : TeeVendor) (quote : ByteArray) (header : H) :
    ShowsSlots.fields (attest vendor quote header) = ShowsSlots.fields header := by
  unfold attest
  rw [ShowsSlots.fields_writeQuote, ShowsSlots.fields_writeTag]

theorem slots_attest
    [ShowsSlots H] (vendor : TeeVendor) (quote : ByteArray) (header : H) :
    ShowsSlots.slots (attest vendor quote header) =
      attest vendor quote (ShowsSlots.slots header) := by
  unfold attest
  rw [ShowsSlots.slots_writeQuote, ShowsSlots.slots_writeTag]

theorem attest_attest
    (first last : TeeVendor) (quote other : ByteArray) (header : H) :
    attest last other (attest first quote header) = attest last other header := by
  unfold attest
  rw [KeepsAttestation.writeTag_writeQuote, KeepsAttestation.writeTag_writeTag,
    KeepsAttestation.writeQuote_writeQuote]

def runAll (steps : List AttestationStep) (header : H) : H :=
  steps.foldl (fun header step => step.run header) header

/-- The last step of a run that is effective. -/
def lastEffective? (steps : List AttestationStep) : Option AttestationStep :=
  (steps.filter (·.isEffective)).getLast?

theorem runAll_concat
    (steps : List AttestationStep) (step : AttestationStep) (header : H) :
    runAll (steps ++ [step]) header = step.run (runAll steps header) := by
  unfold runAll
  rw [List.foldl_append]
  rfl

theorem lastEffective?_concat
    (steps : List AttestationStep) (step : AttestationStep) :
    lastEffective? (steps ++ [step]) =
      if step.isEffective then some step else lastEffective? steps := by
  unfold lastEffective?
  rw [List.filter_append]
  by_cases heffective : step.isEffective
  · simp [heffective]
  · simp [heffective]

theorem isEffective_of_lastEffective?_eq
    {steps : List AttestationStep} {step : AttestationStep}
    (hlast : lastEffective? steps = some step) : step.isEffective :=
  (List.mem_filter.mp (List.mem_of_getLast? hlast)).2

/-- An effective step leaves nothing of an earlier one. -/
theorem AttestationStep.run_run_of_isEffective
    {step other : AttestationStep} (hstep : step.isEffective) (header : H) :
    step.run (other.run header) = step.run header := by
  by_cases hother : other.isEffective
  · obtain ⟨vendor, quote, hwritten⟩ := exists_written_of_isEffective hstep
    obtain ⟨earlier, overwritten, hearlier⟩ := exists_written_of_isEffective hother
    rw [run_eq_attest hwritten, run_eq_attest hwritten, run_eq_attest hearlier, attest_attest]
  · rw [run_eq_self hother]

theorem run_runAll_of_isEffective
    {step : AttestationStep} (hstep : step.isEffective) (steps : List AttestationStep)
    (header : H) : step.run (runAll steps header) = step.run header := by
  induction steps using List.reverseRecOn with
  | nil => rfl
  | append_singleton steps other ih =>
      rw [runAll_concat, run_run_of_isEffective hstep, ih]

theorem runAll_eq_run_lastEffective
    (steps : List AttestationStep) (header : H) :
    runAll steps header = (lastEffective? steps).elim header (·.run header) := by
  induction steps using List.reverseRecOn with
  | nil => rfl
  | append_singleton steps step ih =>
      rw [runAll_concat, lastEffective?_concat]
      by_cases hstep : step.isEffective
      · rw [if_pos hstep]
        exact run_runAll_of_isEffective hstep steps header
      · rw [if_neg hstep, run_eq_self hstep, ih]

theorem fields_run
    [ShowsSlots H] (step : AttestationStep) (header : H) :
    ShowsSlots.fields (step.run header) = ShowsSlots.fields header := by
  rw [run_eq]
  cases step.written? with
  | none => rfl
  | some written => exact fields_attest _ _ _

theorem fields_runAll
    [ShowsSlots H] (steps : List AttestationStep) (header : H) :
    ShowsSlots.fields (runAll steps header) = ShowsSlots.fields header := by
  induction steps using List.reverseRecOn with
  | nil => rfl
  | append_singleton steps step ih =>
      rw [runAll_concat, fields_run, ih]

/-- A run leaves behind what its last effective step alone would have, in the slots
that a header shows and nowhere else. -/
theorem runAll_eq_last_step
    [ShowsSlots H] (steps : List AttestationStep) (header : H) :
    runAll steps header = (lastEffective? steps).elim header (·.run header) ∧
    ShowsSlots.fields (runAll steps header) = ShowsSlots.fields header ∧
    (∀ step, lastEffective? steps = some step →
      ∃ vendor quote, step.written? = some (vendor, quote) ∧
        (ShowsSlots.slots header).WrittenWith vendor quote
          (ShowsSlots.slots (runAll steps header))) ∧
    ∀ config e, ProposerTee.resolve config = .error e →
      attestFrom config (runAll steps header) = .error e ∧
        runAll (steps ++ [.configure config]) header = runAll steps header := by
  have hlast := runAll_eq_run_lastEffective steps header
  refine ⟨hlast, fields_runAll steps header, ?_, ?_⟩
  · intro step hstep
    obtain ⟨vendor, quote, hwritten⟩ :=
      exists_written_of_isEffective (isEffective_of_lastEffective?_eq hstep)
    refine ⟨vendor, quote, hwritten, ?_⟩
    rw [hlast, hstep, Option.elim_some, run_eq_attest hwritten, slots_attest]
    exact (ShowsSlots.slots header).writtenWith_attest vendor quote
  · intro config e hresolve
    constructor
    · rw [attestFrom, hresolve]
      rfl
    · have hidle : ¬ (configure config).isEffective := by
        rw [isEffective, hresolve]
        exact Bool.false_ne_true
      rw [runAll_concat, run_eq_self hidle]

end

/-- A header whose slots hold what is to be overwritten. -/
def filledHeader : SlottedHeader Nat :=
  ⟨7, ⟨true, some (⟨16, true⟩, 77), some (.fixed (Bytes.fill 0xff 4))⟩⟩

def unknownVendorConfig : Config := Config.empty.set ProposerTee.vendorKey (.number 9)

/-- A long quote, a short one and nothing behind them that is effective. -/
def shorteningRun : List AttestationStep := [
  .write true .cca (Bytes.fill 1 6), .configure unknownVendorConfig,
  .write true .tdx (Bytes.fill 9 2), .writeDefault false]

theorem runAll_shorteningRun :
    (∃ e, ProposerTee.resolve unknownVendorConfig = .error e ∧
      attestFrom unknownVendorConfig (runAll shorteningRun filledHeader) = .error e) ∧
    runAll (shorteningRun ++ [.configure unknownVendorConfig]) filledHeader =
      (AttestationStep.write true .tdx (Bytes.fill 9 2)).run filledHeader ∧
    (runAll shorteningRun filledHeader).fields = 7 ∧
    (runAll shorteningRun filledHeader).slots.tag = some (⟨16, true⟩, 1) ∧
    ∃ bytes, (runAll shorteningRun filledHeader).slots.quote = some (.fixed bytes) ∧
      bytes.size = 4 ∧ bytes.data[1]? = some 9 ∧ bytes.data[2]? = some 0 := by
  have hresolve : ProposerTee.resolve unknownVendorConfig =
      .error (.outOfRange ProposerTee.vendorKey 9 0 2) := rfl
  have hlast : lastEffective? shorteningRun = some (.write true .tdx (Bytes.fill 9 2)) := rfl
  obtain ⟨hrun, hfields, hslots, hfails⟩ := runAll_eq_last_step shorteningRun filledHeader
  obtain ⟨hrefused, hkept⟩ := hfails unknownVendorConfig _ hresolve
  obtain ⟨vendor, quote, hwritten, hslots⟩ := hslots _ hlast
  cases hwritten
  obtain ⟨bytes, hquote, hsize, hbytes⟩ := hslots.fixed _ rfl rfl
  refine ⟨⟨_, hresolve, hrefused⟩, ?_, hfields, hslots.tag _ _ rfl rfl (by decide), bytes,
    hquote, hsize, hbytes 1 (by decide), hbytes 2 (by decide)⟩
  rw [hkept, hrun, hlast]
  rfl

end GenesisForge
