import GenesisForge.Proofs.AttestationIsolation
import GenesisForge.Proofs.ConfigValues

/-!
# Sources of the proposer's vendor

The vendor comes from the first of three sources that applies: a name, the tag for the
proposer, the tag for all validators.  A name that is no vendor's is passed over.  A tag
is never passed over: the tag for all validators is checked even where the proposer has
its own, and it is checked first, so that its fault is the one that is told.
-/

namespace GenesisForge

theorem TeeVendor.ofTag?_eq_some_iff {tag : UInt64} {vendor : TeeVendor} :
    ofTag? tag = some vendor ↔ tag = vendor.tag.toUInt64 := by
  constructor
  · intro hfound
    have htag := List.find?_some hfound
    exact (eq_of_beq htag).symm
  · rintro rfl
    exact ofTag?_tag vendor

theorem TeeVendor.ofTag?_eq_none_iff {tag : UInt64} : ofTag? tag = none ↔ 2 < tag := by
  have hsev : sev.tag.toUInt64.toNat = 0 := rfl
  have htdx : tdx.tag.toUInt64.toNat = 1 := rfl
  have hcca : cca.tag.toUInt64.toNat = 2 := rfl
  rw [ofTag?, List.find?_eq_none, all, List.forall_mem_cons, List.forall_mem_cons,
    List.forall_mem_singleton, UInt64.lt_iff_toNat_lt]
  simp only [beq_iff_eq, ← UInt64.toNat_inj, hsev, htdx, hcca, UInt64.reduceToNat]
  omega

theorem TeeVendor.ofName?_eq_some_iff {name : String} {vendor : TeeVendor} :
    ofName? name = some vendor ↔ Text.lowerAscii (Text.trim name) = vendor.name := by
  constructor
  · intro hfound
    have hname := List.find?_some hfound
    exact (eq_of_beq hname).symm
  · intro hname
    rw [ofName?, hname]
    cases vendor <;> decide

theorem getElem?_defaultQuote {i : Nat} (hi : i < Schemas.quoteLength) :
    defaultQuote.bytes.data[i]? = quoteMarker[i % 16]? := by
  have hmarker : quoteMarker.size = 16 := rfl
  have hmod : i % 16 < quoteMarker.size := Nat.mod_lt i (by decide)
  rw [defaultQuote, FixedBytes.ofFn, Array.getElem?_ofFn, dif_pos hi, hmarker,
    Array.getD_eq_getD_getElem?, Array.getElem?_eq_getElem hmod, Option.getD_some]

namespace ProposerTee

/-- The name that a configuration gives is that of a vendor, in whatever case and with
blanks around it. -/
def Names (config : Config) (vendor : TeeVendor) : Prop :=
  ∃ value, config.get? nameKey = some value ∧
    Text.lowerAscii (Text.trim value.show) = vendor.name

/-- The value of a key, if it has one, denotes a tag of a vendor. -/
def AdmitsTag (config : Config) (key : String) : Prop :=
  ∀ value, config.get? key = some value →
    ∃ tag ≤ 2, value.Denotes Numeral.SpellsSigned tag

/-- The tag that a configuration gives to the proposer: its own, or else that for all
validators, or else zero. -/
def GivesTag (config : Config) (tag : UInt64) : Prop :=
  match (config.get? proposerKey).or (config.get? vendorKey) with
  | some value => value.Denotes Numeral.SpellsSigned tag
  | none => tag = 0

/-- How the value of a key is refused: as a word out of range, or as no word at all. -/
inductive Refuses (key : String) (value : ConfigValue) : GenesisError → Prop where
  | outOfRange {tag : UInt64} (hdenotes : value.Denotes Numeral.SpellsSigned tag)
      (hbig : 2 < tag) : Refuses key value (.outOfRange key tag 0 2)
  | noWord (hnone : ∀ tag, ¬ value.Denotes Numeral.SpellsSigned tag) :
      Refuses key value (.config (.invalidValue key .unsignedInteger value.show))

theorem named?_eq_some_iff {config : Config} {vendor : TeeVendor} :
    named? config = some vendor ↔ Names config vendor := by
  unfold named? Config.text? Names
  cases config.get? nameKey with
  | none => simp
  | some value => simp [TeeVendor.ofName?_eq_some_iff]

/-! ## Reading one tag -/

theorem vendorOr_of_wordOr
    {config : Config} {key : String} {default : TeeVendor} {tag : UInt64}
    (hread : config.wordOr key default.tag.toUInt64 = .ok tag) :
    vendorOr config key default =
      match TeeVendor.ofTag? tag with
      | some vendor => .ok vendor
      | none => .error (.outOfRange key tag 0 2) := by
  rw [vendorOr, hread]
  rfl

theorem gives_of_vendorOr
    {config : Config} {key : String} {default vendor : TeeVendor}
    (hread : vendorOr config key default = .ok vendor) :
    config.Gives (ConfigValue.Denotes Numeral.SpellsSigned) key default.tag.toUInt64
      vendor.tag.toUInt64 := by
  rw [← Config.wordOr_eq_ok_iff]
  cases hword : config.wordOr key default.tag.toUInt64 with
  | error e =>
      rw [vendorOr, hword] at hread
      cases hread
  | ok tag =>
      rw [vendorOr_of_wordOr hword] at hread
      cases htag : TeeVendor.ofTag? tag with
      | none =>
          rw [htag] at hread
          cases hread
      | some read =>
          rw [htag] at hread
          obtain rfl : read = vendor := Except.ok.inj hread
          rw [TeeVendor.ofTag?_eq_some_iff.mp htag]

theorem exists_vendorOr_or_refuses (config : Config) (key : String) (default : TeeVendor) :
    (∃ vendor, vendorOr config key default = .ok vendor) ∨
      ∃ value e, config.get? key = some value ∧ Refuses key value e ∧
        vendorOr config key default = .error e := by
  cases hword : config.wordOr key default.tag.toUInt64 with
  | error e =>
      obtain ⟨value, hvalue, rfl⟩ := Config.eq_invalidValue_of_wordOr hword
      have hread : vendorOr config key default =
          .error (.config (.invalidValue key .unsignedInteger value.show)) := by
        rw [vendorOr, hword]
        rfl
      refine .inr ⟨value, _, hvalue, .noWord ?_, hread⟩
      intro tag hdenotes
      have hgives : config.Gives (ConfigValue.Denotes Numeral.SpellsSigned) key
          default.tag.toUInt64 tag := by
        rw [Config.Gives, hvalue]
        exact hdenotes
      rw [Config.wordOr_eq_ok_iff.mpr hgives] at hword
      cases hword
  | ok tag =>
      rw [vendorOr_of_wordOr hword]
      cases htag : TeeVendor.ofTag? tag with
      | some vendor => exact .inl ⟨vendor, rfl⟩
      | none =>
          have hgives := Config.wordOr_eq_ok_iff.mp hword
          rw [Config.Gives] at hgives
          cases hvalue : config.get? key with
          | none =>
              rw [hvalue] at hgives
              rw [hgives, TeeVendor.ofTag?_tag] at htag
              cases htag
          | some value =>
              rw [hvalue] at hgives
              have hbig := TeeVendor.ofTag?_eq_none_iff.mp htag
              exact .inr ⟨value, _, rfl, .outOfRange hgives hbig, rfl⟩

theorem Refuses.not_admitsTag
    {config : Config} {key : String} {value : ConfigValue} {e : GenesisError}
    (hrefuses : Refuses key value e) (hvalue : config.get? key = some value) :
    ¬ AdmitsTag config key := by
  intro hadmits
  obtain ⟨tag, htag, hdenotes⟩ := hadmits value hvalue
  cases hrefuses with
  | noWord hnone => exact hnone tag hdenotes
  | @outOfRange other hother hbig =>
      have hsame : tag = other := by
        rw [← Config.wordOf?_eq_some_iff] at hdenotes hother
        exact Option.some.inj (hdenotes.symm.trans hother)
      rw [hsame] at htag
      exact absurd hbig (UInt64.not_lt.mpr htag)

theorem admitsTag_of_vendorOr
    {config : Config} {key : String} {default vendor : TeeVendor}
    (hread : vendorOr config key default = .ok vendor) : AdmitsTag config key := by
  intro value hvalue
  have hgives := gives_of_vendorOr hread
  rw [Config.Gives, hvalue] at hgives
  exact ⟨_, by cases vendor <;> decide, hgives⟩

theorem exists_vendorOr_of_admitsTag
    {config : Config} {key : String} (hadmits : AdmitsTag config key) (default : TeeVendor) :
    ∃ vendor, vendorOr config key default = .ok vendor := by
  rcases exists_vendorOr_or_refuses config key default with hread | ⟨_, _, hvalue, hrefuses, -⟩
  · exact hread
  · exact absurd hadmits (hrefuses.not_admitsTag hvalue)

theorem exists_refuses_of_not_admitsTag
    {config : Config} {key : String} (hbad : ¬ AdmitsTag config key) (default : TeeVendor) :
    ∃ value e, config.get? key = some value ∧ Refuses key value e ∧
      vendorOr config key default = .error e := by
  rcases exists_vendorOr_or_refuses config key default with ⟨vendor, hread⟩ | hrefused
  · exact absurd (admitsTag_of_vendorOr hread) hbad
  · exact hrefused

/-! ## The sources in their order -/

theorem resolve_of_unnamed {config : Config} (hunnamed : ∀ vendor, ¬ Names config vendor) :
    resolve config = vendorOr config vendorKey .sev >>= fun common =>
      vendorOr config proposerKey common >>= fun vendor => pure (ofVendor vendor) := by
  cases hnamed : named? config with
  | none => rw [resolve, hnamed]
  | some vendor => exact absurd (named?_eq_some_iff.mp hnamed) (hunnamed vendor)

theorem givesTag_of_vendorOr
    {config : Config} {common vendor : TeeVendor}
    (hcommon : vendorOr config vendorKey .sev = .ok common)
    (hproposer : vendorOr config proposerKey common = .ok vendor) :
    GivesTag config vendor.tag.toUInt64 := by
  have hall := gives_of_vendorOr hcommon
  have hown := gives_of_vendorOr hproposer
  unfold Config.Gives at hall hown
  unfold GivesTag
  cases hproposerValue : config.get? proposerKey with
  | some value =>
      rw [hproposerValue] at hown
      exact hown
  | none =>
      rw [hproposerValue] at hown
      rw [hown]
      cases hvendorValue : config.get? vendorKey with
      | some value =>
          rw [hvendorValue] at hall
          exact hall
      | none =>
          rw [hvendorValue] at hall
          exact hall

/-- How a configuration decides what is attested of the proposer. -/
structure FollowsSources (config : Config) : Prop where
  /-- A name decides, whatever the other keys hold. -/
  named : ∀ vendor, Names config vendor → resolve config = .ok (ofVendor vendor)
  succeeds_iff : (∀ vendor, ¬ Names config vendor) →
    ((∃ tee, resolve config = .ok tee) ↔
      AdmitsTag config vendorKey ∧ AdmitsTag config proposerKey)
  tag_given : (∀ vendor, ¬ Names config vendor) → ∀ tee, resolve config = .ok tee →
    GivesTag config tee.vendor.tag.toUInt64
  /-- A fault of the tag for all validators is told even if the proposer has its own. -/
  vendor_blamed : (∀ vendor, ¬ Names config vendor) → ¬ AdmitsTag config vendorKey →
    ∃ value e, config.get? vendorKey = some value ∧ Refuses vendorKey value e ∧
      resolve config = .error e
  proposer_blamed : (∀ vendor, ¬ Names config vendor) → AdmitsTag config vendorKey →
    ¬ AdmitsTag config proposerKey →
      ∃ value e, config.get? proposerKey = some value ∧ Refuses proposerKey value e ∧
        resolve config = .error e
  quote_repeats : ∀ tee, resolve config = .ok tee →
    tee.quote.bytes.size = 8192 ∧ ∀ i < 8192, tee.quote.bytes.data[i]? = quoteMarker[i % 16]?

theorem resolve_follows_sources (config : Config) : FollowsSources config := by
  constructor
  · intro vendor hnames
    rw [resolve, named?_eq_some_iff.mpr hnames]
  · intro hunnamed
    rw [resolve_of_unnamed hunnamed]
    constructor
    · rintro ⟨tee, htee⟩
      obtain ⟨common, hcommon, hrest⟩ := bind_eq_ok_iff.mp htee
      obtain ⟨vendor, hvendor, -⟩ := bind_eq_ok_iff.mp hrest
      exact ⟨admitsTag_of_vendorOr hcommon, admitsTag_of_vendorOr hvendor⟩
    · rintro ⟨hall, hown⟩
      obtain ⟨common, hcommon⟩ := exists_vendorOr_of_admitsTag hall .sev
      obtain ⟨vendor, hvendor⟩ := exists_vendorOr_of_admitsTag hown common
      refine ⟨ofVendor vendor, bind_eq_ok_iff.mpr ⟨common, hcommon, ?_⟩⟩
      exact bind_eq_ok_iff.mpr ⟨vendor, hvendor, rfl⟩
  · intro hunnamed tee htee
    rw [resolve_of_unnamed hunnamed] at htee
    obtain ⟨common, hcommon, hrest⟩ := bind_eq_ok_iff.mp htee
    obtain ⟨vendor, hvendor, hpure⟩ := bind_eq_ok_iff.mp hrest
    cases hpure
    exact givesTag_of_vendorOr hcommon hvendor
  · intro hunnamed hbad
    obtain ⟨value, e, hvalue, hrefuses, hread⟩ := exists_refuses_of_not_admitsTag hbad .sev
    refine ⟨value, e, hvalue, hrefuses, ?_⟩
    rw [resolve_of_unnamed hunnamed]
    exact bind_eq_error_iff.mpr (.inl hread)
  · intro hunnamed hall hbad
    obtain ⟨common, hcommon⟩ := exists_vendorOr_of_admitsTag hall .sev
    obtain ⟨value, e, hvalue, hrefuses, hread⟩ := exists_refuses_of_not_admitsTag hbad common
    refine ⟨value, e, hvalue, hrefuses, ?_⟩
    rw [resolve_of_unnamed hunnamed]
    refine bind_eq_error_iff.mpr (.inr ⟨common, hcommon, ?_⟩)
    exact bind_eq_error_iff.mpr (.inl hread)
  · intro tee htee
    rw [quote_of_resolve htee]
    exact ⟨defaultQuote.size_eq, fun i hi => getElem?_defaultQuote hi⟩

example :
    resolve ((Config.empty.set vendorKey (.text "-1")).set proposerKey (.number 1)) =
      .error (.config (.invalidValue "TEE_VENDOR" .unsignedInteger "-1")) :=
  rfl

end ProposerTee

end GenesisForge
