import GenesisForge.Proofs.AttestationIsolation
import GenesisForge.Proofs.ConfigValues

/-!
# What a configuration makes of a chain

Every parameter of a chain is read under its own name, and nothing else of the
configuration reaches it.  A configuration gives the parameters of a chain exactly where
each name that counts has no value or one that denotes something, and the three bounds
hold; where it does not, the value that is refused is one of those that are in the way.
-/

namespace GenesisForge

namespace Config

section

variable (config : Config) (spells : Nat → List Char → Nat → Prop)

/-- Nothing is in the way of the parameters of a chain. -/
structure IsAcceptable : Prop where
  words : ∀ p, ∃ n, config.GivesWord spells p n
  versions : ∀ fork, ∃ version, config.GivesVersion fork version
  roundCount : ∀ n, config.GivesWord spells .shuffleRoundCount n → n.toNat ≤ 255
  treeDepth : ∀ n, config.GivesWord spells .depositContractTreeDepth n → n.toNat < 64
  votingSlots : ∀ m n, config.GivesWord spells .epochsPerEth1VotingPeriod m →
    config.GivesWord spells .slotsPerEpoch n → m.toNat * n.toNat < 2 ^ 64

/-- The value of a name is in the way of the parameters of a chain. -/
inductive Offends : String → Prop where
  | word {p : Parameter} (hword : ∀ n, ¬ config.GivesWord spells p n) : Offends p.key
  | version {fork : ForkName} (hversion : ∀ version, ¬ config.GivesVersion fork version) :
      Offends fork.versionKey
  | roundCount {n : UInt64} (hgives : config.GivesWord spells .shuffleRoundCount n)
      (hlarge : 255 < n.toNat) : Offends Parameter.shuffleRoundCount.key
  | treeDepth {n : UInt64} (hgives : config.GivesWord spells .depositContractTreeDepth n)
      (hlarge : 64 ≤ n.toNat) : Offends Parameter.depositContractTreeDepth.key
  | votingSlots {m n : UInt64} (hepochs : config.GivesWord spells .epochsPerEth1VotingPeriod m)
      (hslots : config.GivesWord spells .slotsPerEpoch n) (hlarge : 2 ^ 64 ≤ m.toNat * n.toNat) :
      Offends Parameter.epochsPerEth1VotingPeriod.key

end

theorem IsAcceptable.not_offends
    {config : Config} {spells : Nat → List Char → Nat → Prop} {key : String}
    (hacceptable : config.IsAcceptable spells) : ¬ config.Offends spells key := by
  rintro (hword | hversion | ⟨hgives, hlarge⟩ | ⟨hgives, hlarge⟩ | ⟨hepochs, hslots, hlarge⟩)
  · exact (hacceptable.words _).elim hword
  · exact (hacceptable.versions _).elim hversion
  · exact absurd (hacceptable.roundCount _ hgives) (by omega)
  · exact absurd (hacceptable.treeDepth _ hgives) (by omega)
  · exact absurd (hacceptable.votingSlots _ _ hepochs hslots) (by omega)

end Config

/-! ## Reading several parameters -/

theorem Parameter.read_eq_ok_iff {config : Config} {p : Parameter} {n : UInt64} :
    p.read config = .ok n ↔ config.GivesWord Numeral.SpellsSigned p n :=
  Config.wordOr_eq_ok_iff

theorem ForkName.readVersion_eq_ok_iff
    {config : Config} {fork : ForkName} {version : ForkVersion} :
    fork.readVersion config = .ok version ↔ config.GivesVersion fork version :=
  Config.fixedBytesOr_eq_ok_iff

section

variable {ι α : Type} {read : ι → Except ConfigError α}

theorem exists_lookup_of_mapM_eq_ok
    [DecidableEq ι] {names : List ι} {found : List (ι × α)}
    (hfound : names.mapM (fun i => do pure (i, ← read i)) = .ok found) :
    ∀ i ∈ names, ∃ a, found.lookup i = some a ∧ read i = .ok a := by
  induction names generalizing found with
  | nil => exact fun i hi => absurd hi List.not_mem_nil
  | cons first rest ih =>
      rw [mapM_cons_eq_bind] at hfound
      obtain ⟨entry, hentry, hrest⟩ := bind_eq_ok_iff.mp hfound
      obtain ⟨a, hread, hpair⟩ := bind_eq_ok_iff.mp hentry
      obtain rfl := Except.ok.inj hpair
      obtain ⟨others, hothers, rfl⟩ := map_eq_ok_iff.mp hrest
      intro i hi
      by_cases hfirst : i = first
      · subst hfirst
        exact ⟨a, List.lookup_cons_self, hread⟩
      · have hmem : i ∈ rest := (List.mem_cons.mp hi).resolve_left hfirst
        rw [List.lookup_cons, beq_false_of_ne hfirst]
        exact ih hothers i hmem

theorem exists_error_of_mapM_eq_error
    {names : List ι} {e : ConfigError}
    (hfailed : names.mapM (fun i => do pure (i, ← read i)) = .error e) :
    ∃ i ∈ names, read i = .error e := by
  induction names with
  | nil => cases hfailed
  | cons first rest ih =>
      rw [mapM_cons_eq_bind] at hfailed
      obtain hentry | ⟨entry, -, hrest⟩ := bind_eq_error_iff.mp hfailed
      · obtain hread | ⟨a, -, hpair⟩ := bind_eq_error_iff.mp hentry
        · exact ⟨first, List.mem_cons_self, hread⟩
        · cases hpair
      · obtain ⟨i, hi, hread⟩ := ih (map_eq_error_iff.mp hrest)
        exact ⟨i, List.mem_cons_of_mem _ hi, hread⟩

end

namespace ChainSpec

theorem read_eq_ok_valueIn
    {config : Config} {ps : List Parameter} {found : List (Parameter × UInt64)}
    (hfound : Parameter.readAll config ps = .ok found) {p : Parameter} (hp : p ∈ ps) :
    p.read config = .ok (valueIn found p) := by
  obtain ⟨n, hlookup, hread⟩ := exists_lookup_of_mapM_eq_ok hfound p hp
  rw [valueIn, hlookup]
  exact hread

theorem readAll_append
    {config : Config} {ps qs : List Parameter} {found others : List (Parameter × UInt64)}
    (hfound : Parameter.readAll config ps = .ok found)
    (hothers : Parameter.readAll config qs = .ok others) :
    Parameter.readAll config (ps ++ qs) = .ok (found ++ others) := by
  rw [Parameter.readAll] at hfound hothers ⊢
  rw [List.mapM_append, hfound, hothers]
  rfl

theorem mem_late_of_notMem_first {p : Parameter} (hp : p ∉ Parameter.first) :
    p ∈ Parameter.sizes ++ Parameter.limits ++ Parameter.forkEpochs := by
  have hall := p.mem_all
  simp only [Parameter.all, List.mem_append] at hall ⊢
  tauto

/-- A configuration that is accepted gives every parameter and every version. -/
theorem reads_of_ofConfig
    {config : Config} {spec : ChainSpec} (hspec : ofConfig config = .ok spec) :
    (∀ p : Parameter, p.read config = .ok (spec.value p)) ∧
      ∀ fork : ForkName, fork.readVersion config = .ok (spec.version fork) := by
  rw [ofConfig] at hspec
  obtain ⟨first, hfirst, hspec⟩ := bind_eq_ok_iff.mp hspec
  dsimp only at hspec
  split at hspec
  case isFalse => cases hspec
  obtain ⟨sizes, hsizes, hspec⟩ := bind_eq_ok_iff.mp hspec
  split at hspec
  case isFalse => cases hspec
  split at hspec
  case isFalse => cases hspec
  obtain ⟨limits, hlimits, hspec⟩ := bind_eq_ok_iff.mp hspec
  obtain ⟨versions, hversions, hspec⟩ := bind_eq_ok_iff.mp hspec
  obtain ⟨epochs, hepochs, hspec⟩ := bind_eq_ok_iff.mp hspec
  cases hspec
  -- The parameters that are read later are looked up in one list of three readings.
  have hlate := readAll_append (readAll_append hsizes hlimits) hepochs
  refine ⟨fun p => ?_, fun fork => ?_⟩
  · dsimp only
    split
    · next hp => exact read_eq_ok_valueIn hfirst hp
    · next hp => exact read_eq_ok_valueIn hlate (mem_late_of_notMem_first hp)
  · obtain ⟨version, hlookup, hread⟩ := exists_lookup_of_mapM_eq_ok hversions fork
      (by cases fork <;> decide)
    dsimp only
    rw [hlookup]
    exact hread

theorem givesWord_of_readAll
    {config : Config} {ps : List Parameter} {found : List (Parameter × UInt64)}
    (hfound : Parameter.readAll config ps = .ok found) {p : Parameter} (hp : p ∈ ps) :
    config.GivesWord Numeral.SpellsSigned p (valueIn found p) :=
  Parameter.read_eq_ok_iff.mp (read_eq_ok_valueIn hfound hp)

/-- The failure names a value that is in the way. -/
def Blames (config : Config) (e : ConfigError) : Prop :=
  ∃ key expected value, e = .invalidValue key expected value ∧
    config.Offends Numeral.SpellsSigned key

theorem blames_of_readAll
    {config : Config} {ps : List Parameter} {e : ConfigError}
    (hfailed : Parameter.readAll config ps = .error e) : Blames config e := by
  obtain ⟨p, -, hread⟩ := exists_error_of_mapM_eq_error hfailed
  obtain ⟨value, -, rfl⟩ := Config.eq_invalidValue_of_wordOr hread
  refine ⟨_, _, _, rfl, .word fun n hgives => ?_⟩
  rw [← Parameter.read_eq_ok_iff, hread] at hgives
  cases hgives

theorem blames_of_readVersions
    {config : Config} {e : ConfigError} (hfailed : readVersions config = .error e) :
    Blames config e := by
  obtain ⟨fork, -, hread⟩ := exists_error_of_mapM_eq_error hfailed
  obtain ⟨expected, value, -, rfl⟩ := Config.eq_invalidValue_of_fixedBytesOr hread
  refine ⟨_, _, _, rfl, .version fun version hgives => ?_⟩
  rw [← ForkName.readVersion_eq_ok_iff, hread] at hgives
  cases hgives

theorem blames_of_ofConfig
    {config : Config} {e : ConfigError} (hfailed : ofConfig config = .error e) :
    Blames config e := by
  rw [ofConfig] at hfailed
  -- One case for every step that can fail, in the order of the steps.
  obtain hfirst | ⟨first, hfirst, hfailed⟩ := bind_eq_error_iff.mp hfailed
  · exact blames_of_readAll hfirst
  dsimp only at hfailed
  split at hfailed
  case isFalse hvotes =>
    cases hfailed
    exact ⟨_, _, _, rfl, .votingSlots (givesWord_of_readAll hfirst (by decide))
      (givesWord_of_readAll hfirst (by decide)) (Nat.le_of_not_lt hvotes)⟩
  obtain hsizes | ⟨sizes, -, hfailed⟩ := bind_eq_error_iff.mp hfailed
  · exact blames_of_readAll hsizes
  split at hfailed
  case isFalse hrounds =>
    cases hfailed
    exact ⟨_, _, _, rfl, .roundCount (givesWord_of_readAll hfirst (by decide)) (by omega)⟩
  split at hfailed
  case isFalse hdepth =>
    cases hfailed
    exact ⟨_, _, _, rfl, .treeDepth (givesWord_of_readAll hfirst (by decide)) (by omega)⟩
  obtain hlimits | ⟨limits, -, hfailed⟩ := bind_eq_error_iff.mp hfailed
  · exact blames_of_readAll hlimits
  obtain hversions | ⟨versions, -, hfailed⟩ := bind_eq_error_iff.mp hfailed
  · exact blames_of_readVersions hversions
  obtain hepochs | ⟨epochs, -, hfailed⟩ := bind_eq_error_iff.mp hfailed
  · exact blames_of_readAll hepochs
  · cases hfailed

/-! ## Accepted configurations -/

/-- The parameters of a chain are what a configuration gives. -/
structure IsGivenBy (spec : ChainSpec) (config : Config) : Prop where
  word : ∀ p, config.GivesWord Numeral.SpellsSigned p (spec.value p)
  version : ∀ fork, config.GivesVersion fork (spec.version fork)
  votesLimit : ∀ m n, config.GivesWord Numeral.SpellsSigned .epochsPerEth1VotingPeriod m →
    config.GivesWord Numeral.SpellsSigned .slotsPerEpoch n → spec.votesLimit = m.toNat * n.toNat

/-- Two chains have the same parameters, but for those that a name gives. -/
structure AgreesOutside (key : String) (a b : ChainSpec) : Prop where
  value : ∀ p : Parameter, p.key ≠ key → a.value p = b.value p
  version : ∀ fork : ForkName, fork.versionKey ≠ key → a.version fork = b.version fork
  votesLimit : key ≠ Parameter.epochsPerEth1VotingPeriod.key → key ≠ Parameter.slotsPerEpoch.key →
    a.votesLimit = b.votesLimit

section

variable {config : Config} {spec : ChainSpec} (hspec : ofConfig config = .ok spec)
include hspec

theorem eq_value_of_givesWord {p : Parameter} {n : UInt64}
    (hgives : config.GivesWord Numeral.SpellsSigned p n) : n = spec.value p := by
  rw [← Parameter.read_eq_ok_iff, (reads_of_ofConfig hspec).1 p] at hgives
  exact (Except.ok.inj hgives).symm

theorem isGivenBy_of_ofConfig : spec.IsGivenBy config where
  word p := Parameter.read_eq_ok_iff.mp ((reads_of_ofConfig hspec).1 p)
  version fork := ForkName.readVersion_eq_ok_iff.mp ((reads_of_ofConfig hspec).2 fork)
  votesLimit m n hepochs hslots := by
    rw [eq_value_of_givesWord hspec hepochs, eq_value_of_givesWord hspec hslots]
    rfl

theorem isAcceptable_of_ofConfig : config.IsAcceptable Numeral.SpellsSigned where
  words p := ⟨_, (isGivenBy_of_ofConfig hspec).word p⟩
  versions fork := ⟨_, (isGivenBy_of_ofConfig hspec).version fork⟩
  roundCount n hgives := by
    rw [eq_value_of_givesWord hspec hgives]
    exact Nat.le_of_lt_succ spec.roundCount_lt
  treeDepth n hgives := by
    rw [eq_value_of_givesWord hspec hgives]
    exact spec.treeDepth_lt
  votingSlots m n hepochs hslots := by
    rw [eq_value_of_givesWord hspec hepochs, eq_value_of_givesWord hspec hslots]
    exact spec.votingSlots_lt

/-- Another value of one name reaches what that name gives and nothing else. -/
theorem agreesOutside_of_ofConfig
    {key : String} {other : Config} {otherSpec : ChainSpec}
    (hagree : config.AgreesOutside [key] other) (hother : ofConfig other = .ok otherSpec) :
    spec.AgreesOutside key otherSpec := by
  have hvalue (p : Parameter) (hp : p.key ≠ key) : spec.value p = otherSpec.value p := by
    have hreads : p.read config = p.read other :=
      hagree.wordOr_eq (fun hmem => hp (List.mem_singleton.mp hmem)) p.default
    rw [(reads_of_ofConfig hspec).1 p, (reads_of_ofConfig hother).1 p] at hreads
    exact Except.ok.inj hreads
  refine ⟨hvalue, fun fork hfork => ?_, fun hepochs hslots => ?_⟩
  · have hreads : fork.readVersion config = fork.readVersion other :=
      hagree.fixedBytesOr_eq (fun hmem => hfork (List.mem_singleton.mp hmem)) fork.defaultVersion
    rw [(reads_of_ofConfig hspec).2 fork, (reads_of_ofConfig hother).2 fork] at hreads
    exact Except.ok.inj hreads
  · rw [votesLimit, size, size, hvalue _ hepochs.symm, hvalue _ hslots.symm]
    rfl

end

theorem exists_ofConfig_eq_ok_iff (config : Config) :
    (∃ spec, ofConfig config = .ok spec) ↔ config.IsAcceptable Numeral.SpellsSigned := by
  refine ⟨fun ⟨spec, hspec⟩ => isAcceptable_of_ofConfig hspec, fun hacceptable => ?_⟩
  cases hread : ofConfig config with
  | ok spec => exact ⟨spec, rfl⟩
  | error e =>
      obtain ⟨key, -, -, -, hoffends⟩ := blames_of_ofConfig hread
      exact absurd hoffends hacceptable.not_offends

/-- A configuration gives the parameters of a chain where nothing is in the way, and is
refused for something that is in the way otherwise.  Every parameter is what its own name
gives, no two names are the same, and another value of a name changes nothing that the name
does not give. -/
theorem ofConfig_reads_own_keys (config : Config) :
    ((∃ spec, ofConfig config = .ok spec) ↔ config.IsAcceptable Numeral.SpellsSigned) ∧
      (∀ e, ofConfig config = .error e → ∃ key expected value,
        e = .invalidValue key expected value ∧ config.Offends Numeral.SpellsSigned key) ∧
      (∀ spec, ofConfig config = .ok spec → spec.IsGivenBy config) ∧
      (∀ key other spec otherSpec, config.AgreesOutside [key] other →
        ofConfig config = .ok spec → ofConfig other = .ok otherSpec →
          spec.AgreesOutside key otherSpec) ∧
      (Parameter.all.map Parameter.key ++ ForkName.all.map ForkName.versionKey).Nodup :=
  ⟨exists_ofConfig_eq_ok_iff config, fun _ => blames_of_ofConfig,
    fun _ => isGivenBy_of_ofConfig,
    fun _ _ _ _ hagree hspec hother => agreesOutside_of_ofConfig hspec hagree hother,
    by decide⟩

def overridingConfig : Config :=
  ((Config.empty.set Parameter.slotsPerHistoricalRoot.key (.number 64)).set
    Parameter.syncCommitteeSize.key (.text "32")).set
    ForkName.electra.versionKey (.text "0x05000001")

theorem ofConfig_reads_own_keys_overriding :
    ∃ spec, ofConfig overridingConfig = .ok spec ∧ spec.IsGivenBy overridingConfig ∧
      overridingConfig.IsAcceptable Numeral.SpellsSigned ∧
      spec.value .slotsPerHistoricalRoot = 64 ∧ spec.value .syncCommitteeSize = 32 ∧
      (spec.version .electra).bytes = ⟨#[5, 0, 0, 1]⟩ := by
  obtain ⟨haccepted, -, hgiven, -⟩ := ofConfig_reads_own_keys overridingConfig
  exact ⟨_, rfl, hgiven _ rfl, haccepted.mp ⟨_, rfl⟩, rfl, rfl, rfl⟩

/-- The number of slots of an epoch with a plus sign in front of its digits. -/
def signedConfig : Config :=
  Config.empty.set Parameter.slotsPerEpoch.key (.text "0x+20")

/-- A plus sign is no digit, and yet the reader lets one stand in front of the digits. -/
theorem not_exists_ofConfig_iff_of_unsigned :
    ¬ ((∃ spec, ofConfig signedConfig = .ok spec) ↔
      signedConfig.IsAcceptable Numeral.Spells) := by
  intro hiff
  have haccepted : ∃ spec, ofConfig signedConfig = .ok spec := ⟨_, rfl⟩
  obtain ⟨n, hgives⟩ := (hiff.mp haccepted).words .slotsPerEpoch
  have hdenotes : (ConfigValue.text "0x+20").Denotes Numeral.Spells n := hgives
  cases hdenotes with
  | decimal hspells =>
      obtain ⟨d, hdigit⟩ := hspells.isDigit_of_mem '+' (by decide)
      exact Numeral.not_isDigit_plus (by decide) hdigit
  | hexadecimal hmark hspells =>
      obtain rfl : ['+', '2', '0'] = _ := List.tail_eq_of_cons_eq (List.tail_eq_of_cons_eq hmark)
      obtain ⟨d, hdigit⟩ := hspells.isDigit_of_mem '+' (by decide)
      exact Numeral.not_isDigit_plus (by decide) hdigit

end ChainSpec

end GenesisForge
