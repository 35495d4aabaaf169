import GenesisForge.Proofs.AttestationIsolation
import GenesisForge.Proofs.ConfigValues

/-!
# The spelling of configured values

A number may be configured as such or as a text that spells it, in decimal or behind `0x`
in hexadecimal digits, with leading zeros and blanks around it.  The parameters of the
chain and the vendor of the proposer are the same either way, and so are the failures.  A
byte string may be given as a number or in hexadecimal digits, as long as a number has
room for it.
-/

namespace GenesisForge

/-- A text consists of some characters and blanks around them. -/
def Text.Carries (s : String) (chars : List Char) : Prop :=
  ∃ before after, (∀ c ∈ before, isBlank c = true) ∧ (∀ c ∈ after, isBlank c = true) ∧
    s.toList = before ++ chars ++ after

/-- The names under which words are configured. -/
def wordKeys : List String :=
  Parameter.all.map Parameter.key ++ [ProposerTee.vendorKey, ProposerTee.proposerKey]

/-- The names under which the versions of the forks are configured. -/
def versionKeys : List String :=
  ForkName.all.map ForkName.versionKey

/-- A text spells the number that a name may have instead: a word in either base, the
version of a fork in exactly eight hexadecimal digits. -/
inductive Respells (key : String) (n : UInt64) (s : String) : Prop where
  | decimal {digits : List Char} (hkey : key ∈ wordKeys) (htext : Text.Carries s digits)
      (hspells : Numeral.Spells 10 digits n.toNat)
  | hexadecimal {digits : List Char} (hkey : key ∈ wordKeys)
      (htext : Text.Carries s ('0' :: 'x' :: digits)) (hspells : Numeral.Spells 16 digits n.toNat)
  | version {digits : List Char} (hkey : key ∈ versionKeys)
      (htext : Text.Carries s ('0' :: 'x' :: digits)) (hlength : digits.length = 8)
      (hspells : Numeral.Spells 16 digits n.toNat)

/-! ## What the texts denote -/

theorem Text.Carries.trimChars_eq
    {s : String} {chars : List Char} (htext : Text.Carries s chars) (hne : chars ≠ [])
    (hsolid : ∀ c ∈ chars, isBlank c = false) : trimChars s.toList = chars := by
  obtain ⟨before, after, hbefore, hafter, hs⟩ := htext
  rw [hs, trimChars_of_solid hbefore hafter hne hsolid]

theorem solid_of_digits
    {base : Nat} {digits : List Char} (hbase : base ≤ 16)
    (hdigits : ∀ c ∈ digits, ∃ d, Numeral.IsDigit base c d) :
    ∀ c ∈ digits, Text.isBlank c = false := fun c hc =>
  (hdigits c hc).elim fun _ hdigit => hdigit.isBlank_eq_false hbase

theorem Text.Carries.trimChars_eq_marked
    {s : String} {digits : List Char} (htext : Text.Carries s ('0' :: 'x' :: digits))
    (hdigits : ∀ c ∈ digits, ∃ d, Numeral.IsDigit 16 c d) :
    trimChars s.toList = '0' :: 'x' :: digits := by
  refine htext.trimChars_eq (List.cons_ne_nil _ _) fun c hc => ?_
  rcases List.mem_cons.mp hc with rfl | hc
  · rfl
  rcases List.mem_cons.mp hc with rfl | hc
  · rfl
  · exact solid_of_digits (Nat.le_refl 16) hdigits c hc

theorem ConfigValue.denotes_of_decimal
    {s : String} {digits : List Char} {n : UInt64} (htext : Text.Carries s digits)
    (hspells : Numeral.Spells 10 digits n.toNat) :
    (ConfigValue.text s).Denotes Numeral.SpellsSigned n := by
  have htrim : Text.trimChars s.toList = digits :=
    htext.trimChars_eq hspells.ne_nil (solid_of_digits (by decide) hspells.isDigit_of_mem)
  exact .decimal (htrim ▸ .inl hspells)

theorem ConfigValue.denotes_of_hexadecimal
    {s : String} {digits : List Char} {n : UInt64}
    (htext : Text.Carries s ('0' :: 'x' :: digits))
    (hspells : Numeral.Spells 16 digits n.toNat) :
    (ConfigValue.text s).Denotes Numeral.SpellsSigned n :=
  .hexadecimal (htext.trimChars_eq_marked hspells.isDigit_of_mem) (.inl hspells)

theorem ConfigValue.denotesBytes_of_marked
    {s : String} {digits : List Char} {length : Nat} {b : FixedBytes length}
    (htext : Text.Carries s ('0' :: 'x' :: digits))
    (hspells : Hex.Spells digits b.bytes.data.toList) : (ConfigValue.text s).DenotesBytes b :=
  .marked (htext.trimChars_eq_marked hspells.isDigit_of_mem) hspells

/-! ## Another value of a name -/

namespace Config

section

variable (config : Config) (key : String) (value : ConfigValue)

theorem get?_set_self : (config.set key value).get? key = some value :=
  List.lookup_cons_self

variable {config key}

theorem agreesOutside_set_self : config.AgreesOutside [key] (config.set key value) :=
  agreesOutside_set (List.mem_singleton_self key) config value

variable {other : String} (hne : other ≠ key)
include hne

theorem get?_set_of_ne : (config.set key value).get? other = config.get? other :=
  (agreesOutside_set_self value other (List.mem_singleton.not.mpr hne)).symm

theorem wordOr_set_of_ne (default : UInt64) :
    (config.set key value).wordOr other default = config.wordOr other default :=
  ((agreesOutside_set_self value).wordOr_eq (List.mem_singleton.not.mpr hne) default).symm

theorem fixedBytesOr_set_of_ne {length : Nat} (default : FixedBytes length) :
    (config.set key value).fixedBytesOr length other default =
      config.fixedBytesOr length other default :=
  ((agreesOutside_set_self value).fixedBytesOr_eq (List.mem_singleton.not.mpr hne) default).symm

end

theorem gives_of_get?
    {α : Type} {config : Config} {denotes : ConfigValue → α → Prop} {key : String}
    {default a : α} {value : ConfigValue} (hvalue : config.get? key = some value)
    (hdenotes : denotes value a) : config.Gives denotes key default a := by
  rw [Gives, hvalue]
  exact hdenotes

section

variable {config : Config} {key s : String} {n : UInt64}
  (hnumber : config.get? key = some (.number n))
include hnumber

theorem wordOr_set_text
    (hdenotes : (ConfigValue.text s).Denotes Numeral.SpellsSigned n)
    (other : String) (default : UInt64) :
    (config.set key (.text s)).wordOr other default = config.wordOr other default := by
  -- Under the name itself both values denote one word, elsewhere nothing has changed.
  by_cases hother : other = key
  · subst hother
    rw [wordOr_eq_ok_iff.mpr (gives_of_get? hnumber (.number n)),
      wordOr_eq_ok_iff.mpr (gives_of_get? (get?_set_self config other _) hdenotes)]
  · exact wordOr_set_of_ne (.text s) hother default

theorem fixedBytesOr_set_text
    {length : Nat} {b : FixedBytes length} (hbytes : (ConfigValue.number n).DenotesBytes b)
    (hdenotes : (ConfigValue.text s).DenotesBytes b)
    (other : String) (default : FixedBytes length) :
    (config.set key (.text s)).fixedBytesOr length other default =
      config.fixedBytesOr length other default := by
  by_cases hother : other = key
  · subst hother
    rw [fixedBytesOr_eq_ok_iff.mpr (gives_of_get? hnumber hbytes),
      fixedBytesOr_eq_ok_iff.mpr (gives_of_get? (get?_set_self config other _) hdenotes)]
  · exact fixedBytesOr_set_of_ne (.text s) hother default

end

end Config

theorem ProposerTee.resolve_congr
    {a b : Config} (hname : a.get? nameKey = b.get? nameKey)
    (hvendor : ∀ default, a.wordOr vendorKey default = b.wordOr vendorKey default)
    (hproposer : ∀ default, a.wordOr proposerKey default = b.wordOr proposerKey default) :
    resolve a = resolve b := by
  simp only [resolve, named?, Config.text?, vendorOr, hname, hvendor, hproposer]

/-! ## Another spelling -/

theorem notMem_wordKeys_of_mem_versionKeys {key : String} (hkey : key ∈ versionKeys) :
    key ∉ wordKeys := by
  revert key
  decide

theorem ne_nameKey_of_mem {key : String} (hkey : key ∈ wordKeys ++ versionKeys) :
    ProposerTee.nameKey ≠ key := by
  revert key
  decide

theorem Respells.denotes
    {key s : String} {n : UInt64} (hrespells : Respells key n s) :
    (key ∈ wordKeys ∧ (ConfigValue.text s).Denotes Numeral.SpellsSigned n) ∨
      (key ∈ versionKeys ∧ ∃ version : ForkVersion,
        (ConfigValue.number n).DenotesBytes version ∧ (ConfigValue.text s).DenotesBytes version) := by
  cases hrespells with
  | decimal hkey htext hspells =>
      exact .inl ⟨hkey, ConfigValue.denotes_of_decimal htext hspells⟩
  | hexadecimal hkey htext hspells =>
      exact .inl ⟨hkey, ConfigValue.denotes_of_hexadecimal htext hspells⟩
  | version hkey htext hlength hspells =>
      -- Eight digits hold no more than four bytes do, so the number has room as well.
      have hlt := hspells.lt_pow
      rw [hlength] at hlt
      have hfold := (Numeral.foldDigits?_eq_some_iff (Nat.le_refl 16) hspells.ne_nil).mpr hspells
      have hbytes : Hex.Spells _ (Bytes.bigEndian 4 n.toNat).data.toList :=
        Hex.spells_bigEndian hfold hlength
      exact .inr ⟨hkey, .bigEndian _ n.toNat,
        Config.denotesBytes_number_iff.mpr ⟨⟨by decide, hlt⟩, rfl⟩,
        ConfigValue.denotesBytes_of_marked htext hbytes⟩

section

variable {config : Config} {key s : String} {n : UInt64}
  (hnumber : config.get? key = some (.number n)) (hrespells : Respells key n s)
include hnumber hrespells

theorem wordOr_eq_of_respells
    {other : String} (hother : other ∈ wordKeys) (default : UInt64) :
    (config.set key (.text s)).wordOr other default = config.wordOr other default := by
  rcases hrespells.denotes with ⟨-, hdenotes⟩ | ⟨hkey, -⟩
  · exact Config.wordOr_set_text hnumber hdenotes other default
  · have hne : other ≠ key := fun heq => notMem_wordKeys_of_mem_versionKeys hkey (heq ▸ hother)
    exact Config.wordOr_set_of_ne (.text s) hne default

theorem readVersion_eq_of_respells (fork : ForkName) :
    fork.readVersion (config.set key (.text s)) = fork.readVersion config := by
  rcases hrespells.denotes with ⟨hkey, -⟩ | ⟨-, version, hbytes, hdenotes⟩
  · have hversion : fork.versionKey ∈ versionKeys := List.mem_map_of_mem (by cases fork <;> decide)
    have hne : fork.versionKey ≠ key := fun heq =>
      notMem_wordKeys_of_mem_versionKeys hversion (heq ▸ hkey)
    exact Config.fixedBytesOr_set_of_ne (.text s) hne fork.defaultVersion
  · exact Config.fixedBytesOr_set_text hnumber hbytes hdenotes _ _

/-- Another spelling of a number leaves everything that is read as it is. -/
theorem reads_eq_of_respells :
    ChainSpec.ofConfig (config.set key (.text s)) = ChainSpec.ofConfig config ∧
      ProposerTee.resolve (config.set key (.text s)) = ProposerTee.resolve config := by
  have hwords {other : String} (hother : other ∈ wordKeys) (default : UInt64) :=
    wordOr_eq_of_respells hnumber hrespells hother default
  have hkey : key ∈ wordKeys ++ versionKeys := by
    rcases hrespells.denotes with ⟨hkey, -⟩ | ⟨hkey, -⟩
    · exact List.mem_append_left versionKeys hkey
    · exact List.mem_append_right wordKeys hkey
  constructor
  · refine ChainSpec.ofConfig_congr (fun p => hwords ?_ p.default)
      (readVersion_eq_of_respells hnumber hrespells)
    exact List.mem_append_left _ (List.mem_map_of_mem p.mem_all)
  · exact ProposerTee.resolve_congr (Config.get?_set_of_ne (.text s) (ne_nameKey_of_mem hkey))
      (hwords (by decide)) (hwords (by decide))

end

/-- However a value is spelled, the same is read.  A text that spells the number of a name
may stand for it, a byte string of up to eight bytes may be given as a number or in
hexadecimal digits, and a number without room for the byte string is refused. -/
theorem spelling_never_matters (config : Config) (key : String) :
    (∀ (n : UInt64) (s : String), config.get? key = some (.number n) → Respells key n s →
      ChainSpec.ofConfig (config.set key (.text s)) = ChainSpec.ofConfig config ∧
        ProposerTee.resolve (config.set key (.text s)) = ProposerTee.resolve config) ∧
    (∀ (length : Nat) (default b : FixedBytes length), length ≤ 8 →
      (∀ n : UInt64, config.get? key = some (.number n) →
        n.toNat = Bytes.bigEndianValue b.bytes → config.fixedBytesOr length key default = .ok b) ∧
      (∀ s digits, config.get? key = some (.text s) → Text.Carries s ('0' :: 'x' :: digits) →
        Hex.Spells digits b.bytes.data.toList → config.fixedBytesOr length key default = .ok b)) ∧
    (∀ (length : Nat) (default : FixedBytes length) (n : UInt64),
      config.get? key = some (.number n) → 256 ^ length ≤ n.toNat ∨ 8 < length →
        config.fixedBytesOr length key default =
          .error (.invalidValue key .fixedBytes (toString n.toNat))) := by
  refine ⟨fun n s => reads_eq_of_respells, fun length default b hlength => ⟨?_, ?_⟩, ?_⟩
  · intro n hnumber hvalue
    exact Config.fixedBytesOr_eq_ok_iff.mpr
      (Config.gives_of_get? hnumber (.number hlength hvalue.symm))
  · intro s digits htext hcarries hspells
    exact Config.fixedBytesOr_eq_ok_iff.mpr
      (Config.gives_of_get? htext (ConfigValue.denotesBytes_of_marked hcarries hspells))
  · intro length default n hnumber hlarge
    have hrefused : ¬ (length ≤ 8 ∧ n.toNat < 256 ^ length) := by omega
    rw [Config.fixedBytesOr, hnumber]
    dsimp only
    rw [if_neg hrefused]
    rfl

/-- A size that is configured as a number. -/
def numberedConfig : Config :=
  Config.empty.set Parameter.syncCommitteeSize.key (.number 48)

theorem spelling_never_matters_numbered :
    ChainSpec.ofConfig (numberedConfig.set Parameter.syncCommitteeSize.key (.text " 0x0030\n")) =
        ChainSpec.ofConfig numberedConfig ∧
      numberedConfig.fixedBytesOr 2 Parameter.syncCommitteeSize.key (.zero 2) =
        .ok (.bigEndian 2 48) ∧
      numberedConfig.fixedBytesOr 9 Parameter.syncCommitteeSize.key (.zero 9) =
        .error (.invalidValue Parameter.syncCommitteeSize.key .fixedBytes "48") := by
  obtain ⟨hrespelled, hfixed, hrefused⟩ :=
    spelling_never_matters numberedConfig Parameter.syncCommitteeSize.key
  have hdigits : Numeral.Spells 16 ['0', '0', '3', '0'] 48 :=
    ((Numeral.spells_toDigits (by decide) 48).zero_cons (by decide)).zero_cons (by decide)
  have hcarries : Text.Carries " 0x0030\n" ['0', 'x', '0', '0', '3', '0'] :=
    ⟨[' '], ['\n'], List.forall_mem_singleton.mpr rfl, List.forall_mem_singleton.mpr rfl, rfl⟩
  have hread := hrespelled 48 " 0x0030\n" rfl (.hexadecimal (by decide) hcarries hdigits)
  have hvalue : UInt64.toNat 48 = Bytes.bigEndianValue (Bytes.bigEndian 2 48) :=
    (Bytes.bigEndianValue_bigEndian 2 48).symm
  exact ⟨hread.1, (hfixed 2 (.zero 2) (.bigEndian 2 48) (by decide)).1 48 rfl hvalue,
    hrefused 9 (.zero 9) 48 rfl (.inr (by decide))⟩

end GenesisForge
