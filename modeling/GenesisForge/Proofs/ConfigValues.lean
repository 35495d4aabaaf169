import GenesisForge.ChainSpec
import GenesisForge.Proofs.FirstFailures
import GenesisForge.Proofs.HexText

/-!
# What configured values denote

A value of a configuration denotes a word or a byte string by its form alone, or nothing
at all.  A parameter is given what the value of its name denotes, and the default where
the name has no value.  The readers of parameters answer exactly what is given, and refuse
the value under its own name otherwise.
-/

namespace GenesisForge

/-! ## Denoted words and byte strings -/

/-- The word that a value denotes, with numerals spelled in a given way: a number denotes
itself, a text what it spells in hexadecimal digits behind `0x` or else in decimal digits.
Blanks around a text do not count. -/
inductive ConfigValue.Denotes (spells : Nat → List Char → Nat → Prop) :
    ConfigValue → UInt64 → Prop where
  | number (n : UInt64) : Denotes spells (.number n) n
  | decimal {s : String} {n : UInt64}
      (hspells : spells 10 (Text.trimChars s.toList) n.toNat) : Denotes spells (.text s) n
  | hexadecimal {s : String} {digits : List Char} {n : UInt64}
      (hmark : Text.trimChars s.toList = '0' :: 'x' :: digits)
      (hspells : spells 16 digits n.toNat) : Denotes spells (.text s) n

/-- The byte string of a length that a value denotes: the big-endian digits of a number,
which eight bytes hold, or what a text spells in hexadecimal digits, behind `0x` or not. -/
inductive ConfigValue.DenotesBytes {length : Nat} : ConfigValue → FixedBytes length → Prop where
  | number {n : UInt64} {b : FixedBytes length} (hlength : length ≤ 8)
      (hvalue : Bytes.bigEndianValue b.bytes = n.toNat) : DenotesBytes (.number n) b
  | bare {s : String} {b : FixedBytes length}
      (hspells : Hex.Spells (Text.trimChars s.toList) b.bytes.data.toList) :
      DenotesBytes (.text s) b
  | marked {s : String} {digits : List Char} {b : FixedBytes length}
      (hmark : Text.trimChars s.toList = '0' :: 'x' :: digits)
      (hspells : Hex.Spells digits b.bytes.data.toList) : DenotesBytes (.text s) b

namespace Config

/-- A configuration gives what the value of a name denotes, or the default. -/
def Gives {α : Type} (config : Config) (denotes : ConfigValue → α → Prop) (key : String)
    (default a : α) : Prop :=
  match config.get? key with
  | none => a = default
  | some value => denotes value a

/-- The word that a configuration gives to a parameter. -/
def GivesWord (config : Config) (spells : Nat → List Char → Nat → Prop) (p : Parameter) :
    UInt64 → Prop :=
  config.Gives (ConfigValue.Denotes spells) p.key p.default

/-- The version that a configuration gives to a fork. -/
def GivesVersion (config : Config) (fork : ForkName) : ForkVersion → Prop :=
  config.Gives ConfigValue.DenotesBytes fork.versionKey fork.defaultVersion

/-! ## Reading words -/

theorem not_spells_decimal_marked {digits : List Char} {n : Nat} :
    ¬ Numeral.SpellsSigned 10 ('0' :: 'x' :: digits) n := by
  rintro (hspells | ⟨rest, hrest, -⟩)
  · obtain ⟨d, hd, hc⟩ := hspells.isDigit_of_mem 'x' (by simp)
    exact Hex.not_isDigit_mark ⟨Nat.lt_trans hd (by decide), hc⟩
  · cases hrest

theorem wordOf?_eq_some_iff {value : ConfigValue} {n : UInt64} :
    wordOf? value = some n ↔ value.Denotes Numeral.SpellsSigned n := by
  cases value with
  | number m =>
      rw [wordOf?, Option.some.injEq]
      constructor
      · rintro rfl
        exact .number m
      · rintro ⟨⟩
        rfl
  | text s =>
      rw [wordOf?, wordOfText?]
      split
      · next digits hmark =>
        rw [Numeral.word?_eq_some_iff (Nat.le_refl 16)]
        constructor
        · exact .hexadecimal hmark
        · intro hdenotes
          cases hdenotes with
          | decimal hspells => exact absurd (hmark ▸ hspells) not_spells_decimal_marked
          | hexadecimal hmark' hspells =>
              obtain ⟨-, -, rfl⟩ : '0' = '0' ∧ 'x' = 'x' ∧ digits = _ := by
                simpa using hmark.symm.trans hmark'
              exact hspells
      · next hunmarked =>
        rw [Numeral.word?_eq_some_iff (by decide)]
        constructor
        · exact .decimal
        · intro hdenotes
          cases hdenotes with
          | decimal hspells => exact hspells
          | hexadecimal hmark _ => exact absurd hmark (hunmarked _)

theorem wordOr_eq_ok_iff {config : Config} {key : String} {default n : UInt64} :
    config.wordOr key default = .ok n ↔
      config.Gives (ConfigValue.Denotes Numeral.SpellsSigned) key default n := by
  rw [wordOr, word, Gives]
  cases config.get? key with
  | none => exact ⟨fun h => (Except.ok.inj h).symm, fun h => congrArg Except.ok h.symm⟩
  | some value =>
      simp only [← wordOf?_eq_some_iff]
      cases wordOf? value with
      | none => exact ⟨nofun, nofun⟩
      | some m =>
          exact ⟨fun h => congrArg some (Except.ok.inj h), fun h => congrArg _ (Option.some.inj h)⟩

theorem eq_invalidValue_of_wordOr {config : Config} {key : String} {default : UInt64}
    {e : ConfigError} (hread : config.wordOr key default = .error e) :
    ∃ value, config.get? key = some value ∧ e = .invalidValue key .unsignedInteger value.show := by
  rw [wordOr, map_eq_error_iff, word] at hread
  split at hread
  · cases hread
  · next value hvalue =>
    split at hread
    · cases hread
    · exact ⟨value, hvalue, (Except.error.inj hread).symm⟩

/-! ## Reading byte strings -/

theorem denotesBytes_text_iff {s : String} {length : Nat} {b : FixedBytes length} :
    ConfigValue.DenotesBytes (.text s) b ↔ Hex.Denotes (Text.trimChars s.toList) b := by
  constructor
  · intro hdenotes
    cases hdenotes with
    | bare hspells => exact ⟨_, .inl rfl, hspells⟩
    | marked hmark hspells => exact ⟨_, .inr hmark, hspells⟩
  · rintro ⟨digits, hbare | hmark, hspells⟩
    · exact .bare (hbare ▸ hspells)
    · exact .marked hmark hspells

theorem bytesOfText?_eq_some_iff {s : String} {length : Nat} {b : FixedBytes length} :
    bytesOfText? s = some b.bytes ↔ ConfigValue.DenotesBytes (.text s) b := by
  rw [bytesOfText?, Hex.decodeDigits?_unmarked_eq_some_iff, denotesBytes_text_iff]

theorem denotesBytes_number_iff {length : Nat} {n : UInt64} {b : FixedBytes length} :
    ConfigValue.DenotesBytes (.number n) b ↔
      (length ≤ 8 ∧ n.toNat < 256 ^ length) ∧ FixedBytes.bigEndian length n.toNat = b := by
  constructor
  · rintro ⟨hlength, hvalue⟩
    have hlt := Bytes.bigEndianValue_lt b.bytes
    rw [b.size_eq, hvalue] at hlt
    exact ⟨⟨hlength, hlt⟩, by rw [← hvalue, FixedBytes.bigEndian_bigEndianValue]⟩
  · rintro ⟨⟨hlength, hlt⟩, rfl⟩
    refine .number hlength ?_
    rw [FixedBytes.bigEndian, Bytes.bigEndianValue_bigEndian, Nat.mod_eq_of_lt hlt]

theorem fixedBytesOr_eq_ok_iff {config : Config} {length : Nat} {key : String}
    {default b : FixedBytes length} :
    config.fixedBytesOr length key default = .ok b ↔
      config.Gives ConfigValue.DenotesBytes key default b := by
  rw [fixedBytesOr, Gives]
  cases config.get? key with
  | none => exact ⟨fun h => (Except.ok.inj h).symm, fun h => congrArg Except.ok h.symm⟩
  | some value =>
      cases value with
      | number n =>
          dsimp only
          rw [denotesBytes_number_iff]
          split
          · next hfits => simp [hfits]
          · next hbig => exact ⟨nofun, fun h => absurd h.1 hbig⟩
      | text s =>
          dsimp only
          rw [← bytesOfText?_eq_some_iff]
          cases bytesOfText? s with
          | none => exact ⟨nofun, nofun⟩
          | some data =>
              by_cases hsize : data.size = length
              · have hfixed : FixedBytes.ofBytes? length data = some ⟨data, hsize⟩ := dif_pos hsize
                simp only [hfixed, Option.some.injEq]
                exact ⟨fun h => congrArg FixedBytes.bytes (Except.ok.inj h),
                  fun h => congrArg Except.ok (FixedBytes.ext h)⟩
              · have hrefused : FixedBytes.ofBytes? length data = none := dif_neg hsize
                simp only [hrefused, Option.some.injEq]
                exact ⟨nofun, fun h => absurd (h ▸ b.size_eq) hsize⟩

theorem eq_invalidValue_of_fixedBytesOr {config : Config} {length : Nat} {key : String}
    {default : FixedBytes length} {e : ConfigError}
    (hread : config.fixedBytesOr length key default = .error e) :
    ∃ expected value, config.get? key = some value ∧
      e = .invalidValue key expected value.show := by
  rw [fixedBytesOr] at hread
  split at hread
  · cases hread
  · next n hvalue =>
    split at hread
    · cases hread
    · exact ⟨_, _, hvalue, (Except.error.inj hread).symm⟩
  · next s hvalue =>
    split at hread
    · exact ⟨_, _, hvalue, (Except.error.inj hread).symm⟩
    · split at hread
      · cases hread
      · exact ⟨_, _, hvalue, (Except.error.inj hread).symm⟩

end Config
end GenesisForge
