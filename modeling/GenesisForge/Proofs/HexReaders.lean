import GenesisForge.Proofs.JsonRecords
import GenesisForge.Proofs.ValueSpelling

/-!
# One grammar of byte strings

Byte strings of a fixed length are read from JSON strings and from configured texts.  Both
readers accept two hexadecimal digits of either case for every byte, behind `0x` or not,
and a configured text may have blanks around it.  Among the accepted texts of a byte
string the writer picks the one with the mark and without upper-case letters.
-/

namespace GenesisForge

open Ssz

namespace Hex

def IsHexDigit (c : Char) : Prop :=
  ('0' ≤ c ∧ c ≤ '9') ∨ ('a' ≤ c ∧ c ≤ 'f') ∨ ('A' ≤ c ∧ c ≤ 'F')

/-! ## Texts of the grammar -/

theorem isHexDigit_iff {c : Char} : IsHexDigit c ↔ ∃ d, Numeral.IsDigit 16 c d := by
  simp only [← digitValue?_eq_some_iff, ← Option.isSome_iff_exists, IsHexDigit, digitValue?]
  grind

theorem Spells.length_eq
    {chars : List Char} {bytes : List UInt8} (hspells : Spells chars bytes) :
    chars.length = 2 * bytes.length := by
  induction hspells with
  | nil => rfl
  | cons _ _ _ ih =>
      rw [List.length_cons, List.length_cons, List.length_cons, ih]
      omega

theorem exists_spells_of_isHexDigit
    {n : Nat} {chars : List Char} (hlength : chars.length = 2 * n)
    (hdigits : ∀ c ∈ chars, IsHexDigit c) :
    ∃ bytes, bytes.length = n ∧ Spells chars bytes := by
  induction n generalizing chars with
  | zero =>
      obtain rfl := List.length_eq_zero_iff.mp hlength
      exact ⟨[], rfl, .nil⟩
  | succ n ih =>
      match chars, hlength with
      | high :: low :: rest, hlength =>
        have hrest : rest.length = 2 * n := by
          simp only [List.length_cons] at hlength
          omega
        obtain ⟨bytes, hbytes, hspells⟩ := ih hrest fun c hc =>
          hdigits c (List.mem_cons_of_mem high (List.mem_cons_of_mem low hc))
        obtain ⟨h, hhigh⟩ := isHexDigit_iff.mp (hdigits high List.mem_cons_self)
        obtain ⟨l, hlow⟩ :=
          isHexDigit_iff.mp (hdigits low (List.mem_cons_of_mem high List.mem_cons_self))
        exact ⟨(16 * h + l).toUInt8 :: bytes, congrArg (· + 1) hbytes, .pair hhigh hlow hspells⟩

theorem exists_denotes_iff {n : Nat} {chars : List Char} :
    (∃ b : FixedBytes n, Denotes chars b) ↔
      ∃ digits, (chars = digits ∨ chars = '0' :: 'x' :: digits) ∧ digits.length = 2 * n ∧
        ∀ c ∈ digits, IsHexDigit c := by
  constructor
  · rintro ⟨b, digits, hmark, hspells⟩
    have hbytes : b.bytes.data.toList.length = n := b.size_eq
    refine ⟨digits, hmark, ?_, fun c hc => isHexDigit_iff.mpr (hspells.isDigit_of_mem c hc)⟩
    rw [hspells.length_eq, hbytes]
  · rintro ⟨digits, hmark, hlength, hdigits⟩
    obtain ⟨bytes, hbytes, hspells⟩ := exists_spells_of_isHexDigit hlength hdigits
    exact ⟨⟨⟨bytes.toArray⟩, hbytes⟩, digits, hmark, hspells⟩

/-! ## The written form -/

theorem lowerAscii_ofList_cons {c : Char} {d : Nat} (hdigit : Numeral.IsDigit 16 c d)
    (chars : List Char) :
    (Text.lowerAscii (String.ofList (c :: chars))).toList =
      digit d :: (Text.lowerAscii (String.ofList chars)).toList := by
  obtain ⟨hd, hc⟩ := hdigit
  have hlower : (if 'A' ≤ c ∧ c ≤ 'Z' then Char.ofNat (c.toNat + 32) else c) = digit d := by
    rcases hc with rfl | rfl
    · interval_cases d <;> rfl
    · interval_cases d <;> rfl
  simp only [Text.lowerAscii, String.toList_map, String.toList_ofList, List.map_cons, hlower]

/-- The digits that are written are those of any spelling, with the letters in lower case. -/
theorem toList_foldl_of_spells
    {chars : List Char} {bytes : List UInt8} (hspells : Spells chars bytes) (out : String) :
    (bytes.foldl (fun s byte =>
      (s.push (digit (byte.toNat / 16))).push (digit (byte.toNat % 16))) out).toList =
    out.toList ++ (Text.lowerAscii (String.ofList chars)).toList := by
  induction hspells generalizing out with
  | nil => simp [Text.lowerAscii]
  | cons hhigh hlow _ ih =>
      rw [List.foldl_cons, ih, lowerAscii_ofList_cons hhigh, lowerAscii_ofList_cons hlow]
      simp

theorem encode_eq_of_spells
    {digits : List Char} {bytes : ByteArray} (hspells : Spells digits bytes.data.toList) :
    encode bytes = "0x" ++ Text.lowerAscii (String.ofList digits) := by
  rw [← String.toList_inj, encode, appendDigits, Bytes.foldl_eq_data_foldl,
    toList_foldl_of_spells hspells, String.toList_append]

theorem denotes_encode {n : Nat} (b : FixedBytes n) : Denotes (encode b.bytes).toList b := by
  rw [← decodeFixed?_eq_some_iff, decodeFixed?_encode]

/-! ## The two readers -/

theorem decode?_quoted_eq_some_iff
    {n : Nat} {t : String} {b : FixedBytes n} (ht : Json.AreVerbatim t.toList) :
    Json.decode? (Structured.bytes? n) ("\"" ++ t ++ "\"") = some b ↔ Denotes t.toList b := by
  have htext : "\"" ++ t ++ "\"" = (Json.string t).render := by
    rw [← String.toList_inj, Json.toList_render]
    simp [Json.chars]
  have hverbatim : Structured.verbatim? (Json.string t) = some t := Json.verbatim?_string ht
  rw [htext, Json.decode?, Json.parse?_render (.string ht), Option.bind_some, Structured.bytes?,
    hverbatim, Option.bind_some, decodeFixed?_eq_some_iff]

theorem fixedBytesOr_text_eq_ok_iff
    {config : Config} {key t : String} {n : Nat} {default b : FixedBytes n}
    (ht : config.get? key = some (.text t)) :
    config.fixedBytesOr n key default = .ok b ↔ Denotes (Text.trimChars t.toList) b := by
  rw [Config.fixedBytesOr_eq_ok_iff, Config.Gives, ht]
  exact Config.denotesBytes_text_iff

theorem trimChars_encode (bytes : ByteArray) :
    Text.trimChars (encode bytes).toList = (encode bytes).toList := by
  obtain ⟨digits, hspells, hwritten⟩ := exists_toList_encode_eq bytes
  have hcarries : Text.Carries (encode bytes) ('0' :: 'x' :: digits) :=
    ⟨[], [], nofun, nofun, by simpa using hwritten⟩
  rw [hcarries.trimChars_eq_marked hspells.isDigit_of_mem, hwritten]

/-- Both readers of `n` bytes follow one grammar, and what is written is the canonical text
of it. -/
structure ShareGrammar (n : Nat) : Prop where
  /-- A grammatical text has exactly two digits for every byte. -/
  grammatical_iff : ∀ chars, (∃ b : FixedBytes n, Denotes chars b) ↔
    ∃ digits, (chars = digits ∨ chars = '0' :: 'x' :: digits) ∧ digits.length = 2 * n ∧
      ∀ c ∈ digits, IsHexDigit c
  /-- A JSON string without escapes is read as what its text denotes. -/
  json_iff : ∀ (t : String) (b : FixedBytes n), Json.AreVerbatim t.toList →
    (Json.decode? (Structured.bytes? n) ("\"" ++ t ++ "\"") = some b ↔ Denotes t.toList b)
  /-- A configured text is read as what it denotes without the blanks around it. -/
  config_iff : ∀ (config : Config) (key t : String) (default b : FixedBytes n),
    config.get? key = some (.text t) →
      (config.fixedBytesOr n key default = .ok b ↔ Denotes (Text.trimChars t.toList) b)
  json_written : ∀ b : FixedBytes n,
    (Value.bytes b.bytes).jsonText = "\"" ++ encode b.bytes ++ "\"" ∧
      Json.decode? (Structured.bytes? n) (Value.bytes b.bytes).jsonText = some b
  config_written : ∀ (config : Config) (key : String) (default b : FixedBytes n),
    config.get? key = some (.text (encode b.bytes)) → config.fixedBytesOr n key default = .ok b
  /-- What is written differs from another text in the mark and the case at most. -/
  canonical : ∀ (digits : List Char) (b : FixedBytes n), Spells digits b.bytes.data.toList →
    encode b.bytes = "0x" ++ Text.lowerAscii (String.ofList digits)

theorem readers_share_grammar (n : Nat) : ShareGrammar n where
  grammatical_iff _ := exists_denotes_iff
  json_iff _ _ := decode?_quoted_eq_some_iff
  config_iff _ _ _ _ _ := fixedBytesOr_text_eq_ok_iff
  json_written b := by
    refine ⟨?_, Json.decode?_bytes b⟩
    rw [← String.toList_inj, Value.jsonText, Value.toJson, Json.toList_render]
    simp [hexJson, Json.chars]
  config_written config key default b ht := by
    rw [fixedBytesOr_text_eq_ok_iff ht, trimChars_encode]
    exact denotes_encode b
  canonical _ _ := encode_eq_of_spells

example : Json.decode? (Structured.bytes? 2) "\"0xAb0c\"" = some (.bigEndian 2 0xAB0C) := by cbv

/-- The mark counts once. -/
example :
    (Config.empty.set "KEY" (.text " 0x0xab\n")).fixedBytesOr 2 "KEY" (.zero 2) =
      .error (.invalidValue "KEY" .hexString " 0x0xab\n") :=
  rfl

end Hex

end GenesisForge
