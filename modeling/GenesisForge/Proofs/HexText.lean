import GenesisForge.Proofs.ByteStrings
import GenesisForge.Proofs.Numerals
import GenesisForge.Text.Hex
import Mathlib.Data.List.Basic

/-!
# What hexadecimal text spells

A byte is spelled by two digits in base sixteen, the higher one first.  The reader of byte
strings accepts exactly what is spelled so, in either case, and what the writer writes
reads back as the bytes that it was written for.
-/

namespace GenesisForge

namespace Hex

open Numeral

/-- Two digits for every byte spell a byte string. -/
inductive Spells : List Char → List UInt8 → Prop where
  | nil : Spells [] []
  | cons {high low : Char} {byte : UInt8} {chars : List Char} {bytes : List UInt8}
      (hhigh : IsDigit 16 high (byte.toNat / 16)) (hlow : IsDigit 16 low (byte.toNat % 16))
      (hrest : Spells chars bytes) : Spells (high :: low :: chars) (byte :: bytes)

/-- Characters denote a byte string by digits that spell it, behind the mark or not. -/
def Denotes {n : Nat} (chars : List Char) (b : FixedBytes n) : Prop :=
  ∃ digits, (chars = digits ∨ chars = '0' :: 'x' :: digits) ∧ Spells digits b.bytes.data.toList

/-! ## Digits -/

theorem digitValue?_eq (c : Char) : digitValue? c = Numeral.digitValue? 16 c := by
  have hle (a b : Char) : a ≤ b ↔ a.toNat ≤ b.toNat := Iff.rfl
  simp only [digitValue?, Numeral.digitValue?, hle, Option.filter, Char.reduceToNat]
  grind

theorem digitValue?_eq_some_iff {c : Char} {d : Nat} :
    digitValue? c = some d ↔ IsDigit 16 c d := by
  rw [digitValue?_eq, Numeral.digitValue?_eq_some_iff (Nat.le_refl 16)]

theorem not_isDigit_mark {d : Nat} : ¬ IsDigit 16 'x' d := by
  rw [← digitValue?_eq_some_iff]
  exact nofun

theorem digit_eq_digitChar {d : Nat} (hd : d < 16) : digit d = d.digitChar := by
  interval_cases d <;> rfl

theorem isDigit_digit {d : Nat} (hd : d < 16) : IsDigit 16 (digit d) d :=
  ⟨hd, .inl (digit_eq_digitChar hd)⟩

/-! ## Reading -/

theorem Spells.pair
    {high low : Char} {h l : Nat} {chars : List Char} {bytes : List UInt8}
    (hhigh : IsDigit 16 high h) (hlow : IsDigit 16 low l) (hrest : Spells chars bytes) :
    Spells (high :: low :: chars) ((16 * h + l).toUInt8 :: bytes) := by
  have hh := hhigh.1
  have hl := hlow.1
  have hvalue : (16 * h + l).toUInt8.toNat = 16 * h + l :=
    UInt8.toNat_ofNat_of_lt' (by simp [UInt8.size]; omega)
  refine .cons ?_ ?_ hrest
  · rwa [hvalue, show (16 * h + l) / 16 = h by omega]
  · rwa [hvalue, show (16 * h + l) % 16 = l by omega]

theorem Spells.isDigit_of_mem
    {chars : List Char} {bytes : List UInt8} (hspells : Spells chars bytes) :
    ∀ c ∈ chars, ∃ d, IsDigit 16 c d := by
  induction hspells with
  | nil => exact fun c hc => absurd hc List.not_mem_nil
  | cons hhigh hlow hrest ih =>
      intro c hc
      rcases List.mem_cons.mp hc with rfl | hc
      · exact ⟨_, hhigh⟩
      rcases List.mem_cons.mp hc with rfl | hc
      · exact ⟨_, hlow⟩
      · exact ih c hc

theorem decodeOnto_of_spells
    {chars : List Char} {bytes : List UInt8} (hspells : Spells chars bytes) (out : ByteArray) :
    decodeOnto out chars = some (out ++ ⟨bytes.toArray⟩) := by
  induction hspells generalizing out with
  | nil =>
      rw [decodeOnto]
      congr 1
      ext1
      simp
  | @cons high low byte chars bytes hhigh hlow hrest ih =>
      have hbyte : (16 * (byte.toNat / 16) + byte.toNat % 16).toUInt8 = byte := by
        rw [Nat.div_add_mod]
        exact UInt8.ofNat_toNat
      rw [decodeOnto, digitValue?_eq_some_iff.mpr hhigh, digitValue?_eq_some_iff.mpr hlow]
      simp only [hbyte, ih]
      congr 1
      ext1
      simp

theorem exists_spells_of_decodeOnto
    {out data : ByteArray} {chars : List Char} (hread : decodeOnto out chars = some data) :
    ∃ bytes, Spells chars bytes ∧ data = out ++ ⟨bytes.toArray⟩ := by
  fun_induction decodeOnto out chars with
  | case1 out =>
      obtain rfl := Option.some.inj hread
      refine ⟨[], .nil, ?_⟩
      ext1
      simp
  | case2 => cases hread
  | case3 out high low rest h l hlow hhigh ih =>
      obtain ⟨bytes, hrest, rfl⟩ := ih hread
      refine ⟨(16 * h + l).toUInt8 :: bytes,
        .pair (digitValue?_eq_some_iff.mp hhigh) (digitValue?_eq_some_iff.mp hlow) hrest, ?_⟩
      ext1
      simp
  | case4 => cases hread

theorem decodeDigits?_eq_some_iff {chars : List Char} {data : ByteArray} :
    decodeDigits? chars = some data ↔ Spells chars data.data.toList := by
  constructor
  · intro hread
    obtain ⟨bytes, hspells, rfl⟩ := exists_spells_of_decodeOnto hread
    simpa using hspells
  · intro hspells
    rw [decodeDigits?, decodeOnto_of_spells hspells, ByteArray.empty_append]

theorem not_spells_marked {digits : List Char} {bytes : List UInt8} :
    ¬ Spells ('0' :: 'x' :: digits) bytes := fun hspells =>
  (hspells.isDigit_of_mem 'x' (by simp)).elim fun _ => not_isDigit_mark

theorem decodeDigits?_unmarked_eq_some_iff {chars : List Char} {n : Nat} {b : FixedBytes n} :
    decodeDigits? (unmarked chars) = some b.bytes ↔ Denotes chars b := by
  rw [decodeDigits?_eq_some_iff]
  by_cases hmarked : ∃ digits, chars = '0' :: 'x' :: digits
  · obtain ⟨digits, rfl⟩ := hmarked
    rw [unmarked]
    constructor
    · exact fun hspells => ⟨digits, .inr rfl, hspells⟩
    · rintro ⟨others, rfl | hmark, hspells⟩
      · exact absurd hspells not_spells_marked
      · obtain rfl : digits = others := by simpa using hmark
        exact hspells
  · have hself : unmarked chars = chars := by
      rw [unmarked]
      intro digits hmark
      exact hmarked ⟨digits, hmark⟩
    rw [hself]
    constructor
    · exact fun hspells => ⟨chars, .inl rfl, hspells⟩
    · rintro ⟨digits, rfl | hmark, hspells⟩
      · exact hspells
      · exact absurd ⟨digits, hmark⟩ hmarked

theorem decodeFixed?_eq_some_iff {text : String} {n : Nat} {b : FixedBytes n} :
    decodeFixed? n text = some b ↔ Denotes text.toList b := by
  rw [← decodeDigits?_unmarked_eq_some_iff, decodeFixed?, decode?, Option.bind_eq_some_iff]
  constructor
  · rintro ⟨data, hread, hfixed⟩
    obtain ⟨hsize, hsame⟩ := Option.dite_none_right_eq_some.mp hfixed
    obtain rfl := Option.some.inj hsame
    exact hread
  · exact fun hread => ⟨b.bytes, hread, dif_pos b.size_eq⟩

/-! ## Digits of a number -/

theorem Spells.append
    {chars others : List Char} {bytes rest : List UInt8} (hchars : Spells chars bytes)
    (hothers : Spells others rest) : Spells (chars ++ others) (bytes ++ rest) := by
  induction hchars with
  | nil => exact hothers
  | cons hhigh hlow _ ih => exact .cons hhigh hlow ih

theorem data_bigEndian_succ (width n : Nat) :
    (Bytes.bigEndian (width + 1) n).data.toList =
      (Bytes.bigEndian width (n / 256)).data.toList ++ [(n % 256).toUInt8] := by
  rw [Bytes.bigEndian, Bytes.littleEndian_succ, Bytes.bigEndian]
  simp

/-- Digits that spell a number spell its bytes as well, the leading zeros among them. -/
theorem spells_bigEndian
    {width n : Nat} {chars : List Char} (hfold : foldDigits? 16 0 chars = some n)
    (hlength : chars.length = 2 * width) :
    Spells chars (Bytes.bigEndian width n).data.toList := by
  induction width generalizing chars n with
  | zero =>
      obtain rfl := List.length_eq_zero_iff.mp hlength
      exact .nil
  | succ width ih =>
      -- The last two digits are the last byte, those in front spell the quotient by 256.
      obtain rfl | ⟨most, low, rfl⟩ := List.eq_nil_or_concat' chars
      · simp at hlength
      obtain rfl | ⟨front, high, rfl⟩ := List.eq_nil_or_concat' most
      · simp at hlength
        omega
      rw [foldDigits?_concat, foldDigits?_concat, Option.bind_eq_some_iff] at hfold
      obtain ⟨m, hm, hlow⟩ := hfold
      obtain ⟨l, hl, rfl⟩ := Option.map_eq_some_iff.mp hlow
      obtain ⟨k, hk, hhigh⟩ := Option.bind_eq_some_iff.mp hm
      obtain ⟨h, hh, rfl⟩ := Option.map_eq_some_iff.mp hhigh
      have hhigh := isDigit_of_digitValue? (Nat.le_refl 16) hh
      have hlow := isDigit_of_digitValue? (Nat.le_refl 16) hl
      have hh16 := hhigh.1
      have hl16 := hlow.1
      have hbyte : (16 * (16 * k + h) + l) % 256 = 16 * h + l := by omega
      have hfront : (16 * (16 * k + h) + l) / 256 = k := by omega
      rw [data_bigEndian_succ, hbyte, hfront, List.append_assoc]
      refine (ih hk ?_).append (.pair hhigh hlow .nil)
      simp at hlength
      omega

/-! ## Writing -/

theorem exists_spells_of_foldl (bytes : List UInt8) (out : String) :
    ∃ chars, Spells chars bytes ∧
      (bytes.foldl (fun s byte =>
        (s.push (digit (byte.toNat / 16))).push (digit (byte.toNat % 16))) out).toList =
      out.toList ++ chars := by
  induction bytes generalizing out with
  | nil => exact ⟨[], .nil, by simp⟩
  | cons byte rest ih =>
      have hbyte := byte.toNat_lt
      obtain ⟨chars, hspells, hwritten⟩ :=
        ih ((out.push (digit (byte.toNat / 16))).push (digit (byte.toNat % 16)))
      refine ⟨digit (byte.toNat / 16) :: digit (byte.toNat % 16) :: chars,
        .cons (isDigit_digit (by omega)) (isDigit_digit (by omega)) hspells, ?_⟩
      rw [List.foldl_cons, hwritten]
      simp

/-- The written form is the mark and digits that spell the bytes. -/
theorem exists_toList_encode_eq (bytes : ByteArray) :
    ∃ chars, Spells chars bytes.data.toList ∧ (encode bytes).toList = '0' :: 'x' :: chars := by
  obtain ⟨chars, hspells, hwritten⟩ := exists_spells_of_foldl bytes.data.toList "0x"
  refine ⟨chars, hspells, ?_⟩
  rw [encode, appendDigits, Bytes.foldl_eq_data_foldl, hwritten]
  rfl

/-- What is written reads back. -/
theorem decode?_encode (bytes : ByteArray) : decode? (encode bytes) = some bytes := by
  obtain ⟨chars, hspells, hwritten⟩ := exists_toList_encode_eq bytes
  rw [decode?, hwritten, unmarked, decodeDigits?_eq_some_iff]
  exact hspells

theorem decodeFixed?_encode {n : Nat} (b : FixedBytes n) :
    decodeFixed? n (encode b.bytes) = some b := by
  rw [decodeFixed?, decode?_encode, Option.bind_some, FixedBytes.ofBytes?, dif_pos b.size_eq]

end Hex
end GenesisForge
