import GenesisForge.Text.Blank
import GenesisForge.Text.Numeral
import Mathlib.Data.List.Induction
import Mathlib.Tactic.IntervalCases

/-!
# What numerals spell

A numeral is spelled digit by digit, each new digit adding to the base times the number
so far.  Letters count in either case, and leading zeros add nothing.  The reader of
unsigned numerals accepts what is spelled so and nothing else, but for one plus sign that
it lets stand in front.
-/

namespace GenesisForge

namespace Numeral

/-- A character is the digit of value `d` in a base up to sixteen. -/
def IsDigit (base : Nat) (c : Char) (d : Nat) : Prop :=
  d < base ∧ (c = d.digitChar ∨ c = d.digitChar.toUpper)

/-- One or more digits spell the number that has them in the base. -/
inductive Spells (base : Nat) : List Char → Nat → Prop where
  | digit {c : Char} {d : Nat} (hdigit : IsDigit base c d) : Spells base [c] d
  | append {chars : List Char} {n : Nat} {c : Char} {d : Nat} (hchars : Spells base chars n)
      (hdigit : IsDigit base c d) : Spells base (chars ++ [c]) (base * n + d)

/-- A number is spelled behind a plus sign, which may lack. -/
def SpellsSigned (base : Nat) (chars : List Char) (n : Nat) : Prop :=
  Spells base chars n ∨ ∃ digits, chars = '+' :: digits ∧ Spells base digits n

/-! ## Digits -/

theorem digitValue?_of_isDigit
    {base d : Nat} {c : Char} (hbase : base ≤ 16) (hdigit : IsDigit base c d) :
    digitValue? base c = some d := by
  obtain ⟨hd, hc⟩ := hdigit
  have hfew : d < 16 := by omega
  rw [digitValue?, Option.filter_eq_some_iff, decide_eq_true_eq]
  refine ⟨?_, hd⟩
  rcases hc with rfl | rfl
  · interval_cases d <;> rfl
  · interval_cases d <;> rfl

theorem eq_ofNat_add_of_toNat_sub_eq
    {c : Char} {d start : Nat} (hstart : start ≤ c.toNat) (hd : c.toNat - start = d) :
    c = Char.ofNat (start + d) := by
  rw [← hd, Nat.add_sub_cancel' hstart, Char.ofNat_toNat]

theorem isDigit_of_digitValue?
    {base d : Nat} {c : Char} (hbase : base ≤ 16) (hvalue : digitValue? base c = some d) :
    IsDigit base c d := by
  rw [digitValue?, Option.filter_eq_some_iff, decide_eq_true_eq] at hvalue
  obtain ⟨hvalue, hd⟩ := hvalue
  refine ⟨hd, ?_⟩
  have hfew : d < 16 := by omega
  split at hvalue
  · next hrange =>
    have hlow : 48 ≤ c.toNat := hrange.1
    have hhigh : c.toNat ≤ 57 := hrange.2
    have hsub : c.toNat - 48 = d := Option.some.inj hvalue
    have hten : d < 10 := by omega
    rw [eq_ofNat_add_of_toNat_sub_eq hlow hsub]
    left
    interval_cases d <;> rfl
  split at hvalue
  · next hrange =>
    have hlow : 97 ≤ c.toNat := hrange.1
    have hsub : c.toNat - 87 = d := Option.some.inj hvalue
    have hten : 10 ≤ d := by omega
    rw [eq_ofNat_add_of_toNat_sub_eq (by omega) hsub]
    left
    interval_cases d <;> rfl
  split at hvalue
  · next hrange =>
    have hlow : 65 ≤ c.toNat := hrange.1
    have hsub : c.toNat - 55 = d := Option.some.inj hvalue
    have hten : 10 ≤ d := by omega
    rw [eq_ofNat_add_of_toNat_sub_eq (by omega) hsub]
    right
    interval_cases d <;> rfl
  · cases hvalue

theorem digitValue?_eq_some_iff
    {base d : Nat} {c : Char} (hbase : base ≤ 16) :
    digitValue? base c = some d ↔ IsDigit base c d :=
  ⟨isDigit_of_digitValue? hbase, digitValue?_of_isDigit hbase⟩

theorem IsDigit.isBlank_eq_false
    {base d : Nat} {c : Char} (hbase : base ≤ 16) (hdigit : IsDigit base c d) :
    Text.isBlank c = false := by
  obtain ⟨hd, hc⟩ := hdigit
  have hfew : d < 16 := by omega
  rcases hc with rfl | rfl
  · interval_cases d <;> rfl
  · interval_cases d <;> rfl

theorem not_isDigit_plus {base d : Nat} (hbase : base ≤ 16) : ¬ IsDigit base '+' d := by
  rw [← digitValue?_eq_some_iff hbase]
  simp [digitValue?]

/-! ## Digits in a row -/

theorem foldDigits?_concat (base n : Nat) (chars : List Char) (c : Char) :
    foldDigits? base n (chars ++ [c]) =
      (foldDigits? base n chars).bind fun m => (digitValue? base c).map (base * m + ·) := by
  induction chars generalizing n with
  | nil =>
      rw [List.nil_append, foldDigits?, foldDigits?, Option.bind_some]
      cases digitValue? base c <;> rfl
  | cons first rest ih =>
      rw [List.cons_append, foldDigits?, foldDigits?]
      cases digitValue? base first with
      | none => rfl
      | some d => exact ih _

theorem Spells.ne_nil {base n : Nat} {chars : List Char} (hspells : Spells base chars n) :
    chars ≠ [] := by
  cases hspells <;> simp

theorem Spells.isDigit_of_mem
    {base n : Nat} {chars : List Char} (hspells : Spells base chars n) :
    ∀ c ∈ chars, ∃ d, IsDigit base c d := by
  induction hspells with
  | digit hdigit =>
      intro c hc
      obtain rfl := List.mem_singleton.mp hc
      exact ⟨_, hdigit⟩
  | append hchars hdigit ih =>
      intro c hc
      rcases List.mem_append.mp hc with hc | hc
      · exact ih c hc
      · obtain rfl := List.mem_singleton.mp hc
        exact ⟨_, hdigit⟩

/-- So many digits spell no more than so many digits can. -/
theorem Spells.lt_pow
    {base n : Nat} {chars : List Char} (hspells : Spells base chars n) :
    n < base ^ chars.length := by
  induction hspells with
  | digit hdigit => simpa using hdigit.1
  | @append chars n c d hchars hdigit ih =>
      have hd := hdigit.1
      have hnext : base * (n + 1) ≤ base * base ^ chars.length := Nat.mul_le_mul_left base ih
      rw [List.length_append, List.length_singleton, Nat.pow_succ']
      rw [Nat.mul_succ] at hnext
      omega

theorem foldDigits?_eq_some_iff
    {base n : Nat} {chars : List Char} (hbase : base ≤ 16) (hne : chars ≠ []) :
    foldDigits? base 0 chars = some n ↔ Spells base chars n := by
  constructor
  · intro hfold
    -- The fold meets the last digit last, as the grammar does.
    induction chars using List.reverseRecOn generalizing n with
    | nil => exact absurd rfl hne
    | append_singleton chars c ih =>
        rw [foldDigits?_concat, Option.bind_eq_some_iff] at hfold
        obtain ⟨m, hm, hlast⟩ := hfold
        obtain ⟨d, hd, rfl⟩ := Option.map_eq_some_iff.mp hlast
        have hdigit := isDigit_of_digitValue? hbase hd
        by_cases hfirst : chars = []
        · subst hfirst
          obtain rfl : 0 = m := Option.some.inj hm
          rw [Nat.mul_zero, Nat.zero_add]
          exact .digit hdigit
        · exact .append (ih hfirst hm) hdigit
  · intro hspells
    induction hspells with
    | digit hdigit =>
        rw [foldDigits?, digitValue?_of_isDigit hbase hdigit]
        simp only [foldDigits?, Nat.mul_zero, Nat.zero_add]
    | append hchars hdigit ih =>
        rw [foldDigits?_concat, ih hchars.ne_nil, Option.bind_some,
          digitValue?_of_isDigit hbase hdigit, Option.map_some]

/-- A zero in front adds nothing. -/
theorem Spells.zero_cons
    {base n : Nat} {chars : List Char} (hbase : 0 < base) (hspells : Spells base chars n) :
    Spells base ('0' :: chars) n := by
  induction hspells with
  | @digit c d hdigit =>
      have hzero : Spells base ['0'] 0 := .digit ⟨hbase, .inl rfl⟩
      simpa using hzero.append hdigit
  | append _ hdigit ih => exact ih.append hdigit

theorem spells_toDigits {base : Nat} (hbase : 1 < base) (n : Nat) :
    Spells base (Nat.toDigits base n) n := by
  induction n using Nat.strongRecOn with
  | ind n ih =>
      by_cases hn : n < base
      · rw [Nat.toDigits_of_lt_base hn]
        exact .digit ⟨hn, .inl rfl⟩
      · have hle : base ≤ n := Nat.le_of_not_lt hn
        have hless : n / base < n := Nat.div_lt_self (by omega) hbase
        rw [Nat.toDigits_of_base_le hbase hle]
        have hlast := Spells.append (ih (n / base) hless)
          (d := n % base) ⟨Nat.mod_lt _ (by omega), .inl rfl⟩
        rwa [Nat.div_add_mod] at hlast

/-! ## Numerals -/

theorem natural?_eq_some_iff
    {base n : Nat} {chars : List Char} (hbase : base ≤ 16) :
    natural? base chars = some n ↔ Spells base chars n := by
  cases chars with
  | nil => exact ⟨nofun, fun hspells => absurd rfl hspells.ne_nil⟩
  | cons first rest => exact foldDigits?_eq_some_iff hbase (List.cons_ne_nil first rest)

theorem natural?_unsigned_eq_some_iff
    {base n : Nat} {chars : List Char} (hbase : base ≤ 16) :
    natural? base (unsigned chars) = some n ↔ SpellsSigned base chars n := by
  rw [natural?_eq_some_iff hbase, SpellsSigned]
  by_cases hplus : ∃ digits, chars = '+' :: digits
  · obtain ⟨digits, rfl⟩ := hplus
    have hunspelled : ¬ Spells base ('+' :: digits) n := fun hspells =>
      (hspells.isDigit_of_mem '+' List.mem_cons_self).elim fun _ => not_isDigit_plus hbase
    simp [unsigned, hunspelled]
  · have hself : unsigned chars = chars := by
      rw [unsigned]
      intro digits hchars
      exact hplus ⟨digits, hchars⟩
    have hunsigned : ¬ ∃ digits, chars = '+' :: digits ∧ Spells base digits n :=
      fun ⟨digits, hchars, _⟩ => hplus ⟨digits, hchars⟩
    rw [hself, or_iff_left hunsigned]

/-- A numeral is read as a word where it spells the number of the word. -/
theorem word?_eq_some_iff
    {base : Nat} {chars : List Char} {n : UInt64} (hbase : base ≤ 16) :
    word? base chars = some n ↔ SpellsSigned base chars n.toNat := by
  rw [word?, Option.map_eq_some_iff, ← natural?_unsigned_eq_some_iff hbase]
  constructor
  · rintro ⟨m, hm, rfl⟩
    obtain ⟨hm, hlt⟩ := Option.filter_eq_some_iff.mp hm
    rwa [UInt64.toNat_ofNat_of_lt' (of_decide_eq_true hlt)]
  · intro hn
    exact ⟨n.toNat, Option.filter_eq_some_iff.mpr ⟨hn, decide_eq_true n.toNat_lt⟩,
      UInt64.ofNat_toNat⟩

end Numeral

/-! ## Blanks around a text -/

namespace Text

theorem dropWhile_isBlank_append
    {blanks rest : List Char} (hblanks : ∀ c ∈ blanks, isBlank c = true) :
    (blanks ++ rest).dropWhile isBlank = rest.dropWhile isBlank := by
  induction blanks with
  | nil => rfl
  | cons c blanks ih =>
      rw [List.cons_append, List.dropWhile_cons_of_pos (hblanks c List.mem_cons_self)]
      exact ih fun c' hc' => hblanks c' (List.mem_cons_of_mem c hc')

theorem dropWhile_isBlank_of_solid
    {solid : List Char} (hne : solid ≠ []) (hsolid : ∀ c ∈ solid, isBlank c = false)
    (rest : List Char) :
    (solid ++ rest).dropWhile isBlank = solid ++ rest := by
  cases solid with
  | nil => exact absurd rfl hne
  | cons c solid =>
      have hc : ¬ isBlank c = true := by simp [hsolid c List.mem_cons_self]
      rw [List.cons_append, List.dropWhile_cons_of_neg hc]

/-- Only the blanks around a text without blanks are taken off. -/
theorem trimChars_of_solid
    {before solid after : List Char} (hbefore : ∀ c ∈ before, isBlank c = true)
    (hafter : ∀ c ∈ after, isBlank c = true) (hne : solid ≠ [])
    (hsolid : ∀ c ∈ solid, isBlank c = false) :
    trimChars (before ++ solid ++ after) = solid := by
  have hreverse : solid.reverse.dropWhile isBlank = solid.reverse := by
    have hsolid' : ∀ c ∈ solid.reverse, isBlank c = false :=
      fun c hc => hsolid c (List.mem_reverse.mp hc)
    have hdrop := dropWhile_isBlank_of_solid (List.reverse_ne_nil_iff.mpr hne) hsolid' []
    rwa [List.append_nil] at hdrop
  have hback : (solid ++ after).reverse.dropWhile isBlank = solid.reverse := by
    rw [List.reverse_append, dropWhile_isBlank_append fun c hc => hafter c (List.mem_reverse.mp hc),
      hreverse]
  rw [trimChars, List.append_assoc, dropWhile_isBlank_append hbefore,
    dropWhile_isBlank_of_solid hne hsolid, hback, List.reverse_reverse]

end Text

end GenesisForge
