import GenesisForge.Json.Parse
import GenesisForge.Proofs.Numerals
import Mathlib.Data.List.TakeDrop

/-!
# Reading rendered documents

The reader takes back every document whose strings are written without escapes and whose
numbers are written in decimal digits without leading zeros.  A rendered document is
followed by the end of the text or by a mark that ends a value, so the reader of a number
knows where to stop.
-/

namespace GenesisForge

namespace Json

/-- Characters that stand for themselves between quotes. -/
def AreVerbatim (chars : List Char) : Prop :=
  ∀ c ∈ chars, 0x20 ≤ c.toNat ∧ c ≠ '"' ∧ c ≠ '\\'

/-- The documents without escapes whose numbers are unsigned integers. -/
inductive IsPlain : Json → Prop where
  | null : IsPlain .null
  | boolean (b : Bool) : IsPlain (.boolean b)
  | number (n : Nat) : IsPlain (.number (toString n))
  | string {written : String} (hwritten : AreVerbatim written.toList) : IsPlain (.string written)
  | array {items : List Json} (hitems : ∀ item ∈ items, IsPlain item) : IsPlain (.array items)
  | object {members : List (String × Json)} (hkeys : ∀ m ∈ members, AreVerbatim m.1.toList)
      (hvalues : ∀ m ∈ members, IsPlain m.2) : IsPlain (.object members)

/-! ## What is written -/

mutual

/-- The characters of a rendered document. -/
def chars : Json → List Char
  | .null => ['n', 'u', 'l', 'l']
  | .boolean true => ['t', 'r', 'u', 'e']
  | .boolean false => ['f', 'a', 'l', 's', 'e']
  | .number text => text.toList
  | .string written => '"' :: written.toList ++ ['"']
  | .array items => '[' :: itemChars true items ++ [']']
  | .object members => '\x7b' :: memberChars true members ++ ['\x7d']

/-- The characters of the items of an array. -/
def itemChars (isFirst : Bool) : List Json → List Char
  | [] => []
  | item :: rest => (if isFirst then [] else [',']) ++ chars item ++ itemChars false rest

/-- The characters of the members of an object. -/
def memberChars (isFirst : Bool) : List (String × Json) → List Char
  | [] => []
  | (key, value) :: rest =>
    (if isFirst then [] else [',']) ++ '"' :: key.toList ++ '"' :: ':' :: chars value ++
      memberChars false rest

end

mutual

theorem toList_appendTo (d : Json) (out : String) :
    (d.appendTo out).toList = out.toList ++ d.chars := by
  cases d with
  | null => simp [appendTo, chars]
  | boolean b => cases b <;> simp [appendTo, chars]
  | number text => simp [appendTo, chars]
  | string written => simp [appendTo, chars]
  | array items => simp [appendTo, chars, toList_appendItems items]
  | object members => simp [appendTo, chars, toList_appendMembers members]

theorem toList_appendItems (items : List Json) (isFirst : Bool) (out : String) :
    (appendItems isFirst items out).toList = out.toList ++ itemChars isFirst items := by
  cases items with
  | nil => simp [appendItems, itemChars]
  | cons item rest =>
      rw [appendItems, toList_appendItems rest, toList_appendTo item, itemChars]
      cases isFirst <;> simp

theorem toList_appendMembers (members : List (String × Json)) (isFirst : Bool) (out : String) :
    (appendMembers isFirst members out).toList = out.toList ++ memberChars isFirst members := by
  cases members with
  | nil => simp [appendMembers, memberChars]
  | cons member rest =>
      obtain ⟨key, value⟩ := member
      rw [appendMembers, toList_appendMembers rest, toList_appendTo value, memberChars]
      cases isFirst <;> simp

end

theorem toList_render (d : Json) : d.render.toList = d.chars := by
  rw [render, toList_appendTo]
  rfl

/-! ## Scanning -/

/-- What follows a value in a rendered document. -/
inductive EndsValue : List Char → Prop where
  | nil : EndsValue []
  | comma (rest : List Char) : EndsValue (',' :: rest)
  | bracket (rest : List Char) : EndsValue (']' :: rest)
  | brace (rest : List Char) : EndsValue ('\x7d' :: rest)

theorem takeString_verbatim
    {chars : List Char} (hchars : AreVerbatim chars) (taken rest : List Char) :
    takeString taken (chars ++ '"' :: rest) =
      some (String.ofList (taken.reverse ++ chars), rest) := by
  induction chars generalizing taken with
  | nil => simp [takeString]
  | cons c chars ih =>
      obtain ⟨hlow, hquote, hslash⟩ := hchars c List.mem_cons_self
      have hrest := ih (fun c' hc' => hchars c' (List.mem_cons_of_mem c hc')) (c :: taken)
      rw [List.cons_append, takeString]
      · rw [if_neg (by simp [hslash]; omega), hrest]
        simp
      · exact hquote
      · exact fun _ _ _ _ _ hc => absurd hc hslash
      · exact fun _ _ hc => absurd hc hslash

theorem isDigit_of_numeralDigit {c : Char} {d : Nat} (hdigit : Numeral.IsDigit 10 c d) :
    isDigit c = true := by
  obtain ⟨hd, hc⟩ := hdigit
  rcases hc with rfl | rfl
  · interval_cases d <;> rfl
  · interval_cases d <;> rfl

theorem isDigit_of_mem_toDigits {n : Nat} : ∀ c ∈ Nat.toDigits 10 n, isDigit c = true := fun c hc =>
  ((Numeral.spells_toDigits (by decide) n).isDigit_of_mem c hc).elim fun _ => isDigit_of_numeralDigit

theorem takeWhile_isDigit_of_endsValue {rest : List Char} (hrest : EndsValue rest) :
    rest.takeWhile isDigit = [] ∧ rest.dropWhile isDigit = rest := by
  cases hrest <;> exact ⟨rfl, rfl⟩

theorem span_isDigit
    {digits rest : List Char} (hdigits : ∀ c ∈ digits, isDigit c = true) (hrest : EndsValue rest) :
    (digits ++ rest).span isDigit = (digits, rest) := by
  obtain ⟨htake, hdrop⟩ := takeWhile_isDigit_of_endsValue hrest
  rw [List.span_eq_takeWhile_dropWhile, List.takeWhile_append_of_pos hdigits,
    List.dropWhile_append_of_pos hdigits, htake, hdrop, List.append_nil]

theorem exists_toDigits_eq_digit_cons (n : Nat) :
    ∃ c rest, Nat.toDigits 10 n = c :: rest ∧ isDigit c = true := by
  obtain ⟨c, rest, hdigits⟩ :=
    List.exists_cons_of_ne_nil (Nat.toDigits_ne_nil (n := n) (b := 10))
  exact ⟨c, rest, hdigits, isDigit_of_mem_toDigits c (hdigits ▸ List.mem_cons_self)⟩

theorem notMem_of_isDigit
    {c : Char} (hc : isDigit c = true) {marks : List Char}
    (hmarks : marks.any isDigit = false) : c ∉ marks := fun hmem =>
  List.any_eq_false.mp hmarks c hmem hc

theorem exists_toDigits_eq_cons {n : Nat} (hn : 0 < n) :
    ∃ c rest, Nat.toDigits 10 n = c :: rest ∧ c ≠ '0' := by
  induction n using Nat.strongRecOn with
  | ind n ih =>
      by_cases hsmall : n < 10
      · refine ⟨n.digitChar, [], Nat.toDigits_of_lt_base hsmall, ?_⟩
        interval_cases n <;> decide
      · obtain ⟨c, rest, hfront, hc⟩ := ih (n / 10) (by omega) (by omega)
        rw [Nat.toDigits_of_base_le (by decide) (by omega), hfront]
        exact ⟨c, _, List.cons_append, hc⟩

theorem takeInteger_toDigits {rest : List Char} (n : Nat) (hrest : EndsValue rest) :
    takeInteger (Nat.toDigits 10 n ++ rest) = some (Nat.toDigits 10 n, rest) := by
  obtain rfl | hn := Nat.eq_zero_or_pos n
  · cases hrest <;> rfl
  -- A zero in front would end the number at once.
  · have hspan := span_isDigit (isDigit_of_mem_toDigits (n := n)) hrest
    obtain ⟨c, tail, hdigits, hc⟩ := exists_toDigits_eq_cons hn
    rw [hdigits] at hspan ⊢
    rw [takeInteger, hspan]
    · rfl
    · intro other hother
      exact hc (List.cons.inj hother).1

theorem takeNumber_toDigits {rest : List Char} (n : Nat) (hrest : EndsValue rest) :
    takeNumber (Nat.toDigits 10 n ++ rest) = some (toString n, rest) := by
  have hfraction : takeFraction rest = some ([], rest) := by cases hrest <;> rfl
  have hexponent : takeExponent rest = some ([], rest) := by cases hrest <;> rfl
  have hunsigned (tail : List Char) : Nat.toDigits 10 n ++ rest ≠ '-' :: tail := by
    obtain ⟨c, others, hdigits, hc⟩ := exists_toDigits_eq_digit_cons n
    rw [hdigits, List.cons_append]
    intro hcons
    rw [(List.cons.inj hcons).1] at hc
    cases hc
  rw [takeNumber]
  · simp only [takeInteger_toDigits n hrest, hfraction, hexponent, Option.bind_eq_bind,
      Option.bind_some, List.nil_append, List.append_nil]
    rfl
  · exact hunsigned

/-! ## Reading back -/

theorem skipBlanks_of_solid
    {c : Char} {rest : List Char} (hc : c ∉ [' ', '\n', '\t', '\r']) :
    skipBlanks (c :: rest) = c :: rest := by
  simp only [List.mem_cons, List.not_mem_nil, or_false, not_or] at hc
  rw [skipBlanks]
  all_goals simp_all

theorem toList_toString (n : Nat) : (toString n).toList = Nat.toDigits 10 n :=
  String.toList_ofList

/-- A rendered document starts with no blank and no mark that ends a value. -/
theorem IsPlain.exists_chars_eq_cons {d : Json} (hplain : d.IsPlain) :
    ∃ c rest, d.chars = c :: rest ∧ c ∉ [' ', '\n', '\t', '\r', ']', '\x7d'] := by
  cases hplain with
  | null => exact ⟨_, _, rfl, by decide⟩
  | boolean b => cases b <;> exact ⟨_, _, rfl, by decide⟩
  | string _ => exact ⟨_, _, rfl, by decide⟩
  | array _ => exact ⟨_, _, rfl, by decide⟩
  | object _ _ => exact ⟨_, _, rfl, by decide⟩
  | number n =>
      obtain ⟨c, rest, hdigits, hc⟩ := exists_toDigits_eq_digit_cons n
      exact ⟨c, rest, (toList_toString n).trans hdigits, notMem_of_isDigit hc rfl⟩

/-- With fuel for its characters, a document is taken off the front of a text. -/
def IsTaken (d : Json) : Prop :=
  ∀ fuel rest, 2 * d.chars.length ≤ fuel → EndsValue rest →
    takeValue fuel (d.chars ++ rest) = some (d, rest)

/-- A document has characters, so the fuel for them is enough for one step. -/
theorem isTaken_of_succ
    {d : Json} (hchars : 0 < d.chars.length)
    (htake : ∀ fuel rest, 2 * d.chars.length ≤ fuel + 1 → EndsValue rest →
      takeValue (fuel + 1) (d.chars ++ rest) = some (d, rest)) : IsTaken d := by
  intro fuel rest hfuel hrest
  obtain ⟨fuel, rfl⟩ : ∃ k, fuel = k + 1 := ⟨fuel - 1, by omega⟩
  exact htake fuel rest hfuel hrest

theorem isTaken_null : IsTaken .null :=
  isTaken_of_succ (Nat.succ_pos _) fun _ _ _ _ => rfl

theorem isTaken_boolean (b : Bool) : IsTaken (.boolean b) := by
  cases b with
  | false => exact isTaken_of_succ (Nat.succ_pos _) fun _ _ _ _ => rfl
  | true => exact isTaken_of_succ (Nat.succ_pos _) fun _ _ _ _ => rfl

theorem isTaken_string
    {written : String} (hwritten : AreVerbatim written.toList) : IsTaken (.string written) := by
  refine isTaken_of_succ (Nat.succ_pos _) fun fuel rest _ _ => ?_
  simp [chars, takeValue, skipBlanks, takeString_verbatim hwritten]

theorem takeValue_of_isDigit
    {c : Char} {rest : List Char} (hc : isDigit c = true) (fuel : Nat) :
    takeValue (fuel + 1) (c :: rest) =
      (takeNumber (c :: rest)).map fun (text, rest) => (.number text, rest) := by
  rw [takeValue, skipBlanks_of_solid (notMem_of_isDigit hc rfl)]
  split
  case h_7 => rfl
  -- No other value starts with a digit.
  all_goals
    rename_i hstart
    rw [(List.cons.inj hstart).1] at hc
    cases hc

theorem isTaken_number (n : Nat) : IsTaken (.number (toString n)) := by
  obtain ⟨c, others, hdigits, hc⟩ := exists_toDigits_eq_digit_cons n
  have hchars : (Json.number (toString n)).chars = c :: others :=
    (toList_toString n).trans hdigits
  refine isTaken_of_succ (hchars ▸ Nat.succ_pos _) fun fuel rest _ hrest => ?_
  have htake := takeNumber_toDigits n hrest
  rw [hdigits, List.cons_append] at htake
  rw [hchars, List.cons_append, takeValue_of_isDigit hc, htake]
  rfl

/-! ### Arrays -/

theorem itemChars_cons (item : Json) (rest : List Json) :
    itemChars false (item :: rest) = ',' :: itemChars true (item :: rest) := by
  simp [itemChars]

theorem takeItems_itemChars
    {item : Json} {items : List Json} (htaken : ∀ i ∈ item :: items, IsTaken i)
    (fuel : Nat) (before : List Json) (rest : List Char)
    (hfuel : 2 * (itemChars true (item :: items)).length + 1 ≤ fuel) :
    takeItems fuel before (itemChars true (item :: items) ++ ']' :: rest) =
      some (before.reverse ++ item :: items, rest) := by
  induction items generalizing item fuel before with
  | nil =>
      obtain ⟨fuel, rfl⟩ : ∃ k, fuel = k + 1 := ⟨fuel - 1, by omega⟩
      simp only [itemChars, ite_true, List.nil_append, List.append_nil] at hfuel ⊢
      rw [takeItems, htaken item List.mem_cons_self fuel _ (by omega) (.bracket rest)]
      simp [skipBlanks]
  | cons next items ih =>
      obtain ⟨fuel, rfl⟩ : ∃ k, fuel = k + 1 := ⟨fuel - 1, by omega⟩
      have hsplit : itemChars true (item :: next :: items) =
          item.chars ++ ',' :: itemChars true (next :: items) := by
        rw [← itemChars_cons, itemChars]
        simp
      rw [hsplit] at hfuel ⊢
      simp only [List.length_append, List.length_cons] at hfuel
      rw [List.append_assoc, List.cons_append, takeItems,
        htaken item List.mem_cons_self fuel _ (by omega) (.comma _)]
      have hrest := ih (fun i hi => htaken i (List.mem_cons_of_mem item hi)) fuel (item :: before)
        (by omega)
      simp [skipBlanks, hrest]

theorem takeValue_bracket
    {c : Char} {rest : List Char} (hc : c ∉ [' ', '\n', '\t', '\r', ']', '\x7d']) (fuel : Nat) :
    takeValue (fuel + 1) ('[' :: c :: rest) =
      (takeItems fuel [] (c :: rest)).map fun (items, rest) => (.array items, rest) := by
  have hblanks : skipBlanks (c :: rest) = c :: rest :=
    skipBlanks_of_solid fun hmem => hc (List.mem_append_left [']', '\x7d'] hmem)
  simp only [takeValue, skipBlanks_of_solid (c := '[') (by decide), hblanks]
  split
  · next hclosed =>
    rw [(List.cons.inj hclosed).1] at hc
    exact absurd (by decide) hc
  · rfl

theorem isTaken_array
    {items : List Json} (hplain : ∀ item ∈ items, IsPlain item)
    (htaken : ∀ item ∈ items, IsTaken item) : IsTaken (.array items) := by
  refine isTaken_of_succ (Nat.succ_pos _) fun fuel rest hfuel _ => ?_
  cases items with
  | nil => rfl
  | cons item items =>
      have htake := takeItems_itemChars htaken fuel [] rest (by simp [chars] at hfuel; omega)
      have htext : (Json.array (item :: items)).chars ++ rest =
          '[' :: (itemChars true (item :: items) ++ ']' :: rest) := by
        simp [chars]
      obtain ⟨c, others, hitem, hc⟩ := (hplain item List.mem_cons_self).exists_chars_eq_cons
      have hstart : itemChars true (item :: items) = c :: (others ++ itemChars false items) := by
        simp [itemChars, hitem]
      rw [hstart, List.cons_append] at htake
      rw [htext, hstart, List.cons_append, takeValue_bracket hc, htake]
      rfl

/-! ### Objects -/

theorem memberChars_cons (member : String × Json) (rest : List (String × Json)) :
    memberChars false (member :: rest) = ',' :: memberChars true (member :: rest) := by
  simp [memberChars]

theorem takeMembers_memberChars
    {member : String × Json} {members : List (String × Json)}
    (hkeys : ∀ m ∈ member :: members, AreVerbatim m.1.toList)
    (htaken : ∀ m ∈ member :: members, IsTaken m.2)
    (fuel : Nat) (before : List (String × Json)) (rest : List Char)
    (hfuel : 2 * (memberChars true (member :: members)).length + 1 ≤ fuel) :
    takeMembers fuel before (memberChars true (member :: members) ++ '\x7d' :: rest) =
      some (before.reverse ++ member :: members, rest) := by
  induction members generalizing member fuel before with
  | nil =>
      obtain ⟨key, value⟩ := member
      have hkey : AreVerbatim key.toList := hkeys _ List.mem_cons_self
      have htake : IsTaken value := htaken _ List.mem_cons_self
      obtain ⟨fuel, rfl⟩ : ∃ k, fuel = k + 1 := ⟨fuel - 1, by omega⟩
      simp only [memberChars, ite_true, List.nil_append, List.append_nil, List.length_append,
        List.length_cons, List.cons_append, List.append_assoc] at hfuel ⊢
      have hvalue := htake fuel _ (by omega) (.brace rest)
      simp [takeMembers, skipBlanks, takeString_verbatim hkey, hvalue]
  | cons next members ih =>
      obtain ⟨key, value⟩ := member
      have hkey : AreVerbatim key.toList := hkeys _ List.mem_cons_self
      have htake : IsTaken value := htaken _ List.mem_cons_self
      obtain ⟨fuel, rfl⟩ : ∃ k, fuel = k + 1 := ⟨fuel - 1, by omega⟩
      have hsplit : memberChars true ((key, value) :: next :: members) =
          '"' :: key.toList ++ '"' :: ':' :: value.chars ++ ',' ::
            memberChars true (next :: members) := by
        rw [← memberChars_cons, memberChars]
        simp
      rw [hsplit] at hfuel ⊢
      simp only [List.length_append, List.length_cons, List.cons_append, List.append_assoc]
        at hfuel ⊢
      have hvalue := htake fuel _ (by omega)
        (.comma (memberChars true (next :: members) ++ '\x7d' :: rest))
      have hrest := ih (fun m hm => hkeys m (List.mem_cons_of_mem _ hm))
        (fun m hm => htaken m (List.mem_cons_of_mem _ hm)) fuel ((key, value) :: before) (by omega)
      simp [takeMembers, skipBlanks, takeString_verbatim hkey, hvalue, hrest]

theorem takeValue_brace (rest : List Char) (fuel : Nat) :
    takeValue (fuel + 1) ('\x7b' :: '"' :: rest) =
      (takeMembers fuel [] ('"' :: rest)).map fun (members, rest) => (.object members, rest) := by
  simp only [takeValue, skipBlanks_of_solid (c := '\x7b') (by decide),
    skipBlanks_of_solid (c := '"') (by decide)]
  rfl

theorem isTaken_object
    {members : List (String × Json)} (hkeys : ∀ m ∈ members, AreVerbatim m.1.toList)
    (htaken : ∀ m ∈ members, IsTaken m.2) : IsTaken (.object members) := by
  refine isTaken_of_succ (Nat.succ_pos _) fun fuel rest hfuel _ => ?_
  cases members with
  | nil => rfl
  | cons member members =>
      have htake := takeMembers_memberChars hkeys htaken fuel [] rest
        (by simp [chars] at hfuel; omega)
      have htext : (Json.object (member :: members)).chars ++ rest =
          '\x7b' :: (memberChars true (member :: members) ++ '\x7d' :: rest) := by
        simp [chars]
      have hstart : memberChars true (member :: members) = '"' :: (member.1.toList ++
          '"' :: ':' :: (member.2.chars ++ memberChars false members)) := by
        simp [memberChars]
      rw [hstart, List.cons_append] at htake
      rw [htext, hstart, List.cons_append, takeValue_brace, htake]
      rfl

/-! ### Documents -/

theorem IsPlain.isTaken {d : Json} (hplain : d.IsPlain) : IsTaken d := by
  induction hplain with
  | null => exact isTaken_null
  | boolean b => exact isTaken_boolean b
  | number n => exact isTaken_number n
  | string hwritten => exact isTaken_string hwritten
  | array hitems ih => exact isTaken_array hitems ih
  | object hkeys _ ih => exact isTaken_object hkeys ih

/-- What is rendered reads back. -/
theorem parse?_render {d : Json} (hplain : d.IsPlain) : parse? d.render = some d := by
  have hfuel : 2 * d.chars.length ≤ 2 * d.render.toList.length + 2 := by
    rw [toList_render]
    omega
  have htake := hplain.isTaken _ [] hfuel .nil
  rw [List.append_nil, ← toList_render] at htake
  rw [parse?]
  simp [htake, skipBlanks]

end Json
end GenesisForge
