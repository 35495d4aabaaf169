import GenesisForge.Chain.Reading
import GenesisForge.Json.Structured
import GenesisForge.Proofs.HexText
import GenesisForge.Proofs.JsonText

/-!
# Records that read back

What JSON text a record, a byte string or an array of integers or roots is written as, it
is read back from.  A record is also read from the members of its object in any order, and
from the array of its field values.  Integers are written in decimal digits and byte
strings in hexadecimal digits, so no string of such a text has an escape.
-/

namespace GenesisForge

open Ssz Structured

/-! ## Strings without escapes -/

theorem Numeral.IsDigit.isVerbatim
    {base d : Nat} {c : Char} (hbase : base ≤ 16) (hdigit : Numeral.IsDigit base c d) :
    0x20 ≤ c.toNat ∧ c ≠ '"' ∧ c ≠ '\\' := by
  obtain ⟨hd, hc⟩ := hdigit
  have hfew : d < 16 := by omega
  rcases hc with rfl | rfl
  · interval_cases d <;> decide
  · interval_cases d <;> decide

namespace Json

theorem areVerbatim_of_digits
    {base : Nat} {chars : List Char} (hbase : base ≤ 16)
    (hdigits : ∀ c ∈ chars, ∃ d, Numeral.IsDigit base c d) : AreVerbatim chars := fun c hc =>
  (hdigits c hc).elim fun _ hdigit => hdigit.isVerbatim hbase

theorem areVerbatim_toString (n : Nat) : AreVerbatim (toString n).toList := by
  rw [toList_toString]
  exact areVerbatim_of_digits (by decide) (Numeral.spells_toDigits (by decide) n).isDigit_of_mem

theorem areVerbatim_encode (bytes : ByteArray) : AreVerbatim (Hex.encode bytes).toList := by
  obtain ⟨chars, hspells, hwritten⟩ := Hex.exists_toList_encode_eq bytes
  rw [hwritten]
  intro c hc
  rcases List.mem_cons.mp hc with rfl | hc
  · decide
  rcases List.mem_cons.mp hc with rfl | hc
  · decide
  · exact areVerbatim_of_digits (Nat.le_refl 16) hspells.isDigit_of_mem c hc

theorem unescapeOnto_verbatim
    {chars : List Char} (hchars : AreVerbatim chars) (out : List Char) :
    unescapeOnto out chars = some (out.reverse ++ chars) := by
  induction chars generalizing out with
  | nil => simp [unescapeOnto]
  | cons c chars ih =>
      have hslash : c ≠ '\\' := (hchars c List.mem_cons_self).2.2
      have hrest := ih (fun c' hc' => hchars c' (List.mem_cons_of_mem c hc')) (c :: out)
      rw [unescapeOnto, hrest]
      · simp
      · exact fun _ _ _ _ _ hc => absurd hc hslash
      · exact fun _ _ hc => absurd hc hslash

theorem unescape?_verbatim {written : String} (hwritten : AreVerbatim written.toList) :
    unescape? written = some written := by
  rw [unescape?, unescapeOnto_verbatim hwritten]
  simp

theorem verbatim?_string {written : String} (hwritten : AreVerbatim written.toList) :
    verbatim? (.string written) = some written := by
  have hslash : '\\' ∉ written.toList := fun hmem => (hwritten _ hmem).2.2 rfl
  rw [verbatim?, String.contains_char_eq, decide_eq_false hslash]
  rfl

/-! ## Scalars -/

theorem isPlain_hexJson (bytes : ByteArray) : IsPlain (hexJson bytes) :=
  .string (areVerbatim_encode bytes)

theorem isPlain_integerJson (quoted : Bool) (n : Nat) : IsPlain (integerJson quoted n) := by
  cases quoted with
  | false => exact .number n
  | true => exact .string (areVerbatim_toString n)

theorem bytes?_hexJson {n : Nat} (b : FixedBytes n) : bytes? n (hexJson b.bytes) = some b := by
  have hverbatim : Structured.verbatim? (hexJson b.bytes) = some (Hex.encode b.bytes) :=
    verbatim?_string (areVerbatim_encode b.bytes)
  rw [bytes?, hverbatim, Option.bind_some, Hex.decodeFixed?_encode]

theorem root?_hexJson (r : Root) : root? (hexJson r.bytes) = some r := by
  have htext : Structured.text? (hexJson r.bytes) = some (Hex.encode r.bytes) :=
    unescape?_verbatim (areVerbatim_encode r.bytes)
  rw [root?, htext, Option.bind_some, Hex.decodeFixed?_encode]

theorem natural?_toString (n : Nat) : Numeral.natural? 10 (toString n).toList = some n := by
  rw [Numeral.natural?_eq_some_iff (by decide), toList_toString]
  exact Numeral.spells_toDigits (by decide) n

theorem quotedWord?_integerJson (n : UInt64) :
    quotedWord? (integerJson true n.toNat) = some n := by
  have hverbatim : Structured.verbatim? (integerJson true n.toNat) = some (toString n.toNat) :=
    verbatim?_string (areVerbatim_toString n.toNat)
  rw [quotedWord?, hverbatim, Option.bind_some, Numeral.decimal?,
    Numeral.word?_eq_some_iff (by decide), toList_toString]
  exact .inl (Numeral.spells_toDigits (by decide) n.toNat)

theorem unsigned?_integerJson {n : Nat} (hn : n < 2 ^ 64) :
    Structured.unsigned? (integerJson false n) = some n := by
  change (Numeral.natural? 10 (toString n).toList).filter (· < 2 ^ 64) = some n
  rw [natural?_toString, Option.filter_some, if_pos (decide_eq_true hn)]

theorem word?_integerJson (n : UInt64) : word? (integerJson false n.toNat) = some n := by
  rw [word?, unsigned?_integerJson n.toNat_lt, Option.map_some, UInt64.ofNat_toNat]

theorem octet?_integerJson (n : UInt8) : octet? (integerJson false n.toNat) = some n := by
  have hn : n.toNat < 2 ^ 8 := n.toNat_lt
  rw [octet?, unsigned?_integerJson (Nat.lt_trans hn (by decide)), Option.filter_some,
    if_pos (decide_eq_true hn), Option.map_some, UInt8.ofNat_toNat]

/-! ## Members and items -/

theorem mapM_eq_some_map
    {α β : Type} {f : α → Option β} {g : α → β} {l : List α} (hf : ∀ a ∈ l, f a = some (g a)) :
    l.mapM f = some (l.map g) := by
  induction l with
  | nil => rfl
  | cons a rest ih =>
      rw [List.mapM_cons, hf a List.mem_cons_self,
        ih fun b hb => hf b (List.mem_cons_of_mem a hb)]
      rfl

/-- Among members of different names there is one of each name. -/
theorem filter_name_eq_singleton
    {D : Type} {members : List (String × D)} (hnodup : (members.map (·.1)).Nodup)
    {m : String × D} (hm : m ∈ members) : members.filter (·.1 == m.1) = [m] := by
  induction members with
  | nil => exact absurd hm List.not_mem_nil
  | cons first rest ih =>
      rw [List.map_cons, List.nodup_cons] at hnodup
      obtain ⟨hfirst, hrest⟩ := hnodup
      rcases List.mem_cons.mp hm with rfl | hm
      · have hnone : rest.filter (·.1 == m.1) = [] := by
          rw [List.filter_eq_nil_iff]
          intro other hother heq
          exact hfirst (List.mem_map.mpr ⟨other, hother, eq_of_beq heq⟩)
        rw [List.filter_cons, if_pos (beq_self_eq_true m.1), hnone]
      · have hne : ¬ (first.1 == m.1) = true := fun heq =>
          hfirst (eq_of_beq heq ▸ List.mem_map_of_mem hm)
        rw [List.filter_cons, if_neg hne, ih hrest hm]

theorem select?_of_perm
    {D : Type} {members others : List (String × D)} (hperm : others.Perm members)
    (hnodup : (members.map (·.1)).Nodup) :
    select? (members.map (·.1)) others = some (members.map fun m => some m.2) := by
  rw [select?, List.mapM_map]
  refine mapM_eq_some_map fun m hm => ?_
  have hfilter : others.filter (·.1 == m.1) = [m] := by
    have hsame := hperm.filter (·.1 == m.1)
    rw [filter_name_eq_singleton hnodup hm] at hsame
    exact List.perm_singleton.mp hsame
  rw [Function.comp_apply, hfilter]

theorem named?_verbatim
    {members : List (String × Json)} (hkeys : ∀ m ∈ members, AreVerbatim m.1.toList) :
    named? members = some members := by
  rw [named?, mapM_eq_some_map (g := id), List.map_id]
  intro m hm
  exact congrArg (Option.map (·, m.2)) (unescape?_verbatim (hkeys m hm))

/-- The members of an object are found by their names, in whatever order they stand. -/
theorem fields?_object
    {members others : List (String × Json)} (hperm : others.Perm members)
    (hkeys : ∀ m ∈ members, AreVerbatim m.1.toList) (hnodup : (members.map (·.1)).Nodup) :
    fields? (members.map (·.1)) (Json.object others) = some (members.map (·.2)) := by
  have hnamed : named? others = some others :=
    named?_verbatim fun m hm => hkeys m (hperm.mem_iff.mp hm)
  have hmembers : Structured.members? (members.map (·.1)) (Json.object others) =
      some (members.map fun m => some m.2) := by
    change (named? others).bind _ = _
    rw [hnamed, Option.bind_some, select?_of_perm hperm hnodup]
  rw [fields?, hmembers]
  change (members.map fun m => some m.2).mapM id = _
  rw [List.mapM_map]
  exact mapM_eq_some_map fun m _ => rfl

/-- The values of the fields may also stand in an array. -/
theorem fields?_array (members : List (String × Json)) :
    fields? (members.map (·.1)) (Json.array (members.map (·.2))) = some (members.map (·.2)) := by
  have hmembers : Structured.members? (members.map (·.1)) (Json.array (members.map (·.2))) =
      some ((members.map (·.2)).map some) := by
    change (if _ then _ else _) = _
    rw [if_pos (by simp)]
  rw [fields?, hmembers]
  change ((members.map (·.2)).map some).mapM id = _
  rw [List.mapM_map]
  exact (mapM_eq_some_map fun m _ => rfl).trans (congrArg some (List.map_id _))

/-! ## Records -/

/-- The element that a JSON text holds. -/
def decode? {α : Type} (read? : Json → Option α) (text : String) : Option α :=
  (parse? text).bind read?

/-- A record is read from its text, from its members in any order, and from the array of
its field values. -/
structure ReadsBack {α : Type} [Serializable α] (read? : Json → Option α) (a : α) : Prop where
  text : decode? read? (jsonText a) = some a
  members : ∃ members, (toValue a).toJson false = .object members ∧
    (∀ others, others.Perm members → decode? read? (Json.object others).render = some a) ∧
      decode? read? (Json.array (members.map (·.2))).render = some a

instance : DecidablePred AreVerbatim := fun chars =>
  decidable_of_iff (chars.all fun c => 0x20 ≤ c.toNat && (c != '"' && c != '\\'))
    (by simp [AreVerbatim])

theorem decode?_render
    {α : Type} {read? : Json → Option α} {d : Json} {a : α} (hplain : d.IsPlain)
    (hread : read? d = some a) : decode? read? d.render = some a := by
  rw [decode?, parse?_render hplain, Option.bind_some, hread]

/-- A record reads back if its reader takes the values of its fields. -/
theorem ReadsBack.of_fields?
    {α : Type} [Serializable α] {read? : Json → Option α} {a : α}
    (names : List String) (values : List Json)
    (hkeys : ∀ name ∈ names, AreVerbatim name.toList) (hnodup : names.Nodup)
    (hlength : names.length = values.length)
    (hvalues : ∀ d ∈ values, IsPlain d)
    (hjson : (toValue a).toJson false = .object (names.zip values))
    (hread : ∀ d, fields? names d = some values → read? d = some a) : ReadsBack read? a := by
  have hnames : (names.zip values).map (·.1) = names := List.map_fst_zip hlength.le
  have hitems : (names.zip values).map (·.2) = values := List.map_snd_zip hlength.ge
  have hkeys' (m : String × Json) (hm : m ∈ names.zip values) : AreVerbatim m.1.toList :=
    hkeys m.1 (List.of_mem_zip hm).1
  have hobject (others : List (String × Json)) (hperm : others.Perm (names.zip values)) :
      decode? read? (Json.object others).render = some a := by
    refine decode?_render (.object (fun m hm => hkeys' m (hperm.mem_iff.mp hm))
      fun m hm => hvalues m.2 (List.of_mem_zip (hperm.mem_iff.mp hm)).2) (hread _ ?_)
    have hfound := fields?_object hperm hkeys' (hnames.symm ▸ hnodup)
    rwa [hnames, hitems] at hfound
  have harray : decode? read? (Json.array values).render = some a := by
    refine decode?_render (.array hvalues) (hread _ ?_)
    have hfound := fields?_array (names.zip values)
    rwa [hnames, hitems] at hfound
  refine ⟨?_, names.zip values, hjson, hobject, hitems.symm ▸ harray⟩
  rw [jsonText, Value.jsonText, hjson]
  exact hobject _ (.refl _)

theorem readsBack_fork (a : Fork) : ReadsBack Fork.read? a := by
  refine .of_fields? Schemas.fork.fieldNames
    [hexJson a.previousVersion.bytes, hexJson a.currentVersion.bytes,
      integerJson true a.epoch.toNat] (by decide) (by decide) rfl ?_ rfl fun d hfields => ?_
  · simp [isPlain_hexJson, isPlain_integerJson]
  · rw [Fork.read?, hfields]
    simp [bytes?_hexJson, quotedWord?_integerJson]

theorem readsBack_checkpoint (a : Checkpoint) : ReadsBack Checkpoint.read? a := by
  refine .of_fields? Schemas.checkpoint.fieldNames
    [integerJson true a.epoch.toNat, hexJson a.root.bytes]
    (by decide) (by decide) rfl ?_ rfl fun d hfields => ?_
  · simp [isPlain_hexJson, isPlain_integerJson]
  · rw [Checkpoint.read?, hfields]
    simp [root?_hexJson, quotedWord?_integerJson]

theorem readsBack_eth1Data (a : Eth1Data) : ReadsBack Eth1Data.read? a := by
  refine .of_fields? Schemas.eth1Data.fieldNames
    [hexJson a.depositRoot.bytes, integerJson true a.depositCount.toNat, hexJson a.blockHash.bytes]
    (by decide) (by decide) rfl ?_ rfl fun d hfields => ?_
  · simp [isPlain_hexJson, isPlain_integerJson]
  · rw [Eth1Data.read?, hfields]
    simp [root?_hexJson, quotedWord?_integerJson]

theorem readsBack_withdrawal (a : Withdrawal) : ReadsBack Withdrawal.read? a := by
  refine .of_fields? Schemas.withdrawal.fieldNames
    [integerJson true a.index.toNat, integerJson true a.validatorIndex.toNat,
      hexJson a.address.bytes, integerJson true a.amount.toNat]
    (by decide) (by decide) rfl ?_ rfl fun d hfields => ?_
  · simp [isPlain_hexJson, isPlain_integerJson]
  · rw [Withdrawal.read?, hfields]
    simp [bytes?_hexJson, quotedWord?_integerJson]

theorem readsBack_blockHeader (a : BlockHeader) : ReadsBack BlockHeader.read? a := by
  refine .of_fields? Schemas.blockHeader.fieldNames
    [integerJson true a.slot.toNat, integerJson true a.proposerIndex.toNat,
      hexJson a.parentRoot.bytes, hexJson a.stateRoot.bytes, hexJson a.bodyRoot.bytes]
    (by decide) (by decide) rfl ?_ rfl fun d hfields => ?_
  · simp [isPlain_hexJson, isPlain_integerJson]
  · rw [BlockHeader.read?, hfields]
    simp [root?_hexJson, quotedWord?_integerJson]

/-! ## Byte strings and arrays -/

theorem decode?_bytes {n : Nat} (b : FixedBytes n) :
    decode? (bytes? n) (Value.bytes b.bytes).jsonText = some b :=
  decode?_render (isPlain_hexJson b.bytes) (bytes?_hexJson b)

theorem itemsToJson_eq (quoted : Bool) (before : List Json) (values : List Value) :
    itemsToJson quoted before values = before.reverse ++ values.map (·.toJson quoted) := by
  induction values generalizing before with
  | nil => simp [itemsToJson]
  | cons v rest ih => simp [itemsToJson, ih]

/-- An array reads back if each of its items does. -/
theorem decode?_array
    {α : Type} [Serializable α] (element : Shape) {item? : Json → Option α} (items : List α)
    (hplain : ∀ a : α, ((toValue a).toJson false).IsPlain)
    (hread : ∀ a : α, item? ((toValue a).toJson false) = some a) :
    decode? (array? items.length item?) (Value.array element (items.map toValue)).jsonText =
      some items := by
  have hjson : (Value.array element (items.map toValue)).toJson false =
      .array (items.map fun a => (toValue a).toJson false) := by
    rw [Value.toJson, itemsToJson_eq, List.map_map]
    rfl
  rw [Value.jsonText, hjson]
  refine decode?_render (.array fun d hd => ?_) ?_
  · obtain ⟨a, -, rfl⟩ := List.mem_map.mp hd
    exact hplain a
  · have hitems : (items.map fun a => (toValue a).toJson false).mapM item? = some items := by
      rw [List.mapM_map]
      exact (mapM_eq_some_map fun a _ => hread a).trans (congrArg some (List.map_id items))
    change ((items.map fun a => (toValue a).toJson false).mapM item? >>= fun read =>
      if read.length = items.length then some read else none) = some items
    rw [hitems]
    exact if_pos rfl

end Json

/-- What JSON is written for, it is read back as: records, from their members in any order
and from the array of their values as well, byte strings of a fixed length, and arrays of
integers and of roots. -/
theorem json_reads_back :
    (∀ a : Fork, Json.ReadsBack Fork.read? a) ∧
    (∀ a : Checkpoint, Json.ReadsBack Checkpoint.read? a) ∧
    (∀ a : Eth1Data, Json.ReadsBack Eth1Data.read? a) ∧
    (∀ a : Withdrawal, Json.ReadsBack Withdrawal.read? a) ∧
    (∀ a : BlockHeader, Json.ReadsBack BlockHeader.read? a) ∧
    (∀ (n : Nat) (b : FixedBytes n),
      Json.decode? (bytes? n) (Value.bytes b.bytes).jsonText = some b) ∧
    (∀ words : List UInt64, Json.decode? (array? words.length word?)
      (Value.array (.uint 8) (words.map toValue)).jsonText = some words) ∧
    (∀ octets : List UInt8, Json.decode? (array? octets.length octet?)
      (Value.array (.uint 1) (octets.map toValue)).jsonText = some octets) ∧
    (∀ roots : List Root, Json.decode? (array? roots.length root?)
      (Value.array .root (roots.map toValue)).jsonText = some roots) :=
  ⟨Json.readsBack_fork, Json.readsBack_checkpoint, Json.readsBack_eth1Data,
    Json.readsBack_withdrawal, Json.readsBack_blockHeader, fun _ => Json.decode?_bytes,
    fun words => Json.decode?_array (.uint 8) words
      (fun n => Json.isPlain_integerJson false n.toNat) Json.word?_integerJson,
    fun octets => Json.decode?_array (.uint 1) octets
      (fun n => Json.isPlain_integerJson false n.toNat) Json.octet?_integerJson,
    fun roots => Json.decode?_array .root roots
      (fun r => Json.isPlain_hexJson r.bytes) Json.root?_hexJson⟩

end GenesisForge
