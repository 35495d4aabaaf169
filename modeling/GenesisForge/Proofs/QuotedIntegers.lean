import GenesisForge.Proofs.StateTexts
import Mathlib.Data.List.Forall2

/-!
# Integers in texts

Integers are written as decimal strings.  Whether one is quoted is up to the field around
it, so a shape is safe if each of its integers stands in a quoted field, alone or in a
collection.  All containers of the chain are, and an induction over the shape carries this
to the documents: no value of theirs leaves a bare number.
-/

namespace GenesisForge

/-! ## Decimal digits -/

/-- A text is the decimal digits of a number, without a sign and without leading zeros. -/
structure Numeral.IsDecimal (text : String) (n : Nat) : Prop where
  spells : Numeral.Spells 10 text.toList n
  zero : n = 0 → text = "0"
  lead : 0 < n → text.toList.head? ≠ some '0'

theorem Numeral.isDecimal_toString (n : Nat) : Numeral.IsDecimal (toString n) n := by
  constructor
  · rw [Json.toList_toString]
    exact Numeral.spells_toDigits (by decide) n
  · intro hzero
    rw [hzero]
    rfl
  · intro hpos hlead
    obtain ⟨c, rest, hdigits, hc⟩ := Json.exists_toDigits_eq_cons hpos
    rw [Json.toList_toString, hdigits, List.head?_cons] at hlead
    exact hc (Option.some.inj hlead)

/-! ## Documents without numbers -/

/-- The documents of objects, arrays, strings and booleans only. -/
inductive Json.LacksNumbers : Json → Prop where
  | boolean (b : Bool) : LacksNumbers (.boolean b)
  | string (written : String) : LacksNumbers (.string written)
  | array {items : List Json} (hitems : ∀ item ∈ items, LacksNumbers item) :
      LacksNumbers (.array items)
  | object {members : List (String × Json)} (hmembers : ∀ m ∈ members, LacksNumbers m.2) :
      LacksNumbers (.object members)

namespace Ssz

/-- A document presents a value: an integer as the string of its decimal digits, bytes and
bits as hexadecimal strings, a sequence item by item, and a container field by field under
the names of the fields. -/
inductive Value.PresentedBy : Value → Json → Prop where
  | uint {width n : Nat} {digits : String} (hdigits : Numeral.IsDecimal digits n) :
      PresentedBy (.uint width n) (.string digits)
  | boolean (b : Bool) : PresentedBy (.boolean b) (.boolean b)
  | root (r : Root) : PresentedBy (.root r) (.string (Hex.encode r.bytes))
  | bytes (data : ByteArray) : PresentedBy (.bytes data) (.string (Hex.encode data))
  | byteList (limit : Nat) (data : ByteArray) :
      PresentedBy (.byteList limit data) (.string (Hex.encode data))
  | bitvector (bits : List Bool) :
      PresentedBy (.bitvector bits) (.string (Hex.encode (Bits.pack bits)))
  | bitlist (limit : Nat) (bits : List Bool) :
      PresentedBy (.bitlist limit bits) (.string (Hex.encode (Bits.packWithEnd bits)))
  | list (element : Shape) (limit : Nat) {items : List Value} {documents : List Json}
      (hlength : items.length = documents.length)
      (hitems : ∀ {v d}, (v, d) ∈ items.zip documents → PresentedBy v d) :
      PresentedBy (.list element limit items) (.array documents)
  | vector (element : Shape) {items : List Value} {documents : List Json}
      (hlength : items.length = documents.length)
      (hitems : ∀ {v d}, (v, d) ∈ items.zip documents → PresentedBy v d) :
      PresentedBy (.vector element items) (.array documents)
  | array (element : Shape) {items : List Value} {documents : List Json}
      (hlength : items.length = documents.length)
      (hitems : ∀ {v d}, (v, d) ∈ items.zip documents → PresentedBy v d) :
      PresentedBy (.array element items) (.array documents)
  | container {schema : Schema} {values : List Value} {members : List (String × Json)}
      (hnames : members.map Prod.fst = schema.fields.map Field.name)
      (hlength : values.length = members.length)
      (hvalues : ∀ {v m}, (v, m) ∈ values.zip members → PresentedBy v m.2) :
      PresentedBy (.container schema values) (.object members)

theorem forall_mem_of_forall_zip
    {α β : Type} {P : β → Prop} {as : List α} {bs : List β} (hlength : as.length = bs.length)
    (hpairs : ∀ {a b}, (a, b) ∈ as.zip bs → P b) : ∀ b ∈ bs, P b := by
  intro b hb
  rw [← List.map_snd_zip hlength.ge] at hb
  obtain ⟨⟨a, b'⟩, hpair, rfl⟩ := List.mem_map.mp hb
  exact hpairs hpair

theorem Value.PresentedBy.lacksNumbers
    {v : Value} {d : Json} (hpresented : v.PresentedBy d) : d.LacksNumbers := by
  induction hpresented with
  | uint | root | bytes | byteList | bitvector | bitlist => exact .string _
  | boolean b => exact .boolean b
  | list _ _ hlength _ ih => exact .array (forall_mem_of_forall_zip hlength ih)
  | vector _ hlength _ ih => exact .array (forall_mem_of_forall_zip hlength ih)
  | array _ hlength _ ih => exact .array (forall_mem_of_forall_zip hlength ih)
  | container _ hlength _ ih => exact .object (forall_mem_of_forall_zip hlength ih)

/-! ## Shapes that quote their integers -/

mutual

/-- Whether every integer of the shape is quoted, where the field around it is quoted or
not as given. -/
def Shape.quotesIntegers (quoted : Bool) : Shape → Bool
  | .uint _ => quoted
  | .boolean | .root | .bytes _ | .byteList | .bitvector | .bitlist => true
  | .list element | .vector element | .array element _ => element.quotesIntegers quoted
  | .container schema => schema.quotesIntegers

def Schema.quotesIntegers : Schema → Bool
  | .mk _ _ fields => allQuoteIntegers fields

def allQuoteIntegers : List Field → Bool
  | [] => true
  | .mk _ quoted shape :: rest => shape.quotesIntegers quoted && allQuoteIntegers rest

end

theorem allQuoteIntegers_eq (fields : List Field) :
    allQuoteIntegers fields = fields.all fun f => f.shape.quotesIntegers f.quoted := by
  induction fields with
  | nil => rfl
  | cons f rest ih =>
      obtain ⟨name, quoted, shape⟩ := f
      rw [allQuoteIntegers, ih]
      rfl

theorem Schema.quotesIntegers_fields {schema : Schema} (hquotes : schema.quotesIntegers) :
    ∀ f ∈ schema.fields, f.shape.quotesIntegers f.quoted := by
  obtain ⟨name, sizing, fields⟩ := schema
  rw [Schema.quotesIntegers, allQuoteIntegers_eq, List.all_eq_true] at hquotes
  exact hquotes

/-! ## Documents of values -/

theorem presentedBy_items
    {items : List Value} {quoted : Bool}
    (hitems : ∀ v ∈ items, v.PresentedBy (v.toJson quoted)) :
    items.length = (items.map (·.toJson quoted)).length ∧
      ∀ {v d}, (v, d) ∈ items.zip (items.map (·.toJson quoted)) → v.PresentedBy d := by
  rw [← List.forall₂_iff_zip, List.forall₂_map_right_iff, List.forall₂_same]
  exact hitems

theorem presentedBy_members
    {values : List Value} {fields : List Field}
    (hvalues : List.Forall₂ (fun v (f : Field) => v.PresentedBy (v.toJson f.quoted))
      values fields) :
    (List.zipWith (fun (f : Field) v => (f.name, v.toJson f.quoted)) fields values).map
        Prod.fst = fields.map Field.name ∧
      List.Forall₂ (fun v (m : String × Json) => v.PresentedBy m.2) values
        (List.zipWith (fun (f : Field) v => (f.name, v.toJson f.quoted)) fields values) := by
  induction hvalues with
  | nil => exact ⟨rfl, .nil⟩
  | cons hv _ ih =>
      obtain ⟨hnames, hrest⟩ := ih
      rw [List.zipWith_cons_cons, List.map_cons, List.map_cons, hnames]
      exact ⟨rfl, .cons hv hrest⟩

/-- Where all integers are quoted, the document of a value presents it. -/
theorem Value.HasShape.presentedBy_toJson
    {v : Value} {shape : Shape} (hshape : v.HasShape shape) {quoted : Bool}
    (hquotes : shape.quotesIntegers quoted) : v.PresentedBy (v.toJson quoted) := by
  induction hshape using Value.HasShape.induction generalizing quoted with
  | uint width n _ =>
      obtain rfl : quoted = true := hquotes
      exact .uint (Numeral.isDecimal_toString n)
  | boolean b => exact .boolean b
  | root r => exact .root r
  | bytes data => exact .bytes data
  | byteList limit data _ => exact .byteList limit data
  | bitvector bits => exact .bitvector bits
  | bitlist limit bits _ => exact .bitlist limit bits
  | list element limit items _ _ ih =>
      obtain ⟨hlength, hitems⟩ := presentedBy_items fun v hv => ih v hv hquotes
      rw [toJson_list]
      exact .list element limit hlength hitems
  | vector element items _ ih =>
      obtain ⟨hlength, hitems⟩ := presentedBy_items fun v hv => ih v hv hquotes
      rw [toJson_vector]
      exact .vector element hlength hitems
  | array element items _ ih =>
      obtain ⟨hlength, hitems⟩ := presentedBy_items fun v hv => ih v hv hquotes
      rw [toJson_array]
      exact .array element hlength hitems
  | container schema values _ ih =>
      have hfields := Schema.quotesIntegers_fields hquotes
      have hvalues := (forall₂_mem ih).imp fun v f ⟨⟨_, hv⟩, _, hf⟩ => hv (hfields f hf)
      obtain ⟨hnames, hmembers⟩ := presentedBy_members hvalues
      rw [List.forall₂_iff_zip] at hmembers
      rw [toJson_container]
      exact .container hnames hmembers.1 hmembers.2

/-- Outside a quoted field the integers of a list are numbers. -/
example : (Value.list (.uint 8) 2 [.uint 8 0, .uint 8 10]).jsonText = "[0,10]" := by
  decide +kernel

end Ssz

namespace Schemas

open Ssz

theorem quotesIntegers_of_mem_all : ∀ schema ∈ all, schema.quotesIntegers := by
  decide

/-- No container of the chain writes a bare number: its text is read as a document of
objects, arrays, strings and booleans in which every integer, at any depth, is the string
of its decimal digits. -/
theorem jsonText_quotes_integers
    {schema : Schema} (hschema : schema ∈ all) {v : Value}
    (hshape : v.HasShape (.container schema)) :
    ∃ d, v.jsonText = d.render ∧ Json.parse? v.jsonText = some d ∧ d.LacksNumbers ∧
      v.PresentedBy d := by
  have hplain := hshape.isPlain_toJson (plainNames_of_mem_all schema hschema) false
  have hpresented : v.PresentedBy (v.toJson false) :=
    hshape.presentedBy_toJson (quotesIntegers_of_mem_all schema hschema)
  exact ⟨v.toJson false, rfl, Json.parse?_render hplain, hpresented.lacksNumbers, hpresented⟩

/-- An attestation of the validators 0 and 10 for the zero roots. -/
def twoAttesters : Value :=
  .container indexedAttestation
    [.list word 2048 [.uint 8 0, .uint 8 10],
      .container attestationData
        [.uint 8 (2 ^ 64 - 1), .uint 8 0, .root (.zero 32),
          .container checkpoint [.uint 8 0, .root (.zero 32)],
          .container checkpoint [.uint 8 1, .root (.zero 32)]],
      .bytes (Bytes.fill 0 signatureLength)]

theorem jsonText_twoAttesters :
    indexedAttestation ∈ all ∧ twoAttesters.HasShape (.container indexedAttestation) ∧
      ∃ d, twoAttesters.jsonText = d.render ∧ Json.parse? twoAttesters.jsonText = some d ∧
        d.LacksNumbers ∧ twoAttesters.PresentedBy d := by
  have hmember : indexedAttestation ∈ all := by simp [all, shared]
  have hshape : twoAttesters.HasShape (.container indexedAttestation) := by
    refine .container (.cons (.list (by decide) ?_) (.cons (.container ?_)
      (.cons (.bytes (Bytes.fill 0 signatureLength)) .nil)))
    · exact .cons (.uint (by decide)) (.cons (.uint (by decide)) (.nil _))
    · have hcheckpoint (epoch : Nat) (hepoch : epoch < 256 ^ 8) :
          (Value.container checkpoint [.uint 8 epoch, .root (.zero 32)]).HasShape
            (.container checkpoint) :=
        .container (.cons (.uint hepoch) (.cons (.root _) .nil))
      exact .cons (.uint (by decide)) (.cons (.uint (by decide)) (.cons (.root _)
        (.cons (hcheckpoint 0 (by decide)) (.cons (hcheckpoint 1 (by decide)) .nil))))
  exact ⟨hmember, hshape, jsonText_quotes_integers hmember hshape⟩

end Schemas

end GenesisForge
