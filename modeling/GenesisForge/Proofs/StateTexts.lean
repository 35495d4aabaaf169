import GenesisForge.Genesis.Build
import GenesisForge.Proofs.JsonRecords
import GenesisForge.Proofs.StateRoots

/-!
# State texts

The text of a state determines the state as far as its configuration leaves it open.  A
rendered document reads back, so equal texts come from equal documents, and an induction
over the shape takes the values out of their documents: integers from their digits, bytes
and bits from hexadecimal digits, the items of a sequence from those of an array.  An array
tells how many items there are, so unlike the binary encoding the text needs no agreement
on the lengths of vectors.
-/

namespace GenesisForge
namespace Ssz

/-! ## Documents of values -/

mutual

/-- Whether the configuration gave two values of one shape the same limits: lists have
equal limits and bit vectors equal lengths, and so have the items at corresponding places,
as far as both sequences go. -/
def Value.sameLimits : Value → Value → Prop
  | .byteList l _, .byteList m _ => l = m
  | .list _ l as, .list _ m bs => l = m ∧ pairwiseSameLimits as bs
  | .vector _ as, .vector _ bs => pairwiseSameLimits as bs
  | .array _ as, .array _ bs => pairwiseSameLimits as bs
  | .bitvector as, .bitvector bs => as.length = bs.length
  | .bitlist l _, .bitlist m _ => l = m
  | .container _ as, .container _ bs => pairwiseSameLimits as bs
  | _, _ => True

def pairwiseSameLimits : List Value → List Value → Prop
  | a :: as, b :: bs => a.sameLimits b ∧ pairwiseSameLimits as bs
  | _, _ => True

end

mutual

/-- The lengths of vectors are what the text does not need to be agreed on. -/
theorem Value.sameLimits_of_sameSizes :
    ∀ {v w : Value}, v.sameSizes w → v.sameLimits w
  | .uint _ _, _, _ | .boolean _, _, _ | .root _, _, _ | .bytes _, _, _ => by
      simp [Value.sameLimits]
  | .byteList _ _, w, hsizes | .bitvector _, w, hsizes | .bitlist _ _, w, hsizes => by
      cases w <;> simp_all [Value.sameSizes, Value.sameLimits]
  | .list _ _ _, w, hsizes => by
      cases w with
      | list =>
          rw [Value.sameSizes] at hsizes
          rw [Value.sameLimits]
          exact ⟨hsizes.1, pairwiseSameLimits_of_sameSizes hsizes.2⟩
      | _ => simp [Value.sameLimits]
  | .vector _ _, w, hsizes => by
      cases w with
      | vector =>
          rw [Value.sameSizes] at hsizes
          rw [Value.sameLimits]
          exact pairwiseSameLimits_of_sameSizes hsizes.2
      | _ => simp [Value.sameLimits]
  | .array _ _, w, hsizes => by
      cases w with
      | array =>
          rw [Value.sameSizes] at hsizes
          rw [Value.sameLimits]
          exact pairwiseSameLimits_of_sameSizes hsizes
      | _ => simp [Value.sameLimits]
  | .container _ _, w, hsizes => by
      cases w with
      | container =>
          rw [Value.sameSizes] at hsizes
          rw [Value.sameLimits]
          exact pairwiseSameLimits_of_sameSizes hsizes
      | _ => simp [Value.sameLimits]

theorem pairwiseSameLimits_of_sameSizes :
    ∀ {as bs : List Value}, pairwiseSameSizes as bs → pairwiseSameLimits as bs
  | [], _, _ | _ :: _, [], _ => by simp [pairwiseSameLimits]
  | a :: as, b :: bs, hsizes => by
      rw [pairwiseSameSizes] at hsizes
      rw [pairwiseSameLimits]
      exact ⟨Value.sameLimits_of_sameSizes hsizes.1, pairwiseSameLimits_of_sameSizes hsizes.2⟩

end

mutual

/-- Whether no name of a field in the shape needs an escape. -/
def Shape.plainNames : Shape → Bool
  | .uint _ | .boolean | .root | .bytes _ | .byteList | .bitvector | .bitlist => true
  | .list element | .vector element | .array element _ => element.plainNames
  | .container schema => schema.plainNames

def Schema.plainNames : Schema → Bool
  | .mk _ _ fields => allPlainNames fields

def allPlainNames : List Field → Bool
  | [] => true
  | .mk name _ shape :: rest =>
      decide (Json.AreVerbatim name.toList) && shape.plainNames && allPlainNames rest

end

theorem allPlainNames_eq (fields : List Field) :
    allPlainNames fields =
      fields.all fun f => decide (Json.AreVerbatim f.name.toList) && f.shape.plainNames := by
  induction fields with
  | nil => rfl
  | cons f rest ih =>
      obtain ⟨name, quoted, shape⟩ := f
      rw [allPlainNames, ih]
      rfl

theorem Schema.plainNames_fields {schema : Schema} (hnames : schema.plainNames) :
    ∀ f ∈ schema.fields, Json.AreVerbatim f.name.toList ∧ f.shape.plainNames := by
  obtain ⟨name, sizing, fields⟩ := schema
  rw [Schema.plainNames, allPlainNames_eq, List.all_eq_true] at hnames
  intro f hf
  simpa using hnames f hf

theorem membersToJson_eq (fields : List Field) (values : List Value) :
    membersToJson fields values =
      List.zipWith (fun (f : Field) v => (f.name, v.toJson f.quoted)) fields values := by
  induction fields generalizing values with
  | nil => simp [membersToJson]
  | cons f rest ih =>
      obtain ⟨name, quoted, shape⟩ := f
      cases values with
      | nil => simp [membersToJson]
      | cons v values => simp [membersToJson, ih, Field.name, Field.quoted]

theorem toJson_list (quoted : Bool) (element : Shape) (limit : Nat) (items : List Value) :
    (Value.list element limit items).toJson quoted = .array (items.map (·.toJson quoted)) := by
  simp [Value.toJson, Json.itemsToJson_eq]

theorem toJson_vector (quoted : Bool) (element : Shape) (items : List Value) :
    (Value.vector element items).toJson quoted = .array (items.map (·.toJson quoted)) := by
  simp [Value.toJson, Json.itemsToJson_eq]

theorem toJson_array (quoted : Bool) (element : Shape) (items : List Value) :
    (Value.array element items).toJson quoted = .array (items.map (·.toJson quoted)) := by
  simp [Value.toJson, Json.itemsToJson_eq]

theorem toJson_container (quoted : Bool) (schema : Schema) (values : List Value) :
    (Value.container schema values).toJson quoted =
      .object (List.zipWith (fun (f : Field) v => (f.name, v.toJson f.quoted))
        schema.fields values) := by
  rw [Value.toJson, membersToJson_eq]

/-! ## Reading rendered values back -/

theorem isPlain_items
    {items : List Value} {quoted : Bool} (hitems : ∀ v ∈ items, (v.toJson quoted).IsPlain) :
    (Json.array (items.map (·.toJson quoted))).IsPlain := by
  refine .array fun item hitem => ?_
  obtain ⟨v, hv, rfl⟩ := List.mem_map.mp hitem
  exact hitems v hv

theorem isPlain_members
    {values : List Value} {fields : List Field}
    (hnames : ∀ f ∈ fields, Json.AreVerbatim f.name.toList)
    (hvalues : List.Forall₂ (fun v (f : Field) => (v.toJson f.quoted).IsPlain) values fields) :
    (Json.object (List.zipWith (fun (f : Field) v => (f.name, v.toJson f.quoted))
      fields values)).IsPlain := by
  have hmembers : ∀ m ∈ List.zipWith (fun (f : Field) v => (f.name, v.toJson f.quoted))
      fields values, Json.AreVerbatim m.1.toList ∧ m.2.IsPlain := by
    induction hvalues with
    | nil => simp
    | cons hv _ ih =>
        rw [List.forall_mem_cons] at hnames
        rw [List.zipWith_cons_cons, List.forall_mem_cons]
        exact ⟨⟨hnames.1, hv⟩, ih hnames.2⟩
  exact .object (fun m hm => (hmembers m hm).1) fun m hm => (hmembers m hm).2

/-- A value is written without escapes and its integers without signs and fractions. -/
theorem Value.HasShape.isPlain_toJson
    {v : Value} {shape : Shape} (hshape : v.HasShape shape) (hnames : shape.plainNames)
    (quoted : Bool) : (v.toJson quoted).IsPlain := by
  induction hshape using Value.HasShape.induction generalizing quoted with
  | uint width n _ => exact Json.isPlain_integerJson quoted n
  | boolean b => exact .boolean b
  | root r => exact Json.isPlain_hexJson r.bytes
  | bytes data => exact Json.isPlain_hexJson data
  | byteList limit data _ => exact Json.isPlain_hexJson data
  | bitvector bits => exact Json.isPlain_hexJson (Bits.pack bits)
  | bitlist limit bits _ => exact Json.isPlain_hexJson (Bits.packWithEnd bits)
  | list element limit items _ _ ih =>
      rw [toJson_list]
      exact isPlain_items fun v hv => ih v hv hnames quoted
  | vector element items _ ih =>
      rw [toJson_vector]
      exact isPlain_items fun v hv => ih v hv hnames quoted
  | array element items _ ih =>
      rw [toJson_array]
      exact isPlain_items fun v hv => ih v hv hnames quoted
  | container schema values _ ih =>
      have hfieldNames := Schema.plainNames_fields hnames
      rw [toJson_container]
      refine isPlain_members (fun f hf => (hfieldNames f hf).1) ((forall₂_mem ih).imp ?_)
      rintro v f ⟨⟨_, hv⟩, _, hf⟩
      exact hv (hfieldNames f hf).2 f.quoted

theorem render_injective
    {d e : Json} (hd : d.IsPlain) (he : e.IsPlain) (htext : d.render = e.render) : d = e :=
  Option.some.inj <| by rw [← Json.parse?_render hd, htext, Json.parse?_render he]

/-! ## Telling documents apart -/

theorem hexJson_injective {a b : ByteArray} (hjson : hexJson a = hexJson b) : a = b :=
  Option.some.inj <| by
    rw [← Hex.decode?_encode a, Json.string.inj hjson, Hex.decode?_encode]

theorem integerJson_injective
    {quoted : Bool} {n m : Nat} (hjson : integerJson quoted n = integerJson quoted m) : n = m := by
  have htext : toString n = toString m := by
    cases quoted with
    | false => exact Json.number.inj hjson
    | true => exact Json.string.inj hjson
  exact Option.some.inj <| by
    rw [← Json.natural?_toString n, htext, Json.natural?_toString]

theorem items_eq_of_toJson_eq
    {as bs : List Value} {quoted : Bool} (hlimits : pairwiseSameLimits as bs)
    (hjson : as.map (·.toJson quoted) = bs.map (·.toJson quoted))
    (heach : ∀ a ∈ as, ∀ b ∈ bs, a.sameLimits b → a.toJson quoted = b.toJson quoted → a = b) :
    as = bs := by
  induction as generalizing bs with
  | nil => exact (List.map_eq_nil_iff.mp hjson.symm).symm
  | cons a as ih =>
      cases bs with
      | nil => exact absurd hjson (List.cons_ne_nil _ _)
      | cons b bs =>
          rw [pairwiseSameLimits] at hlimits
          rw [List.map_cons, List.map_cons, List.cons.injEq] at hjson
          obtain rfl := heach a List.mem_cons_self b List.mem_cons_self hlimits.1 hjson.1
          rw [ih hlimits.2 hjson.2 fun v hv w hw =>
            heach v (List.mem_cons_of_mem _ hv) w (List.mem_cons_of_mem _ hw)]

theorem values_eq_of_members_eq
    {P Q : Value → Field → Prop} {as bs : List Value} {fields : List Field}
    (has : List.Forall₂ P as fields) (hbs : List.Forall₂ Q bs fields)
    (hlimits : pairwiseSameLimits as bs)
    (hjson : List.zipWith (fun (f : Field) v => (f.name, v.toJson f.quoted)) fields as =
      List.zipWith (fun (f : Field) v => (f.name, v.toJson f.quoted)) fields bs)
    (heach : ∀ a f b, P a f → Q b f → a.sameLimits b →
      a.toJson f.quoted = b.toJson f.quoted → a = b) : as = bs := by
  induction has generalizing bs with
  | nil => cases hbs; rfl
  | @cons a f as fields ha _ ih =>
      cases hbs with
      | @cons b f bs fields hb hbs =>
          rw [pairwiseSameLimits] at hlimits
          rw [List.zipWith_cons_cons, List.zipWith_cons_cons, List.cons.injEq,
            Prod.mk.injEq] at hjson
          obtain rfl := heach a f b ha hb hlimits.1 hjson.1.2
          rw [ih hbs hlimits.2 hjson.2]

/-- Two values of one shape that were given the same limits are equal if their documents
are. -/
theorem Value.HasShape.eq_of_toJson_eq
    {v w : Value} {shape : Shape} {quoted : Bool} (hv : v.HasShape shape)
    (hw : w.HasShape shape) (hlimits : v.sameLimits w)
    (hjson : v.toJson quoted = w.toJson quoted) : v = w := by
  induction hv using Value.HasShape.induction generalizing w quoted with
  | uint width n _ =>
      cases hw with
      | uint =>
          rw [Value.toJson, Value.toJson] at hjson
          rw [integerJson_injective hjson]
  | boolean b =>
      cases hw with
      | boolean c =>
          rw [Value.toJson, Value.toJson] at hjson
          rw [Json.boolean.inj hjson]
  | root r =>
      cases hw with
      | root s =>
          rw [Value.toJson, Value.toJson] at hjson
          rw [FixedBytes.ext (hexJson_injective hjson)]
  | bytes data =>
      obtain ⟨other, rfl, -⟩ := hw.exists_eq_bytes
      rw [Value.toJson, Value.toJson] at hjson
      rw [hexJson_injective hjson]
  | byteList limit data _ =>
      cases hw with
      | byteList =>
          rw [Value.sameLimits] at hlimits
          rw [Value.toJson, Value.toJson] at hjson
          rw [hlimits, hexJson_injective hjson]
  | list element limit items _ _ ih =>
      cases hw with
      | @list _ otherLimit others _ hothers =>
          rw [allHaveShape_iff] at hothers
          rw [Value.sameLimits] at hlimits
          rw [toJson_list, toJson_list] at hjson
          rw [hlimits.1, items_eq_of_toJson_eq hlimits.2 (Json.array.inj hjson)
            fun a ha b hb => ih a ha (hothers b hb)]
  | vector element items _ ih =>
      cases hw with
      | @vector _ others hothers =>
          rw [allHaveShape_iff] at hothers
          rw [Value.sameLimits] at hlimits
          rw [toJson_vector, toJson_vector] at hjson
          rw [items_eq_of_toJson_eq hlimits (Json.array.inj hjson)
            fun a ha b hb => ih a ha (hothers b hb)]
  | array element items _ ih =>
      obtain ⟨others, rfl, -, hothers⟩ := hw.exists_eq_array
      rw [Value.sameLimits] at hlimits
      rw [toJson_array, toJson_array] at hjson
      rw [items_eq_of_toJson_eq hlimits (Json.array.inj hjson)
        fun a ha b hb => ih a ha (hothers b hb)]
  | bitvector bits =>
      cases hw with
      | bitvector others =>
          rw [Value.sameLimits] at hlimits
          rw [Value.toJson, Value.toJson] at hjson
          rw [Bits.pack_injective hlimits (hexJson_injective hjson)]
  | bitlist limit bits _ =>
      cases hw with
      | bitlist =>
          rw [Value.sameLimits] at hlimits
          rw [Value.toJson, Value.toJson] at hjson
          rw [hlimits, Bits.packWithEnd_injective (hexJson_injective hjson)]
  | container schema values _ ih =>
      cases hw with
      | @container _ others hothers =>
          rw [hasFields_iff] at hothers
          rw [Value.sameLimits] at hlimits
          rw [toJson_container, toJson_container] at hjson
          rw [values_eq_of_members_eq ih hothers hlimits (Json.object.inj hjson)]
          rintro a f b ⟨_, ha⟩ hb hab hdocuments
          exact ha hb hab hdocuments

end Ssz

/-! ## Texts of states -/

open Ssz

namespace Schemas

theorem plainNames_of_mem_all : ∀ schema ∈ all, schema.plainNames := by
  decide +kernel

end Schemas

namespace VersionedState

variable {H : Type} [Serializable H]

theorem artifact_json_injective
    {a b : VersionedState H} (hheader : Serializable.shape H ∈ Schemas.headers)
    (hfork : a.fork = b.fork) (hlimits : a.value.sameLimits b.value)
    (htext : artifact a .json = artifact b .json) : a = b := by
  obtain ⟨schema, hschema, hashape, hbshape⟩ := hasShape_value hheader hfork
  have hnames := Schemas.plainNames_of_mem_all schema hschema
  have hrender : (a.value.toJson false).render = (b.value.toJson false).render :=
    String.toByteArray_inj.mp htext
  have hjson := render_injective (hashape.isPlain_toJson hnames false)
    (hbshape.isPlain_toJson hnames false) hrender
  exact value_injective hfork (hashape.eq_of_toJson_eq hbshape hlimits hjson)

theorem artifact_ssz_injective
    {a b : VersionedState H} (hheader : Serializable.shape H ∈ Schemas.headers)
    (hfork : a.fork = b.fork) (hsizes : a.value.sameSizes b.value)
    (hfit : (artifact a .ssz).size < 2 ^ 32)
    (hbytes : artifact a .ssz = artifact b .ssz) : a = b := by
  obtain ⟨schema, hschema, hashape, hbshape⟩ := hasShape_value hheader hfork
  exact value_injective hfork (hashape.eq_of_encode_eq hbshape
    (Schemas.wellFormed_of_mem_all schema hschema) hsizes hfit hbytes)

theorem size_artifact_ssz_le
    (hheader : Serializable.shape H ∈ Schemas.headers) (state : VersionedState H) :
    (artifact state .ssz).size ≤ state.value.byteLength := by
  obtain ⟨schema, hschema, hshape, -⟩ := hasShape_value (a := state) (b := state) hheader rfl
  rw [hshape.byteLength_eq (Schemas.wellFormed_of_mem_all schema hschema)]
  exact Nat.le_add_right _ _

theorem serialize_eq_ok_iff
    {builder : StateFork} {state : VersionedState H} {form : ContentType} {bytes : ByteArray} :
    serialize builder state form = .ok bytes ↔
      state.fork = builder.toForkName ∧ artifact state form = bytes := by
  unfold serialize
  split
  · next hfork => simp [hfork]
  · next hfork => simp [hfork]

/-- A state of the same fork that was given the same limits is written as the same text
only if it is the same state.  So texts tell states apart just as binary encodings do,
where these determine the state. -/
theorem text_determines_state
    {a b : VersionedState H} (hheader : Serializable.shape H ∈ Schemas.headers)
    (hfork : a.fork = b.fork) (hlimits : a.value.sameLimits b.value) :
    (∀ (builder : StateFork) (text : ByteArray), serialize builder a .json = .ok text →
      (serialize builder b .json = .ok text ↔ a = b)) ∧
    (a.value.sameSizes b.value → (artifact a .ssz).size < 2 ^ 32 →
      (artifact a .json = artifact b .json ↔ artifact a .ssz = artifact b .ssz)) := by
  have hjson : artifact a .json = artifact b .json ↔ a = b :=
    ⟨artifact_json_injective hheader hfork hlimits, congrArg (artifact · .json)⟩
  refine ⟨fun builder text ha => ?_, fun hsizes hfit => ?_⟩
  · obtain ⟨hbuilder, rfl⟩ := serialize_eq_ok_iff.mp ha
    rw [serialize_eq_ok_iff, ← hfork, and_iff_right hbuilder, ← hjson]
    exact eq_comm
  · rw [hjson]
    exact ⟨congrArg (artifact · .ssz), artifact_ssz_injective hheader hfork hsizes hfit⟩

theorem text_runningNext :
    serialize .electra running .json = .ok (artifact running .json) ∧
      serialize .electra runningNext .json ≠ .ok (artifact running .json) ∧
      artifact running .ssz ≠ artifact runningNext .ssz := by
  have hlimits : running.value.sameLimits runningNext.value :=
    Value.sameLimits_of_sameSizes sameSizes_runningNext
  have hfit : (artifact running .ssz).size < 2 ^ 32 :=
    Nat.lt_of_le_of_lt (size_artifact_ssz_le List.mem_cons_self running) (by decide +kernel)
  have hserialize : serialize .electra running .json = .ok (artifact running .json) :=
    serialize_eq_ok_iff.mpr ⟨rfl, rfl⟩
  obtain ⟨htexts, hforms⟩ :=
    text_determines_state (a := running) (b := runningNext) List.mem_cons_self rfl hlimits
  have htext : serialize .electra runningNext .json ≠ .ok (artifact running .json) := fun hsame =>
    running_ne_runningNext ((htexts .electra _ hserialize).mp hsame)
  refine ⟨hserialize, htext, fun hbytes => htext ?_⟩
  exact serialize_eq_ok_iff.mpr
    ⟨rfl, ((hforms sameSizes_runningNext hfit).mpr hbytes).symm⟩

end VersionedState

end GenesisForge
