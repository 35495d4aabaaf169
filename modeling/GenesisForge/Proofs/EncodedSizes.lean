import GenesisForge.Proofs.BitPacking
import GenesisForge.Proofs.EncodingLayout

/-!
# Sizes of encoded values

How many bytes a value takes is announced by one recursion and decided by
another.  The two agree on every well-formed shape, except that a bit vector
without bits announces a byte that it does not write.

Shapes and values are mutually nested with lists of them.  The nesting is
removed once, by an induction principle on the values of a shape whose
hypotheses speak of all items of a sequence and of all fields of a container.
-/

namespace GenesisForge
namespace Ssz

/-! ## Values of a shape -/

theorem allHaveShape_iff {items : List Value} {shape : Shape} :
    Value.AllHaveShape items shape ↔ ∀ v ∈ items, v.HasShape shape := by
  constructor
  · intro hall
    induction items with
    | nil => simp
    | cons v rest ih =>
        cases hall with
        | cons hhead htail => simpa [hhead] using ih htail
  · intro hall
    induction items with
    | nil => exact .nil shape
    | cons v rest ih =>
        rw [List.forall_mem_cons] at hall
        exact .cons hall.1 (ih hall.2)

theorem hasFields_iff {values : List Value} {fields : List Field} :
    Value.HasFields values fields ↔
      List.Forall₂ (fun v (f : Field) => v.HasShape f.shape) values fields := by
  constructor
  · intro hfields
    induction values generalizing fields with
    | nil => cases hfields; exact .nil
    | cons v rest ih =>
        cases hfields with
        | cons hhead htail => exact .cons hhead (ih htail)
  · intro hfields
    induction hfields with
    | nil => exact .nil
    | @cons v f rest fields hhead _ ih =>
        obtain ⟨name, quoted, shape⟩ := f
        exact .cons hhead ih

@[elab_as_elim]
theorem Value.HasShape.induction
    {motive : ∀ (v : Value) (shape : Shape), v.HasShape shape → Prop}
    (uint : ∀ width n (h : n < 256 ^ width),
      motive (.uint width n) (.uint width) (.uint h))
    (boolean : ∀ b, motive (.boolean b) .boolean (.boolean b))
    (root : ∀ r, motive (.root r) .root (.root r))
    (bytes : ∀ data, motive (.bytes data) (.bytes data.size) (.bytes data))
    (byteList : ∀ limit data (h : data.size ≤ limit),
      motive (.byteList limit data) .byteList (.byteList h))
    (list : ∀ element limit items (h : items.length ≤ limit)
      (hitems : ∀ v ∈ items, v.HasShape element),
      (∀ v (hv : v ∈ items), motive v element (hitems v hv)) →
      motive (.list element limit items) (.list element)
        (.list h (allHaveShape_iff.mpr hitems)))
    (vector : ∀ element items (hitems : ∀ v ∈ items, v.HasShape element),
      (∀ v (hv : v ∈ items), motive v element (hitems v hv)) →
      motive (.vector element items) (.vector element)
        (.vector (allHaveShape_iff.mpr hitems)))
    (array : ∀ element items (hitems : ∀ v ∈ items, v.HasShape element),
      (∀ v (hv : v ∈ items), motive v element (hitems v hv)) →
      motive (.array element items) (.array element items.length)
        (.array (allHaveShape_iff.mpr hitems)))
    (bitvector : ∀ bits, motive (.bitvector bits) .bitvector (.bitvector bits))
    (bitlist : ∀ limit bits (h : bits.length ≤ limit),
      motive (.bitlist limit bits) .bitlist (.bitlist h))
    (container : ∀ schema values
      (hfields : List.Forall₂ (fun v (f : Field) => v.HasShape f.shape)
        values schema.fields),
      List.Forall₂
        (fun v (f : Field) =>
          ∃ h : v.HasShape f.shape, motive v f.shape h)
        values schema.fields →
      motive (.container schema values) (.container schema)
        (.container (hasFields_iff.mpr hfields)))
    {v : Value} {shape : Shape} (hshape : v.HasShape shape) :
    motive v shape hshape :=
  @Value.HasShape.rec motive
    (fun items shape hitems =>
      ∀ v (hv : v ∈ items), motive v shape (allHaveShape_iff.mp hitems v hv))
    (fun values fields _ =>
      List.Forall₂
        (fun v (f : Field) =>
          ∃ h : v.HasShape f.shape, motive v f.shape h)
        values fields)
    (fun h => uint _ _ h) boolean root bytes (fun h => byteList _ _ h)
    (fun h hall ih => list _ _ _ h (allHaveShape_iff.mp hall) ih)
    (fun hall ih => vector _ _ (allHaveShape_iff.mp hall) ih)
    (fun hall ih => array _ _ (allHaveShape_iff.mp hall) ih)
    bitvector (fun h => bitlist _ _ h)
    (fun h ih => container _ _ (hasFields_iff.mp h) ih)
    (fun _ => by simp)
    (fun _ _ hhead htail v hv => by
      rcases List.mem_cons.mp hv with rfl | hv
      · exact hhead
      · exact htail v hv)
    .nil
    (fun h _ hhead htail => by
      exact .cons ⟨h, hhead⟩ htail)
    v shape hshape

theorem forall₂_mem
    {α β : Type} {R : α → β → Prop} {as : List α} {bs : List β}
    (hrel : List.Forall₂ R as bs) :
    List.Forall₂ (fun a b => R a b ∧ a ∈ as ∧ b ∈ bs) as bs := by
  induction hrel with
  | nil => exact .nil
  | cons hhead _ ih =>
      refine .cons ⟨hhead, List.mem_cons_self, List.mem_cons_self⟩ (ih.imp ?_)
      rintro a b ⟨hab, ha, hb⟩
      exact ⟨hab, List.mem_cons_of_mem _ ha, List.mem_cons_of_mem _ hb⟩

theorem forall_mem_of_forall₂
    {α β : Type} {R : α → β → Prop} {P : α → Prop}
    {as : List α} {bs : List β} (hrel : List.Forall₂ R as bs)
    (hleft : ∀ a b, R a b → P a) : ∀ a ∈ as, P a := by
  induction hrel with
  | nil => simp
  | cons hhead _ ih => exact List.forall_mem_cons.mpr ⟨hleft _ _ hhead, ih⟩

/-! ## Shapes that tell sizes -/

mutual

/-- Whether the shape alone tells how many bytes each of its values takes. -/
def Shape.isStatic : Shape → Bool
  | .uint _ | .boolean | .root | .bytes _ => true
  | .byteList | .list _ | .vector _ | .bitvector | .bitlist => false
  | .array element _ => element.isStatic
  | .container schema => schema.isStatic

def Schema.isStatic : Schema → Bool
  | .mk _ (.byValue _) _ => false
  | .mk _ .byShape fields => allStatic fields

def allStatic : List Field → Bool
  | [] => true
  | .mk _ _ shape :: rest => shape.isStatic && allStatic rest

end

mutual

/-- Whether the sizes that the encoder takes from the shape are right: whatever
is sized by shape is static, a container sized by its values says rightly
whether it is fixed, and the items of a list can be counted. -/
def Shape.wellFormed : Shape → Bool
  | .uint width => 0 < width && 32 % width == 0
  | .boolean | .root | .bytes _ | .byteList | .bitvector | .bitlist => true
  | .list element =>
      element.wellFormed &&
        (!element.isFixed || (element.isStatic && 0 < element.staticLength))
  | .vector element => element.wellFormed
  | .array element _ =>
      element.wellFormed && (!element.isFixed || element.isStatic)
  | .container schema => schema.wellFormed

def Schema.wellFormed : Schema → Bool
  | .mk _ (.byValue fixed) fields =>
      allWellFormed fields && fixed == allFixed fields
  | .mk _ .byShape fields =>
      allWellFormed fields &&
        fields.all fun f => !f.shape.isFixed || f.shape.isStatic

def allWellFormed : List Field → Bool
  | [] => true
  | .mk _ _ shape :: rest => shape.wellFormed && allWellFormed rest

end

theorem allFixed_eq (fields : List Field) :
    allFixed fields = fields.all (·.shape.isFixed) := by
  induction fields with
  | nil => rfl
  | cons f rest ih => obtain ⟨name, quoted, shape⟩ := f; simp [allFixed, ih, Field.shape]

theorem allStatic_eq (fields : List Field) :
    allStatic fields = fields.all (·.shape.isStatic) := by
  induction fields with
  | nil => rfl
  | cons f rest ih => obtain ⟨name, quoted, shape⟩ := f; simp [allStatic, ih, Field.shape]

theorem allWellFormed_eq (fields : List Field) :
    allWellFormed fields = fields.all (·.shape.wellFormed) := by
  induction fields with
  | nil => rfl
  | cons f rest ih => obtain ⟨name, quoted, shape⟩ := f; simp [allWellFormed, ih, Field.shape]

mutual

theorem Shape.isFixed_of_isStatic :
    ∀ {shape : Shape}, shape.isStatic → shape.isFixed
  | .uint _, _ | .boolean, _ | .root, _ | .bytes _, _ => rfl
  | .array element _, hstatic =>
      @Shape.isFixed_of_isStatic element hstatic
  | .container schema, hstatic =>
      @Schema.isFixed_of_isStatic schema hstatic

theorem Schema.isFixed_of_isStatic :
    ∀ {schema : Schema}, schema.isStatic → schema.isFixed
  | .mk _ .byShape fields, hstatic =>
      @allFixed_of_allStatic fields hstatic

theorem allFixed_of_allStatic :
    ∀ {fields : List Field}, allStatic fields → allFixed fields
  | [], _ => rfl
  | .mk _ _ shape :: rest, hstatic => by
      rw [allStatic, Bool.and_eq_true] at hstatic
      rw [allFixed, Bool.and_eq_true]
      exact ⟨Shape.isFixed_of_isStatic hstatic.1,
        allFixed_of_allStatic hstatic.2⟩

end

theorem allStatic_of_allFixed
    {fields : List Field}
    (hstatic : ∀ f ∈ fields, f.shape.isFixed → f.shape.isStatic)
    (hfixed : allFixed fields) : allStatic fields := by
  rw [allFixed_eq, List.all_eq_true] at hfixed
  rw [allStatic_eq, List.all_eq_true]
  exact fun f hf => hstatic f hf (hfixed f hf)

/-- What the fields of a well-formed container that is sized by its shape are
known for. -/
theorem Schema.wellFormed_byShape
    {name : String} {fields : List Field}
    (hformed : (Schema.mk name .byShape fields).wellFormed) :
    (∀ f ∈ fields, f.shape.wellFormed) ∧
      ∀ f ∈ fields, f.shape.isFixed → f.shape.isStatic := by
  rw [Schema.wellFormed, Bool.and_eq_true, allWellFormed_eq,
    List.all_eq_true, List.all_eq_true] at hformed
  refine ⟨hformed.1, fun f hf hfixed => ?_⟩
  simpa [hfixed] using hformed.2 f hf

theorem Schema.wellFormed_byValue
    {name : String} {fixed : Bool} {fields : List Field}
    (hformed : (Schema.mk name (.byValue fixed) fields).wellFormed) :
    (∀ f ∈ fields, f.shape.wellFormed) ∧ fixed = allFixed fields := by
  rw [Schema.wellFormed, Bool.and_eq_true, allWellFormed_eq,
    List.all_eq_true] at hformed
  exact ⟨hformed.1, by simpa using hformed.2⟩

theorem Schema.wellFormed_fields
    {schema : Schema} (hformed : schema.wellFormed) :
    ∀ f ∈ schema.fields, f.shape.wellFormed := by
  obtain ⟨name, sizing, fields⟩ := schema
  cases sizing with
  | byShape => exact (Schema.wellFormed_byShape hformed).1
  | byValue fixed => exact (Schema.wellFormed_byValue hformed).1

theorem staticLengths_eq (fields : List Field) :
    staticLengths fields = (fields.map (·.shape.staticLength)).sum := by
  induction fields with
  | nil => rfl
  | cons f rest ih => obtain ⟨name, quoted, shape⟩ := f; simp [staticLengths, ih, Field.shape]

/-! ## Encodings of sequences and containers -/

theorem encodeInPlace_eq (out : ByteArray) (items : List Value) :
    encodeInPlace out items = out ++ encodeInPlace ByteArray.empty items := by
  induction items generalizing out with
  | nil => simp [encodeInPlace]
  | cons v rest ih =>
      rw [encodeInPlace, encodeInPlace, ih (out ++ v.encode),
        ih (ByteArray.empty ++ v.encode), ByteArray.empty_append,
        ByteArray.append_assoc]

theorem encodeInPlace_cons (v : Value) (rest : List Value) :
    encodeInPlace ByteArray.empty (v :: rest) =
      v.encode ++ encodeInPlace ByteArray.empty rest := by
  rw [encodeInPlace, encodeInPlace_eq, ByteArray.empty_append]

theorem variableParts_eq (before : List Part) (items : List Value) :
    variableParts before items =
      before.reverse ++ items.map fun v => ⟨false, v.encode⟩ := by
  induction items generalizing before with
  | nil => simp [variableParts]
  | cons v rest ih => simp [variableParts, ih]

theorem fieldParts_eq (fields : List Field) (values : List Value) :
    fieldParts fields values =
      List.zipWith (fun (f : Field) v => ⟨f.shape.isFixed, v.encode⟩)
        fields values := by
  induction fields generalizing values with
  | nil => simp [fieldParts]
  | cons f rest ih =>
      obtain ⟨name, quoted, shape⟩ := f
      cases values with
      | nil => simp [fieldParts]
      | cons v values => simp [fieldParts, ih, Field.shape]

theorem fieldParts_inPlace
    {fields : List Field} (hfixed : allFixed fields) (values : List Value) :
    ∀ part ∈ fieldParts fields values, part.isFixed := by
  induction fields generalizing values with
  | nil => simp [fieldParts]
  | cons f rest ih =>
      obtain ⟨name, quoted, shape⟩ := f
      rw [allFixed, Bool.and_eq_true] at hfixed
      cases values with
      | nil => simp [fieldParts]
      | cons v values =>
          rw [fieldParts, List.forall_mem_cons]
          exact ⟨hfixed.1, ih hfixed.2 values⟩

/-- The encoding of a sequence of items of one shape. -/
def encodeItems (element : Shape) (items : List Value) : ByteArray :=
  if element.isFixed then encodeInPlace ByteArray.empty items
  else
    layOut (offsetWidth * items.length)
      (items.map fun v => ⟨false, v.encode⟩)

theorem encode_list (element : Shape) (limit : Nat) (items : List Value) :
    (Value.list element limit items).encode = encodeItems element items := by
  simp [Value.encode, encodeItems, variableParts_eq]

theorem encode_vector (element : Shape) (items : List Value) :
    (Value.vector element items).encode = encodeItems element items := by
  simp [Value.encode, encodeItems, variableParts_eq]

theorem encode_array (element : Shape) (items : List Value) :
    (Value.array element items).encode = encodeItems element items := by
  simp [Value.encode, encodeItems, variableParts_eq]

theorem encode_container (schema : Schema) (values : List Value) :
    (Value.container schema values).encode =
      layOut (schema.fixedPartLength values)
        (List.zipWith (fun (f : Field) v => ⟨f.shape.isFixed, v.encode⟩)
          schema.fields values) := by
  rw [Value.encode, fieldParts_eq]

/-! ## Written sizes -/

/-- The bytes that a part takes in all, its payload included. -/
def Part.extent (part : Part) : Nat :=
  (if part.isFixed then 0 else offsetWidth) + part.bytes.size

theorem size_layOut (fixedLength : Nat) (parts : List Part) :
    (layOut fixedLength parts).size = (parts.map Part.extent).sum := by
  rw [layOut_eq, ByteArray.size_append, size_fixedPart]
  induction parts with
  | nil => rfl
  | cons part rest ih =>
      obtain ⟨isFixed, bytes⟩ := part
      simp only [List.map_cons, List.sum_cons]
      cases isFixed with
      | true =>
          simp only [payloads, Part.slotSize, Part.extent, if_true]
          omega
      | false =>
          simp only [payloads, Part.slotSize, Part.extent, ByteArray.size_append,
            Bool.false_eq_true, if_false]
          omega

theorem size_encodeInPlace (items : List Value) :
    (encodeInPlace ByteArray.empty items).size =
      (items.map fun v => v.encode.size).sum := by
  induction items with
  | nil => rfl
  | cons v rest ih => simp [encodeInPlace_cons, ih]

theorem size_encodeItems (element : Shape) (items : List Value) :
    (encodeItems element items).size =
      (items.map fun v =>
        (if element.isFixed then 0 else offsetWidth) + v.encode.size).sum := by
  unfold encodeItems
  by_cases hfixed : element.isFixed
  · simp [hfixed, size_encodeInPlace]
  · simp [hfixed, size_layOut, Part.extent, Function.comp_def]

theorem size_encode_container (schema : Schema) (values : List Value) :
    (Value.container schema values).encode.size =
      (List.zipWith
        (fun (f : Field) (v : Value) =>
          (if f.shape.isFixed then 0 else offsetWidth) + v.encode.size)
        schema.fields values).sum := by
  rw [encode_container, size_layOut, List.map_zipWith]
  rfl

theorem sum_map_eq_mul
    {items : List Value} {written : Value → Nat} {told : Nat}
    (heach : ∀ v ∈ items, written v = told) :
    (items.map written).sum = told * items.length := by
  rw [List.map_congr_left heach, List.map_const', List.sum_replicate_nat,
    Nat.mul_comm]

theorem sum_zipWith_eq_sum_map
    {values : List Value} {fields : List Field}
    {written : Field → Value → Nat} {told : Field → Nat}
    (heach : List.Forall₂ (fun v f => written f v = told f) values fields) :
    (List.zipWith written fields values).sum = (fields.map told).sum := by
  induction heach with
  | nil => rfl
  | cons hhead _ ih => simp [hhead, ih]

theorem Value.HasShape.size_encode_of_isStatic
    {v : Value} {shape : Shape} (hshape : v.HasShape shape)
    (hstatic : shape.isStatic) : v.encode.size = shape.staticLength := by
  induction hshape using Value.HasShape.induction with
  | uint width n hn => simp [Value.encode, Bytes.size_littleEndian, Shape.staticLength]
  | boolean b => simp [Value.encode, Bytes.size_littleEndian, Shape.staticLength]
  | root r => simp [Value.encode, r.size_eq, Shape.staticLength]
  | bytes data => simp [Value.encode, Shape.staticLength]
  | byteList | list | vector | bitvector | bitlist => simp [Shape.isStatic] at hstatic
  | array element items hitems ih =>
      rw [Shape.isStatic] at hstatic
      have hfixed := Shape.isFixed_of_isStatic hstatic
      have heach : ∀ v ∈ items, v.encode.size = element.staticLength :=
        fun v hv => ih v hv hstatic
      rw [encode_array, size_encodeItems, Shape.staticLength]
      simpa [hfixed] using sum_map_eq_mul heach
  | container schema values hfields ih =>
      obtain ⟨name, sizing, fields⟩ := schema
      cases sizing with
      | byValue fixed => simp [Shape.isStatic, Schema.isStatic] at hstatic
      | byShape =>
          rw [Shape.isStatic, Schema.isStatic] at hstatic
          have hfixed := allFixed_of_allStatic hstatic
          rw [size_encode_container, Shape.staticLength, Schema.staticLength,
            if_pos hfixed, staticLengths_eq]
          apply sum_zipWith_eq_sum_map
          rw [allStatic_eq, List.all_eq_true] at hstatic
          refine (forall₂_mem ih).imp ?_
          rintro v f ⟨⟨_, hsize⟩, _, hf⟩
          have hfield := hstatic f hf
          rw [hsize hfield, if_pos (Shape.isFixed_of_isStatic hfield),
            Nat.zero_add]

/-! ## Announced sizes -/

mutual

/-- How many of the bit vectors inside a value have no bits. -/
def Value.emptyBitvectors : Value → Nat
  | .bitvector bits => if bits.isEmpty then 1 else 0
  | .list _ _ items | .vector _ items | .array _ items =>
      emptyBitvectorsAmong items
  | .container _ values => emptyBitvectorsAmong values
  | .uint _ _ | .boolean _ | .root _ | .bytes _ | .byteList _ _
  | .bitlist _ _ => 0

def emptyBitvectorsAmong : List Value → Nat
  | [] => 0
  | v :: rest => v.emptyBitvectors + emptyBitvectorsAmong rest

end

theorem lengthOfItems_eq (fixed : Bool) (total : Nat) (items : List Value) :
    lengthOfItems fixed total items =
      total +
        (items.map fun v =>
          (if fixed then 0 else offsetWidth) + v.byteLength).sum := by
  induction items generalizing total with
  | nil => simp [lengthOfItems]
  | cons v rest ih => simp [lengthOfItems, ih, Nat.add_assoc]

/-- A length to which every field that has a value adds its part is the sum of the parts. -/
theorem eq_add_sum_zipWith
    {length : Nat → List Field → List Value → Nat} {part : Field → Value → Nat}
    (hcons : ∀ total f fields v values,
      length total (f :: fields) (v :: values) = length (total + part f v) fields values)
    (hfields : ∀ total values, length total [] values = total)
    (hvalues : ∀ total f fields, length total (f :: fields) [] = total)
    (total : Nat) (fields : List Field) (values : List Value) :
    length total fields values = total + (List.zipWith part fields values).sum := by
  induction fields generalizing total values with
  | nil => simp [hfields]
  | cons f rest ih =>
      cases values with
      | nil => simp [hvalues]
      | cons v values =>
          rw [hcons, ih, List.zipWith_cons_cons, List.sum_cons, Nat.add_assoc]

theorem lengthByValue_eq (total : Nat) (fields : List Field) (values : List Value) :
    lengthByValue total fields values =
      total +
        (List.zipWith
          (fun (f : Field) (v : Value) =>
            (if f.shape.isFixed then 0 else offsetWidth) + v.byteLength)
          fields values).sum := by
  apply eq_add_sum_zipWith
  case hcons =>
    rintro total ⟨name, quoted, shape⟩ fields v values
    rw [lengthByValue]
    rfl
  all_goals simp [lengthByValue]

theorem lengthByShape_eq (total : Nat) (fields : List Field) (values : List Value) :
    lengthByShape total fields values =
      total +
        (List.zipWith
          (fun (f : Field) (v : Value) =>
            if f.shape.isFixed then f.shape.staticLength
            else offsetWidth + v.byteLength)
          fields values).sum := by
  apply eq_add_sum_zipWith
  case hcons =>
    rintro total ⟨name, quoted, shape⟩ fields v values
    rw [lengthByShape]
    rfl
  all_goals simp [lengthByShape]

theorem sum_map_eq_add_emptyBitvectors
    {items : List Value} {announced written : Value → Nat}
    (heach : ∀ v ∈ items, announced v = written v + v.emptyBitvectors) :
    (items.map announced).sum =
      (items.map written).sum + emptyBitvectorsAmong items := by
  induction items with
  | nil => rfl
  | cons v rest ih =>
      rw [List.forall_mem_cons] at heach
      simp only [List.map_cons, List.sum_cons, emptyBitvectorsAmong]
      rw [heach.1, ih heach.2]
      omega

theorem sum_zipWith_eq_add_emptyBitvectors
    {values : List Value} {fields : List Field}
    {announced written : Field → Value → Nat}
    (heach : List.Forall₂
      (fun v f => announced f v = written f v + v.emptyBitvectors)
      values fields) :
    (List.zipWith announced fields values).sum =
      (List.zipWith written fields values).sum +
        emptyBitvectorsAmong values := by
  induction heach with
  | nil => rfl
  | cons hhead _ ih =>
      simp only [List.zipWith_cons_cons, List.sum_cons, emptyBitvectorsAmong]
      rw [hhead, ih]
      omega

theorem emptyBitvectorsAmong_eq_zero
    {items : List Value} (heach : ∀ v ∈ items, v.emptyBitvectors = 0) :
    emptyBitvectorsAmong items = 0 := by
  induction items with
  | nil => rfl
  | cons v rest ih =>
      rw [List.forall_mem_cons] at heach
      rw [emptyBitvectorsAmong, heach.1, ih heach.2]

mutual

/-- Whether no bit vector stands inside the values of the shape. -/
def Shape.lacksBitvectors : Shape → Bool
  | .uint _ | .boolean | .root | .bytes _ | .byteList | .bitlist => true
  | .bitvector => false
  | .list element | .vector element | .array element _ => element.lacksBitvectors
  | .container schema => schema.lacksBitvectors

def Schema.lacksBitvectors : Schema → Bool
  | .mk _ _ fields => allLackBitvectors fields

def allLackBitvectors : List Field → Bool
  | [] => true
  | .mk _ _ shape :: rest => shape.lacksBitvectors && allLackBitvectors rest

end

mutual

theorem Shape.lacksBitvectors_of_isStatic :
    ∀ {shape : Shape}, shape.isStatic → shape.lacksBitvectors
  | .uint _, _ | .boolean, _ | .root, _ | .bytes _, _ => rfl
  | .array element _, hstatic =>
      @Shape.lacksBitvectors_of_isStatic element hstatic
  | .container schema, hstatic =>
      @Schema.lacksBitvectors_of_isStatic schema hstatic

theorem Schema.lacksBitvectors_of_isStatic :
    ∀ {schema : Schema}, schema.isStatic → schema.lacksBitvectors
  | .mk _ .byShape fields, hstatic =>
      @allLackBitvectors_of_allStatic fields hstatic

theorem allLackBitvectors_of_allStatic :
    ∀ {fields : List Field}, allStatic fields → allLackBitvectors fields
  | [], _ => rfl
  | .mk _ _ shape :: rest, hstatic => by
      rw [allStatic, Bool.and_eq_true] at hstatic
      rw [allLackBitvectors, Bool.and_eq_true]
      exact ⟨Shape.lacksBitvectors_of_isStatic hstatic.1,
        allLackBitvectors_of_allStatic hstatic.2⟩

end

theorem allLackBitvectors_eq (fields : List Field) :
    allLackBitvectors fields = fields.all (·.shape.lacksBitvectors) := by
  induction fields with
  | nil => rfl
  | cons f rest ih =>
      obtain ⟨name, quoted, shape⟩ := f
      simp [allLackBitvectors, ih, Field.shape]

theorem emptyBitvectorsAmong_append (items others : List Value) :
    emptyBitvectorsAmong (items ++ others) =
      emptyBitvectorsAmong items + emptyBitvectorsAmong others := by
  induction items with
  | nil => simp [emptyBitvectorsAmong]
  | cons v rest ih => simp [emptyBitvectorsAmong, ih, Nat.add_assoc]

theorem Value.HasShape.emptyBitvectors_eq_zero
    {v : Value} {shape : Shape} (hshape : v.HasShape shape)
    (hlacks : shape.lacksBitvectors) : v.emptyBitvectors = 0 := by
  induction hshape using Value.HasShape.induction with
  | uint | boolean | root | bytes | bitlist | byteList => rfl
  | bitvector => simp [Shape.lacksBitvectors] at hlacks
  | list element _ items _ _ ih | vector element items _ ih | array element items _ ih =>
      rw [Shape.lacksBitvectors] at hlacks
      rw [Value.emptyBitvectors]
      exact emptyBitvectorsAmong_eq_zero fun v hv => ih v hv hlacks
  | container schema values hfields ih =>
      obtain ⟨name, sizing, fields⟩ := schema
      rw [Shape.lacksBitvectors, Schema.lacksBitvectors, allLackBitvectors_eq,
        List.all_eq_true] at hlacks
      rw [Value.emptyBitvectors]
      apply emptyBitvectorsAmong_eq_zero
      refine forall_mem_of_forall₂
        (P := fun v => v.emptyBitvectors = 0)
        (forall₂_mem ih) ?_
      rintro v f ⟨⟨_, hempty⟩, _, hf⟩
      exact hempty (hlacks f hf)

theorem emptyBitvectorsAmong_of_allLackBitvectors
    {values : List Value} {fields : List Field}
    (hfields : List.Forall₂ (fun v (f : Field) => v.HasShape f.shape) values fields)
    (hlacks : allLackBitvectors fields) : emptyBitvectorsAmong values = 0 := by
  rw [allLackBitvectors_eq, List.all_eq_true] at hlacks
  apply emptyBitvectorsAmong_eq_zero
  refine forall_mem_of_forall₂ (P := fun v => v.emptyBitvectors = 0) (forall₂_mem hfields) ?_
  rintro v f ⟨hshape, _, hf⟩
  exact hshape.emptyBitvectors_eq_zero (hlacks f hf)

mutual

/-- Whether the fixed fields of every container that is sized by its shape are
static, so that the shape tells the sizes that it is asked for. -/
def Shape.tellsSizes : Shape → Bool
  | .uint _ | .boolean | .root | .bytes _ | .byteList | .bitvector | .bitlist => true
  | .list element | .vector element | .array element _ => element.tellsSizes
  | .container schema => schema.tellsSizes

def Schema.tellsSizes : Schema → Bool
  | .mk _ (.byValue _) fields => allTellSizes fields
  | .mk _ .byShape fields =>
      allTellSizes fields && fields.all fun f => !f.shape.isFixed || f.shape.isStatic

def allTellSizes : List Field → Bool
  | [] => true
  | .mk _ _ shape :: rest => shape.tellsSizes && allTellSizes rest

end

theorem allTellSizes_eq (fields : List Field) :
    allTellSizes fields = fields.all (·.shape.tellsSizes) := by
  induction fields with
  | nil => rfl
  | cons f rest ih =>
      obtain ⟨name, quoted, shape⟩ := f
      simp [allTellSizes, ih, Field.shape]

theorem Schema.tellsSizes_fields
    {schema : Schema} (htells : schema.tellsSizes) :
    ∀ f ∈ schema.fields, f.shape.tellsSizes := by
  obtain ⟨name, sizing, fields⟩ := schema
  rw [← List.all_eq_true, ← allTellSizes_eq]
  cases sizing with
  | byShape =>
      rw [Schema.tellsSizes, Bool.and_eq_true] at htells
      exact htells.1
  | byValue fixed => exact htells

theorem Schema.isStatic_of_tellsSizes
    {name : String} {fields : List Field}
    (htells : (Schema.mk name .byShape fields).tellsSizes) :
    ∀ f ∈ fields, f.shape.isFixed → f.shape.isStatic := by
  rw [Schema.tellsSizes, Bool.and_eq_true, List.all_eq_true] at htells
  intro f hf hfixed
  simpa [hfixed] using htells.2 f hf

mutual

theorem Shape.tellsSizes_of_wellFormed :
    ∀ {shape : Shape}, shape.wellFormed → shape.tellsSizes
  | .uint _, _ | .boolean, _ | .root, _ | .bytes _, _ | .byteList, _ | .bitvector, _
  | .bitlist, _ => rfl
  | .list element, hformed | .array element _, hformed => by
      rw [Shape.wellFormed, Bool.and_eq_true] at hformed
      exact @Shape.tellsSizes_of_wellFormed element hformed.1
  | .vector element, hformed => @Shape.tellsSizes_of_wellFormed element hformed
  | .container schema, hformed => @Schema.tellsSizes_of_wellFormed schema hformed

theorem Schema.tellsSizes_of_wellFormed :
    ∀ {schema : Schema}, schema.wellFormed → schema.tellsSizes
  | .mk _ (.byValue _) fields, hformed => by
      rw [Schema.wellFormed, Bool.and_eq_true] at hformed
      exact @allTellSizes_of_allWellFormed fields hformed.1
  | .mk _ .byShape fields, hformed => by
      rw [Schema.wellFormed, Bool.and_eq_true] at hformed
      rw [Schema.tellsSizes, Bool.and_eq_true]
      exact ⟨allTellSizes_of_allWellFormed hformed.1, hformed.2⟩

theorem allTellSizes_of_allWellFormed :
    ∀ {fields : List Field}, allWellFormed fields → allTellSizes fields
  | [], _ => rfl
  | .mk _ _ shape :: rest, hformed => by
      rw [allWellFormed, Bool.and_eq_true] at hformed
      rw [allTellSizes, Bool.and_eq_true]
      exact ⟨Shape.tellsSizes_of_wellFormed hformed.1,
        allTellSizes_of_allWellFormed hformed.2⟩

end

/-- A value announces the bytes that it writes, and one more for each bit vector
without bits inside it. -/
theorem Value.HasShape.byteLength_eq_of_tellsSizes
    {v : Value} {shape : Shape} (hshape : v.HasShape shape)
    (htells : shape.tellsSizes) :
    v.byteLength = v.encode.size + v.emptyBitvectors := by
  induction hshape using Value.HasShape.induction with
  | uint width n hn =>
      simp [Value.byteLength, Value.encode, Value.emptyBitvectors,
        Bytes.size_littleEndian]
  | boolean b =>
      simp [Value.byteLength, Value.encode, Value.emptyBitvectors,
        Bytes.size_littleEndian]
  | root r => simp [Value.byteLength, Value.encode, Value.emptyBitvectors, r.size_eq]
  | bytes data => simp [Value.byteLength, Value.encode, Value.emptyBitvectors]
  | byteList limit data hdata =>
      simp [Value.byteLength, Value.encode, Value.emptyBitvectors]
  | list element limit items hlimit hitems ih =>
      rw [Shape.tellsSizes] at htells
      rw [encode_list, size_encodeItems, Value.byteLength, lengthOfItems_eq,
        Value.emptyBitvectors, Nat.zero_add]
      apply sum_map_eq_add_emptyBitvectors
      intro v hv
      rw [ih v hv htells, Nat.add_assoc]
  | vector element items hitems ih =>
      rw [Shape.tellsSizes] at htells
      rw [encode_vector, size_encodeItems, Value.byteLength, lengthOfItems_eq,
        Value.emptyBitvectors, Nat.zero_add]
      apply sum_map_eq_add_emptyBitvectors
      intro v hv
      rw [ih v hv htells, Nat.add_assoc]
  | array element items hitems ih =>
      rw [Shape.tellsSizes] at htells
      rw [encode_array, size_encodeItems, Value.byteLength, lengthOfItems_eq,
        Value.emptyBitvectors, Nat.zero_add]
      apply sum_map_eq_add_emptyBitvectors
      intro v hv
      rw [ih v hv htells, Nat.add_assoc]
  | bitvector bits =>
      rw [Value.byteLength, Value.encode, Value.emptyBitvectors, size_pack]
      cases bits with
      | nil => rfl
      | cons bit rest =>
          simp only [List.length_cons, List.isEmpty_cons, Bool.false_eq_true, if_false]
          omega
  | bitlist limit bits hbits =>
      simp [Value.byteLength, Value.encode, Value.emptyBitvectors, size_packWithEnd]
  | container schema values hfields ih =>
      obtain ⟨name, sizing, fields⟩ := schema
      rw [Shape.tellsSizes] at htells
      have hfieldsTell := Schema.tellsSizes_fields htells
      cases sizing with
      | byValue fixed =>
          rw [size_encode_container, Value.byteLength, Value.emptyBitvectors]
          simp only [Schema.sizing]
          rw [lengthByValue_eq, Nat.zero_add]
          apply sum_zipWith_eq_add_emptyBitvectors
          refine (forall₂_mem ih).imp ?_
          rintro v f ⟨⟨_, hlength⟩, _, hf⟩
          rw [hlength (hfieldsTell f hf), Nat.add_assoc]
      | byShape =>
          have hstatic := Schema.isStatic_of_tellsSizes htells
          by_cases hfixed : allFixed fields
          · have hcontainer : Shape.isStatic (.container (.mk name .byShape fields)) :=
              allStatic_of_allFixed hstatic hfixed
            have hshape := Value.HasShape.container (hasFields_iff.mpr hfields)
            rw [hshape.size_encode_of_isStatic hcontainer,
              hshape.emptyBitvectors_eq_zero
                (Shape.lacksBitvectors_of_isStatic hcontainer)]
            simp [Value.byteLength, Schema.sizing, Schema.isFixed, hfixed,
              Shape.staticLength]
          · rw [size_encode_container, Value.byteLength, Value.emptyBitvectors]
            simp only [Schema.sizing, Schema.isFixed, hfixed]
            rw [lengthByShape_eq, Nat.zero_add]
            apply sum_zipWith_eq_add_emptyBitvectors
            refine (forall₂_mem ih).imp ?_
            rintro v f ⟨⟨hv, hlength⟩, _, hf⟩
            by_cases hfieldFixed : f.shape.isFixed
            · have hfieldStatic := hstatic f hf hfieldFixed
              simp [hfieldFixed, hv.size_encode_of_isStatic hfieldStatic,
                hv.emptyBitvectors_eq_zero
                  (Shape.lacksBitvectors_of_isStatic hfieldStatic)]
            · simp [hfieldFixed, hlength (hfieldsTell f hf), Nat.add_assoc]

theorem Value.HasShape.byteLength_eq
    {v : Value} {shape : Shape} (hshape : v.HasShape shape)
    (hformed : shape.wellFormed) :
    v.byteLength = v.encode.size + v.emptyBitvectors :=
  hshape.byteLength_eq_of_tellsSizes (Shape.tellsSizes_of_wellFormed hformed)

theorem Value.HasShape.byteLength_eq_staticLength
    {v : Value} {shape : Shape} (hshape : v.HasShape shape)
    (htells : shape.tellsSizes) (hstatic : shape.isStatic) :
    v.byteLength = shape.staticLength := by
  rw [hshape.byteLength_eq_of_tellsSizes htells, hshape.size_encode_of_isStatic hstatic,
    hshape.emptyBitvectors_eq_zero (Shape.lacksBitvectors_of_isStatic hstatic),
    Nat.add_zero]

/-! ## Announced fixed parts -/

theorem Value.HasShape.shape_eq
    {v : Value} {shape : Shape} (hshape : v.HasShape shape) : v.shape = shape := by
  cases hshape <;> rfl

theorem Value.HasShape.slotLength_eq
    {v : Value} {shape : Shape} (hshape : v.HasShape shape)
    (hformed : shape.wellFormed) (hfixed : shape.isFixed)
    (hlacks : shape.lacksBitvectors) : v.slotLength = v.encode.size := by
  rw [Value.slotLength, Value.isFixed, hshape.shape_eq, if_pos hfixed,
    hshape.byteLength_eq hformed, hshape.emptyBitvectors_eq_zero hlacks, Nat.add_zero]

theorem slotLengths_eq_sum (values : List Value) :
    slotLengths values = (values.map Value.slotLength).sum := by
  rw [slotLengths, List.sum_eq_foldl, List.foldl_map]

/-- Whether the values of a container are fixed is told by its fields. -/
theorem map_isFixed_eq_zipWith
    {α : Type} {values : List Value} {fields : List Field}
    (hfields : List.Forall₂ (fun v (f : Field) => v.HasShape f.shape)
      values fields) (g : Bool → Value → α) :
    values.map (fun v => g v.isFixed v) =
      List.zipWith (fun (f : Field) v => g f.shape.isFixed v) fields values := by
  induction hfields with
  | nil => rfl
  | cons hhead _ ih =>
      rw [List.map_cons, List.zipWith_cons_cons, ih, Value.isFixed, hhead.shape_eq]

theorem slotLengths_eq
    {values : List Value} {fields : List Field}
    (hfields : List.Forall₂ (fun v (f : Field) => v.HasShape f.shape)
      values fields) :
    slotLengths values =
      (List.zipWith
        (fun (f : Field) (v : Value) =>
          if f.shape.isFixed then v.byteLength else offsetWidth)
        fields values).sum := by
  rw [slotLengths_eq_sum]
  exact congrArg List.sum (map_isFixed_eq_zipWith hfields fun fixed v =>
    if fixed then v.byteLength else offsetWidth)

/-- A container that is sized by its values announces the fixed part that it
writes, unless some bit vector has no bits. -/
theorem slotLengths_eq_size_fixedPart
    {values : List Value} {fields : List Field} (position : Nat)
    (hfields : List.Forall₂ (fun v (f : Field) => v.HasShape f.shape)
      values fields)
    (hformed : ∀ f ∈ fields, f.shape.wellFormed)
    (hbits : emptyBitvectorsAmong values = 0) :
    slotLengths values =
      (fixedPart position
        (List.zipWith (fun (f : Field) v => ⟨f.shape.isFixed, v.encode⟩)
          fields values)).size := by
  rw [slotLengths_eq hfields, size_fixedPart, List.map_zipWith]
  congr 1
  induction hfields with
  | nil => rfl
  | @cons v f values fields hhead _ ih =>
      rw [emptyBitvectorsAmong, Nat.add_eq_zero_iff] at hbits
      rw [List.forall_mem_cons] at hformed
      rw [List.zipWith_cons_cons, List.zipWith_cons_cons, ih hformed.2 hbits.2,
        hhead.byteLength_eq hformed.1, hbits.1, Nat.add_zero, Part.slotSize]

end Ssz
end GenesisForge
