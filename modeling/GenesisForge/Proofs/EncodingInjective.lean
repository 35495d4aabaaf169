import GenesisForge.Chain.State
import GenesisForge.Proofs.BitPacking
import GenesisForge.Proofs.EncodedSizes

/-!
# Encodings determine values

Two values of one well-formed shape that the configuration sized alike are equal
as soon as their encodings are.  The induction goes over the first value.  What
it needs at each container and each sequence is that the encodings of the parts
can be told apart: parts in place by their common sizes, payloads by the offsets,
and the items of a list by their common size or by the first offset.
-/

namespace GenesisForge
namespace Ssz

mutual

/-- Whether the configuration sized two values of one shape alike: vectors and
bit vectors have equal lengths, lists have equal limits, and so have the items
at corresponding places, as far as both lists go. -/
def Value.sameSizes : Value → Value → Prop
  | .byteList l _, .byteList m _ => l = m
  | .list _ l as, .list _ m bs => l = m ∧ pairwiseSameSizes as bs
  | .vector _ as, .vector _ bs => as.length = bs.length ∧ pairwiseSameSizes as bs
  | .array _ as, .array _ bs => pairwiseSameSizes as bs
  | .bitvector as, .bitvector bs => as.length = bs.length
  | .bitlist l _, .bitlist m _ => l = m
  | .container _ as, .container _ bs => pairwiseSameSizes as bs
  | _, _ => True

def pairwiseSameSizes : List Value → List Value → Prop
  | a :: as, b :: bs => a.sameSizes b ∧ pairwiseSameSizes as bs
  | _, _ => True

end

mutual

theorem Value.sameSizes_refl : ∀ v : Value, v.sameSizes v
  | .uint _ _ | .boolean _ | .root _ | .bytes _ => by simp [Value.sameSizes]
  | .byteList _ _ | .bitvector _ | .bitlist _ _ => by simp [Value.sameSizes]
  | .list _ _ items | .vector _ items => by
      rw [Value.sameSizes]
      exact ⟨rfl, pairwiseSameSizes_refl items⟩
  | .array _ items | .container _ items => by
      rw [Value.sameSizes]
      exact pairwiseSameSizes_refl items

theorem pairwiseSameSizes_refl : ∀ values : List Value, pairwiseSameSizes values values
  | [] => by simp [pairwiseSameSizes]
  | v :: rest => by
      rw [pairwiseSameSizes]
      exact ⟨v.sameSizes_refl, pairwiseSameSizes_refl rest⟩

end

theorem forall₂_sameSizes
    {as bs : List Value} (hlength : as.length = bs.length)
    (hsizes : pairwiseSameSizes as bs) :
    List.Forall₂ Value.sameSizes as bs := by
  induction as generalizing bs with
  | nil =>
      obtain rfl := List.eq_nil_of_length_eq_zero hlength.symm
      exact .nil
  | cons a as ih =>
      cases bs with
      | nil => simp at hlength
      | cons b bs =>
          rw [pairwiseSameSizes] at hsizes
          exact .cons hsizes.1 (ih (by simpa using hlength) hsizes.2)

theorem forall₂_field_of_sameSizes
    {P Q : Value → Field → Prop} {as bs : List Value} {fields : List Field}
    (has : List.Forall₂ P as fields) (hbs : List.Forall₂ Q bs fields)
    (hsizes : pairwiseSameSizes as bs) :
    List.Forall₂ (fun a b => ∃ f ∈ fields, P a f ∧ Q b f ∧ a.sameSizes b) as bs := by
  induction has generalizing bs with
  | nil => cases hbs; exact .nil
  | @cons a f as fields ha _ ih =>
      cases hbs with
      | @cons b f bs fields hb hbs =>
          rw [pairwiseSameSizes] at hsizes
          refine .cons ⟨f, List.mem_cons_self, ha, hb, hsizes.1⟩ ((ih hbs hsizes.2).imp ?_)
          rintro v w ⟨g, hg, hvw⟩
          exact ⟨g, List.mem_cons_of_mem _ hg, hvw⟩

/-- What holds of the values of two containers of one schema, field by field,
holds of what is made of them. -/
theorem forall₂_zipWith_of_sameSizes
    {γ : Type} {P Q : Value → Field → Prop} {R : γ → γ → Prop}
    {make : Field → Value → γ} {as bs : List Value} {fields : List Field}
    (has : List.Forall₂ P as fields) (hbs : List.Forall₂ Q bs fields)
    (hsizes : pairwiseSameSizes as bs)
    (heach : ∀ f ∈ fields, ∀ a b, P a f → Q b f → a.sameSizes b →
      R (make f a) (make f b)) :
    List.Forall₂ R (List.zipWith make fields as) (List.zipWith make fields bs) := by
  induction has generalizing bs with
  | nil => cases hbs; exact .nil
  | @cons a f as fields ha _ ih =>
      cases hbs with
      | @cons b f bs fields hb hbs =>
          rw [pairwiseSameSizes] at hsizes
          rw [List.forall_mem_cons] at heach
          exact .cons (heach.1 a b ha hb hsizes.1) (ih hbs hsizes.2 heach.2)

theorem Value.HasShape.exists_eq_bytes
    {v : Value} {n : Nat} (hshape : v.HasShape (.bytes n)) :
    ∃ data : ByteArray, v = .bytes data ∧ data.size = n := by
  cases hshape with
  | bytes data => exact ⟨data, rfl, rfl⟩

theorem Value.HasShape.exists_eq_array
    {v : Value} {element : Shape} {n : Nat}
    (hshape : v.HasShape (.array element n)) :
    ∃ items, v = .array element items ∧ items.length = n ∧
      ∀ w ∈ items, w.HasShape element := by
  cases hshape with
  | array hall => exact ⟨_, rfl, rfl, allHaveShape_iff.mp hall⟩

theorem sum_map_eq_of_forall₂
    {as bs : List Value} {size : Value → Nat}
    (heach : List.Forall₂ (fun a b => size a = size b) as bs) :
    (as.map size).sum = (bs.map size).sum := by
  induction heach with
  | nil => rfl
  | cons hhead _ ih => simp [hhead, ih]

/-- Two values that take and announce equal sizes. -/
structure Value.SameExtent (v w : Value) : Prop where
  size_encode : v.encode.size = w.encode.size
  byteLength : v.byteLength = w.byteLength

theorem sameExtent_items
    {as bs : List Value} (element : Shape)
    (heach : List.Forall₂ Value.SameExtent as bs) :
    (encodeItems element as).size = (encodeItems element bs).size ∧
      lengthOfItems element.isFixed 0 as = lengthOfItems element.isFixed 0 bs := by
  rw [size_encodeItems, size_encodeItems, lengthOfItems_eq, lengthOfItems_eq]
  constructor
  · apply sum_map_eq_of_forall₂
    exact heach.imp fun a b h => by rw [h.size_encode]
  · congr 1
    apply sum_map_eq_of_forall₂
    exact heach.imp fun a b h => by rw [h.byteLength]

/-- Values in place that were sized alike take and announce equal sizes. -/
theorem Value.HasShape.sameExtent_of_isFixed
    {v w : Value} {shape : Shape} (hv : v.HasShape shape) (hw : w.HasShape shape)
    (hformed : shape.wellFormed) (hfixed : shape.isFixed)
    (hsizes : v.sameSizes w) : v.SameExtent w := by
  induction hv using Value.HasShape.induction generalizing w with
  | uint width n hn =>
      cases hw with
      | uint =>
          constructor <;>
            simp [Value.encode, Value.byteLength, Bytes.size_littleEndian]
  | boolean b =>
      cases hw with
      | boolean =>
          constructor <;>
            simp [Value.encode, Value.byteLength, Bytes.size_littleEndian]
  | root r =>
      cases hw with
      | root s =>
          constructor <;> simp [Value.encode, Value.byteLength, r.size_eq, s.size_eq]
  | bytes data =>
      obtain ⟨other, rfl, hsize⟩ := hw.exists_eq_bytes
      constructor <;> simp [Value.encode, Value.byteLength, hsize]
  | byteList | list | bitlist => simp [Shape.isFixed] at hfixed
  | vector element items hitems ih =>
      cases hw with
      | @vector _ others hothers =>
          rw [allHaveShape_iff] at hothers
          rw [Value.sameSizes] at hsizes
          have heach := (forall₂_mem (forall₂_sameSizes hsizes.1 hsizes.2)).imp
            fun a b hab => ih a hab.2.1 (hothers b hab.2.2) hformed hfixed hab.1
          have hitemSizes := sameExtent_items element heach
          exact ⟨by simpa [encode_vector] using hitemSizes.1,
            by simpa [Value.byteLength] using hitemSizes.2⟩
  | array element items hitems ih =>
      obtain ⟨others, rfl, hlength, hothers⟩ := hw.exists_eq_array
      rw [Value.sameSizes] at hsizes
      rw [Shape.wellFormed, Bool.and_eq_true] at hformed
      have heach := (forall₂_mem (forall₂_sameSizes hlength.symm hsizes)).imp
        fun a b hab => ih a hab.2.1 (hothers b hab.2.2) hformed.1 hfixed hab.1
      have hitemSizes := sameExtent_items element heach
      exact ⟨by simpa [encode_array] using hitemSizes.1,
        by simpa [Value.byteLength] using hitemSizes.2⟩
  | bitvector bits =>
      cases hw with
      | bitvector others =>
          rw [Value.sameSizes] at hsizes
          constructor <;> simp [Value.encode, Value.byteLength, size_pack, hsizes]
  | container schema values hfields ih =>
      cases hw with
      | @container _ others hothers =>
          obtain ⟨name, sizing, fields⟩ := schema
          rw [hasFields_iff] at hothers
          rw [Value.sameSizes] at hsizes
          cases sizing with
          | byShape =>
              have hstatic := allStatic_of_allFixed
                (Schema.wellFormed_byShape hformed).2 hfixed
              have hv := Value.HasShape.container (hasFields_iff.mpr hfields)
              have hw := Value.HasShape.container (hasFields_iff.mpr hothers)
              refine ⟨?_, ?_⟩
              · rw [hv.size_encode_of_isStatic hstatic,
                  hw.size_encode_of_isStatic hstatic]
              · have hfixed : allFixed fields := hfixed
                simp [Value.byteLength, Schema.sizing, Schema.isFixed, hfixed]
          | byValue fixed =>
              obtain ⟨hformed, hflag⟩ := Schema.wellFormed_byValue hformed
              have hall : ∀ f ∈ fields, f.shape.isFixed := by
                rw [← List.all_eq_true, ← allFixed_eq, ← hflag]
                exact hfixed
              refine ⟨?_, ?_⟩
              · rw [size_encode_container, size_encode_container]
                congr 1
                rw [← List.forall₂_eq_eq_eq]
                refine forall₂_zipWith_of_sameSizes ih hothers hsizes ?_
                rintro f hf a b ⟨_, ha⟩ hb hab
                rw [(ha hb (hformed f hf) (hall f hf) hab).size_encode]
              · simp only [Value.byteLength, Schema.sizing]
                rw [lengthByValue_eq, lengthByValue_eq]
                congr 2
                rw [← List.forall₂_eq_eq_eq]
                refine forall₂_zipWith_of_sameSizes ih hothers hsizes ?_
                rintro f hf a b ⟨_, ha⟩ hb hab
                rw [(ha hb (hformed f hf) (hall f hf) hab).byteLength]

/-! ## Telling encodings apart -/

theorem encodes_eq_of_encodeInPlace_eq
    {as bs : List Value}
    (hsizes : List.Forall₂ (fun a b => a.encode.size = b.encode.size) as bs)
    (hencode : encodeInPlace ByteArray.empty as =
      encodeInPlace ByteArray.empty bs) :
    List.Forall₂ (fun a b => a.encode = b.encode) as bs := by
  induction hsizes with
  | nil => exact .nil
  | cons hhead _ ih =>
      rw [encodeInPlace_cons, encodeInPlace_cons,
        ByteArray.append_eq_append_iff_of_size_eq_left hhead] at hencode
      exact .cons hencode.1 (ih hencode.2)

theorem encodes_eq_of_encodeItems_eq
    {as bs : List Value} {element : Shape} (hlength : as.length = bs.length)
    (hsizes : element.isFixed →
      List.Forall₂ (fun a b => a.encode.size = b.encode.size) as bs)
    (hfit : (encodeItems element as).size < 2 ^ 32)
    (hencode : encodeItems element as = encodeItems element bs) :
    List.Forall₂ (fun a b => a.encode = b.encode) as bs := by
  unfold encodeItems at hfit hencode
  by_cases hfixed : element.isFixed
  · rw [if_pos hfixed, if_pos hfixed] at hencode
    exact encodes_eq_of_encodeInPlace_eq (hsizes hfixed) hencode
  · rw [if_neg hfixed] at hfit
    rw [if_neg hfixed, if_neg hfixed, hlength] at hencode
    rw [hlength] at hfit
    have hslots : List.Forall₂ Part.SameSlot
        (as.map fun v => ⟨false, v.encode⟩) (bs.map fun v => ⟨false, v.encode⟩) := by
      rw [List.forall₂_map_left_iff, List.forall₂_map_right_iff,
        List.forall₂_iff_get]
      exact ⟨hlength, fun i _ _ => ⟨rfl, rfl⟩⟩
    have hparts := parts_eq_of_layOut_eq hslots hfit hencode
    rw [← List.forall₂_eq_eq_eq, List.forall₂_map_left_iff,
      List.forall₂_map_right_iff] at hparts
    exact hparts.imp fun a b hab => congrArg Part.bytes hab

theorem offsetWidth_mul_length_le_size_layOut
    (fixedLength : Nat) (items : List Value) :
    offsetWidth * items.length ≤
      (layOut fixedLength (items.map fun v => ⟨false, v.encode⟩)).size := by
  rw [layOut_eq, ByteArray.size_append, size_fixedPart, List.map_map]
  have hslots : (items.map (Part.slotSize ∘ fun v => ⟨false, v.encode⟩)).sum =
      offsetWidth * items.length := sum_map_eq_mul fun v _ => rfl
  omega

theorem layOut_cons_variable
    (fixedLength : Nat) (v : Value) (rest : List Value) :
    ∃ tail,
      layOut fixedLength ((v :: rest).map fun v => ⟨false, v.encode⟩) =
        Bytes.littleEndian offsetWidth fixedLength ++ tail := by
  rw [layOut_eq, List.map_cons, fixedPart, ByteArray.append_assoc]
  exact ⟨_, rfl⟩

/-- The first offset of a list of variable items tells how many there are. -/
theorem length_eq_of_layOut_eq
    {as bs : List Value}
    (hfit : (layOut (offsetWidth * as.length)
      (as.map fun v => ⟨false, v.encode⟩)).size < 2 ^ 32)
    (hlayout :
      layOut (offsetWidth * as.length) (as.map fun v => ⟨false, v.encode⟩) =
        layOut (offsetWidth * bs.length) (bs.map fun v => ⟨false, v.encode⟩)) :
    as.length = bs.length := by
  have has : 4 * as.length ≤ _ :=
    offsetWidth_mul_length_le_size_layOut (offsetWidth * as.length) as
  have hbs : 4 * bs.length ≤ _ :=
    offsetWidth_mul_length_le_size_layOut (offsetWidth * bs.length) bs
  rw [← hlayout] at hbs
  cases as with
  | nil =>
      have hempty : (layOut (offsetWidth * ([] : List Value).length)
          (([] : List Value).map fun v => ⟨false, v.encode⟩)).size = 0 := rfl
      rw [hempty] at hbs
      rw [List.length_nil]
      omega
  | cons a as =>
      cases bs with
      | nil =>
          have hempty : (layOut (offsetWidth * ([] : List Value).length)
              (([] : List Value).map fun v => ⟨false, v.encode⟩)).size = 0 := rfl
          rw [hlayout, hempty, List.length_cons] at has
          omega
      | cons b bs =>
          obtain ⟨atail, ha⟩ := layOut_cons_variable (offsetWidth * (a :: as).length) a as
          obtain ⟨btail, hb⟩ := layOut_cons_variable (offsetWidth * (b :: bs).length) b bs
          have hwords : Bytes.littleEndian 4 (4 * (a :: as).length) =
              Bytes.littleEndian 4 (4 * (b :: bs).length) := by
            rw [ha, hb, ByteArray.append_eq_append_iff_of_size_eq_left
              (by simp [Bytes.size_littleEndian])] at hlayout
            exact hlayout.1
          have hcounts := Bytes.littleEndian_inj (by omega) (by omega) hwords
          omega

theorem length_eq_of_encodeItems_eq
    {as bs : List Value} {element : Shape}
    (has : ∀ v ∈ as, v.HasShape element) (hbs : ∀ v ∈ bs, v.HasShape element)
    (hcount : element.isFixed → element.isStatic ∧ 0 < element.staticLength)
    (hfit : (encodeItems element as).size < 2 ^ 32)
    (hencode : encodeItems element as = encodeItems element bs) :
    as.length = bs.length := by
  by_cases hfixed : element.isFixed
  · obtain ⟨hstatic, hpositive⟩ := hcount hfixed
    have hsize : ∀ items : List Value, (∀ v ∈ items, v.HasShape element) →
        (encodeItems element items).size = element.staticLength * items.length := by
      intro items hitems
      rw [size_encodeItems, if_pos hfixed]
      exact sum_map_eq_mul fun v hv => by
        rw [(hitems v hv).size_encode_of_isStatic hstatic, Nat.zero_add]
    have htotal := congrArg ByteArray.size hencode
    rw [hsize as has, hsize bs hbs] at htotal
    exact Nat.eq_of_mul_eq_mul_left hpositive htotal
  · unfold encodeItems at hfit hencode
    rw [if_neg hfixed] at hfit
    rw [if_neg hfixed, if_neg hfixed] at hencode
    exact length_eq_of_layOut_eq hfit hencode

theorem size_encode_le_of_mem_items
    {v : Value} {items : List Value} (element : Shape) (hv : v ∈ items) :
    v.encode.size ≤ (encodeItems element items).size := by
  rw [size_encodeItems]
  induction items with
  | nil => simp at hv
  | cons w rest ih =>
      rw [List.map_cons, List.sum_cons]
      rcases List.mem_cons.mp hv with rfl | hv
      · omega
      · have hrest := ih hv
        omega

/-- Values that are determined each by what is made of it are determined by what
is made of all of them. -/
theorem values_eq_of_made_eq
    {γ : Type} {make : Value → γ} {as bs : List Value} {P : Value → Value → Prop}
    (hmade : List.Forall₂ (fun a b => make a = make b) as bs)
    (hrel : List.Forall₂ P as bs)
    (heach : ∀ a ∈ as, ∀ b ∈ bs, P a b → make a = make b → a = b) : as = bs := by
  induction hmade with
  | nil => rfl
  | @cons a b as bs hhead _ ih =>
      cases hrel with
      | cons hab htail =>
          obtain rfl := heach a List.mem_cons_self b List.mem_cons_self hab hhead
          rw [ih htail fun v hv w hw =>
            heach v (List.mem_cons_of_mem _ hv) w (List.mem_cons_of_mem _ hw)]

/-- Items of one shape that were sized alike and are as many are determined by
what is made of them, if each of them is determined by its encoding. -/
theorem items_eq_of_encodeItems_eq
    {as bs : List Value} {element : Shape}
    (has : ∀ v ∈ as, v.HasShape element) (hbs : ∀ v ∈ bs, v.HasShape element)
    (hformed : element.wellFormed) (hlength : as.length = bs.length)
    (hsizes : pairwiseSameSizes as bs)
    (hfit : (encodeItems element as).size < 2 ^ 32)
    (hencode : encodeItems element as = encodeItems element bs)
    (heach : ∀ a ∈ as, ∀ b ∈ bs, a.sameSizes b → a.encode.size < 2 ^ 32 →
      a.encode = b.encode → a = b) : as = bs := by
  have hrel := forall₂_sameSizes hlength hsizes
  have hinPlace : element.isFixed →
      List.Forall₂ (fun a b => a.encode.size = b.encode.size) as bs := by
    intro hfixed
    refine (forall₂_mem hrel).imp ?_
    rintro a b ⟨hab, ha, hb⟩
    exact ((has a ha).sameExtent_of_isFixed (hbs b hb) hformed hfixed hab).size_encode
  have hencodes := encodes_eq_of_encodeItems_eq hlength hinPlace hfit hencode
  refine values_eq_of_made_eq hencodes hrel fun a ha b hb hab habEncode => ?_
  have hle := size_encode_le_of_mem_items element ha
  exact heach a ha b hb hab (by omega) habEncode

theorem size_encode_le_of_mem_values
    {v : Value} {schema : Schema} {values : List Value}
    (hfields : List.Forall₂ (fun v (f : Field) => v.HasShape f.shape)
      values schema.fields)
    (hv : v ∈ values) :
    v.encode.size ≤ (Value.container schema values).encode.size := by
  rw [size_encode_container]
  generalize schema.fields = fields at hfields
  induction hfields with
  | nil => simp at hv
  | cons _ _ ih =>
      rw [List.zipWith_cons_cons, List.sum_cons]
      rcases List.mem_cons.mp hv with rfl | hv
      · omega
      · have hrest := ih hv
        omega

theorem values_eq_of_parts_eq
    {P Q : Value → Field → Prop} {as bs : List Value} {fields : List Field}
    (has : List.Forall₂ P as fields) (hbs : List.Forall₂ Q bs fields)
    (hsizes : pairwiseSameSizes as bs)
    (hparts :
      List.zipWith (fun (f : Field) v => Part.mk f.shape.isFixed v.encode) fields as =
        List.zipWith (fun (f : Field) v => Part.mk f.shape.isFixed v.encode) fields bs)
    (heach : ∀ a f b, P a f → Q b f → a.sameSizes b → a.encode = b.encode →
      a = b) : as = bs := by
  induction has generalizing bs with
  | nil => cases hbs; rfl
  | @cons a f as fields ha _ ih =>
      cases hbs with
      | @cons b f bs fields hb hbs =>
          rw [pairwiseSameSizes] at hsizes
          rw [List.zipWith_cons_cons, List.zipWith_cons_cons, List.cons.injEq,
            Part.mk.injEq] at hparts
          obtain rfl := heach a f b ha hb hsizes.1 hparts.1.2
          rw [ih hbs hsizes.2 hparts.2]

/-- Two containers of one schema that were sized alike take the same slots. -/
theorem sameSlots_of_sameSizes
    {as bs : List Value} {fields : List Field}
    (has : List.Forall₂ (fun v (f : Field) => v.HasShape f.shape) as fields)
    (hbs : List.Forall₂ (fun v (f : Field) => v.HasShape f.shape) bs fields)
    (hformed : ∀ f ∈ fields, f.shape.wellFormed)
    (hsizes : pairwiseSameSizes as bs) :
    List.Forall₂ Part.SameSlot
      (List.zipWith (fun (f : Field) v => ⟨f.shape.isFixed, v.encode⟩) fields as)
      (List.zipWith (fun (f : Field) v => ⟨f.shape.isFixed, v.encode⟩) fields bs) := by
  refine forall₂_zipWith_of_sameSizes has hbs hsizes fun f hf a b ha hb hab => ⟨rfl, ?_⟩
  by_cases hfixed : f.shape.isFixed
  · simp [Part.slotSize, hfixed,
      (ha.sameExtent_of_isFixed hb (hformed f hf) hfixed hab).size_encode]
  · simp [Part.slotSize, hfixed]

theorem fixedPartLength_eq_of_sameSizes
    {as bs : List Value} {schema : Schema}
    (has : List.Forall₂ (fun v (f : Field) => v.HasShape f.shape) as schema.fields)
    (hbs : List.Forall₂ (fun v (f : Field) => v.HasShape f.shape) bs schema.fields)
    (hformed : ∀ f ∈ schema.fields, f.shape.wellFormed)
    (hsizes : pairwiseSameSizes as bs) :
    schema.fixedPartLength as = schema.fixedPartLength bs := by
  unfold Schema.fixedPartLength
  cases schema.sizing with
  | byShape => rfl
  | byValue fixed =>
      simp only [slotLengths_eq has, slotLengths_eq hbs]
      congr 1
      rw [← List.forall₂_eq_eq_eq]
      refine forall₂_zipWith_of_sameSizes has hbs hsizes fun f hf a b ha hb hab => ?_
      by_cases hfixed : f.shape.isFixed
      · rw [(ha.sameExtent_of_isFixed hb (hformed f hf) hfixed hab).byteLength]
      · rw [if_neg hfixed, if_neg hfixed]

/-- Two values of one well-formed shape that were sized alike are equal if their
encodings are and offsets reach to the end of them. -/
theorem Value.HasShape.eq_of_encode_eq
    {v w : Value} {shape : Shape} (hv : v.HasShape shape) (hw : w.HasShape shape)
    (hformed : shape.wellFormed) (hsizes : v.sameSizes w)
    (hfit : v.encode.size < 2 ^ 32) (hencode : v.encode = w.encode) : v = w := by
  induction hv using Value.HasShape.induction generalizing w with
  | uint width n hn =>
      cases hw with
      | @uint _ m hm =>
          rw [Value.encode, Value.encode] at hencode
          rw [Bytes.littleEndian_inj hn hm hencode]
  | boolean b =>
      cases hw with
      | boolean c =>
          rw [Value.encode, Value.encode] at hencode
          have hdigits := Bytes.littleEndian_inj
            (by cases b <;> decide) (by cases c <;> decide) hencode
          cases b <;> cases c <;> simp_all
  | root r =>
      cases hw with
      | root s =>
          obtain ⟨rbytes, hr⟩ := r
          obtain ⟨sbytes, hs⟩ := s
          simp only [Value.encode] at hencode
          subst hencode
          rfl
  | bytes data =>
      obtain ⟨other, rfl, -⟩ := hw.exists_eq_bytes
      simpa [Value.encode] using hencode
  | byteList limit data hdata =>
      cases hw with
      | byteList hother =>
          rw [Value.sameSizes] at hsizes
          simp only [Value.encode] at hencode
          rw [hsizes, hencode]
  | list element limit items hlimit hitems ih =>
      cases hw with
      | @list _ otherLimit others hother hothers =>
          rw [allHaveShape_iff] at hothers
          rw [Value.sameSizes] at hsizes
          rw [Shape.wellFormed, Bool.and_eq_true] at hformed
          rw [encode_list] at hfit
          rw [encode_list, encode_list] at hencode
          have hcount : element.isFixed →
              element.isStatic ∧ 0 < element.staticLength := by
            intro hfixed
            simpa [hfixed] using hformed.2
          have hlength := length_eq_of_encodeItems_eq hitems hothers hcount hfit hencode
          rw [hsizes.1, items_eq_of_encodeItems_eq hitems hothers hformed.1
            hlength hsizes.2 hfit hencode fun a ha b hb hab hfit =>
              ih a ha (hothers b hb) hformed.1 hab hfit]
  | vector element items hitems ih =>
      cases hw with
      | @vector _ others hothers =>
          rw [allHaveShape_iff] at hothers
          rw [Value.sameSizes] at hsizes
          rw [encode_vector] at hfit
          rw [encode_vector, encode_vector] at hencode
          rw [items_eq_of_encodeItems_eq hitems hothers hformed
            hsizes.1 hsizes.2 hfit hencode fun a ha b hb hab hfit =>
              ih a ha (hothers b hb) hformed hab hfit]
  | array element items hitems ih =>
      obtain ⟨others, rfl, hlength, hothers⟩ := hw.exists_eq_array
      rw [Value.sameSizes] at hsizes
      rw [Shape.wellFormed, Bool.and_eq_true] at hformed
      rw [encode_array] at hfit
      rw [encode_array, encode_array] at hencode
      rw [items_eq_of_encodeItems_eq hitems hothers hformed.1
        hlength.symm hsizes hfit hencode fun a ha b hb hab hfit =>
          ih a ha (hothers b hb) hformed.1 hab hfit]
  | bitvector bits =>
      cases hw with
      | bitvector others =>
          rw [Value.sameSizes] at hsizes
          rw [Value.encode, Value.encode] at hencode
          rw [Bits.pack_injective hsizes hencode]
  | bitlist limit bits hbits =>
      cases hw with
      | bitlist hothers =>
          rw [Value.sameSizes] at hsizes
          rw [Value.encode, Value.encode] at hencode
          rw [hsizes, Bits.packWithEnd_injective hencode]
  | container schema values hfields ih =>
      cases hw with
      | @container _ others hothers =>
          rw [hasFields_iff] at hothers
          rw [Value.sameSizes] at hsizes
          have hfieldsFormed := Schema.wellFormed_fields hformed
          have hslots := sameSlots_of_sameSizes hfields hothers hfieldsFormed hsizes
          have hfixedPart :=
            fixedPartLength_eq_of_sameSizes hfields hothers hfieldsFormed hsizes
          have hparts := parts_eq_of_layOut_eq hslots
            (by simpa [encode_container] using hfit)
            (by simpa [encode_container, hfixedPart] using hencode)
          rw [values_eq_of_parts_eq (forall₂_mem ih) hothers hsizes hparts]
          rintro a f b ⟨⟨_, ha⟩, hmem, hf⟩ hb hab habEncode
          have hle := size_encode_le_of_mem_values hfields hmem
          exact ha hb (hfieldsFormed f hf) hab (by omega) habEncode

end Ssz

/-! ## The containers of the chain -/

open Ssz

namespace Schemas

/-- The shapes of the two builds of header. -/
def headers : List Shape :=
  [.container blockHeader, .container teeBlockHeader]

/-- Every container of the chain, the states with either build of header. -/
def all : List Schema :=
  shared ++ [denebBlockBody, electraBlockBody] ++
    headers.flatMap fun header => [denebState header, electraState header]

theorem wellFormed_of_mem_all : ∀ schema ∈ all, schema.wellFormed := by
  decide

theorem denebState_mem_all
    {header : Shape} (hheader : header ∈ headers) : denebState header ∈ all :=
  List.mem_append_right _ (List.mem_flatMap.mpr ⟨header, hheader, List.mem_cons_self⟩)

theorem electraState_mem_all
    {header : Shape} (hheader : header ∈ headers) : electraState header ∈ all :=
  List.mem_append_right _ (List.mem_flatMap.mpr
    ⟨header, hheader, List.mem_cons_of_mem _ List.mem_cons_self⟩)

/-- The encoding of a container of the chain loses nothing but its sizes, as long
as its offsets do not wrap around. -/
theorem eq_of_encode_eq_of_mem_all
    {schema : Schema} (hschema : schema ∈ all) {v w : Value}
    (hv : v.HasShape (.container schema)) (hw : w.HasShape (.container schema))
    (hsizes : v.sameSizes w)
    (hfit : v.encode.size < 2 ^ 32) (hencode : v.encode = w.encode) : v = w :=
  hv.eq_of_encode_eq hw (wellFormed_of_mem_all schema hschema) hsizes hfit hencode

/-- Requests of one withdrawal and of nothing else. -/
def oneWithdrawalRequest : Value :=
  .container executionRequests
    [.list (.container depositRequest) 4 [],
      .list (.container withdrawalRequest) 4
        [.container withdrawalRequest
          [.bytes (Bytes.fill 1 addressLength), .bytes (Bytes.fill 2 publicKeyLength),
            .uint 8 32]],
      .list (.container consolidationRequest) 1 []]

theorem hasShape_oneWithdrawalRequest :
    oneWithdrawalRequest.HasShape (.container executionRequests) := by
  refine .container (.cons (.list (by decide) (.nil _))
    (.cons (.list (by decide) (.cons ?_ (.nil _)))
      (.cons (.list (by decide) (.nil _)) .nil)))
  exact .container (.cons (.bytes _) (.cons (.bytes _) (.cons (.uint (by decide)) .nil)))

theorem oneWithdrawalRequest_eq_of_encode_eq :
    oneWithdrawalRequest.encode.size = 88 ∧
      oneWithdrawalRequest = oneWithdrawalRequest :=
  have hsize : oneWithdrawalRequest.encode.size = 88 := by decide +kernel
  ⟨hsize,
    eq_of_encode_eq_of_mem_all (by simp [all, shared])
      hasShape_oneWithdrawalRequest hasShape_oneWithdrawalRequest
      (Value.sameSizes_refl _)
      (by rw [hsize]; decide) rfl⟩

end Schemas

end GenesisForge
