import GenesisForge.Proofs.OffsetTable
import Mathlib.Data.List.Zip

/-!
# Two ways of sizing a container

The fixed part of a container is as long as the shapes of its fields tell, or as long as
the field values announce.  A shape that leaves the length open is given the width of an
offset, which is right for a field behind an offset and wrong for one in place.  No
container of the chain that is sized by its shape has such a field in place, at any depth,
so its values could size it as well: they give the same bytes and announce the same length.
-/

namespace GenesisForge
namespace Ssz

/-! ## Slots as told by shapes -/

theorem Shape.staticLength_of_not_isFixed :
    ∀ {shape : Shape}, ¬ shape.isFixed → shape.staticLength = offsetWidth
  | .byteList, _ | .list _, _ | .vector _, _ | .bitlist, _ => rfl
  | .array _ _, hvariable => if_neg hvariable
  | .container (.mk _ (.byValue _) _), _ => rfl
  | .container (.mk _ .byShape _), hvariable => if_neg hvariable
  | .uint _, hvariable | .boolean, hvariable | .root, hvariable | .bytes _, hvariable
  | .bitvector, hvariable => absurd rfl hvariable

theorem valueParts_eq_fieldParts
    {values : List Value} {fields : List Field}
    (hfields : List.Forall₂ (fun v (f : Field) => v.HasShape f.shape) values fields) :
    valueParts values = fieldParts fields values := by
  rw [fieldParts_eq]
  exact map_isFixed_eq_zipWith hfields fun fixed v => Part.mk fixed v.encode

theorem containerLength_eq
    {values : List Value} {fields : List Field}
    (hfields : List.Forall₂ (fun v (f : Field) => v.HasShape f.shape) values fields) :
    containerLength values =
      (List.zipWith
        (fun (f : Field) (v : Value) =>
          (if f.shape.isFixed then 0 else offsetWidth) + v.byteLength)
        fields values).sum := by
  rw [containerLength, ← List.foldl_map (g := (· + ·)), ← List.sum_eq_foldl]
  exact congrArg List.sum (map_isFixed_eq_zipWith hfields fun fixed v =>
    (if fixed then 0 else offsetWidth) + v.byteLength)

theorem allFixed_iff_forall_values
    {values : List Value} {fields : List Field}
    (hfields : List.Forall₂ (fun v (f : Field) => v.HasShape f.shape) values fields) :
    allFixed fields ↔ ∀ v ∈ values, v.isFixed := by
  rw [allFixed_eq, List.all_eq_true]
  induction hfields with
  | nil => simp
  | @cons v f values fields hhead _ ih =>
      rw [List.forall_mem_cons, List.forall_mem_cons, ih, Value.isFixed, hhead.shape_eq]

/-! ## Containers sized by their shape -/

section

variable {name : String} {fields : List Field} {values : List Value}
  (hfields : List.Forall₂ (fun v (f : Field) => v.HasShape f.shape) values fields)
  (htells : (Schema.mk name .byShape fields).tellsSizes)

include hfields htells

theorem announces_staticLength :
    List.Forall₂ (fun (v : Value) (f : Field) =>
      f.shape.isFixed → v.byteLength = f.shape.staticLength) values fields := by
  refine (forall₂_mem hfields).imp ?_
  rintro v f ⟨hshape, _, hf⟩ hfixed
  exact hshape.byteLength_eq_staticLength (Schema.tellsSizes_fields htells f hf)
    (Schema.isStatic_of_tellsSizes htells f hf hfixed)

theorem slotLengths_eq_staticLengths : slotLengths values = staticLengths fields := by
  rw [slotLengths_eq hfields, staticLengths_eq]
  apply sum_zipWith_eq_sum_map
  refine (announces_staticLength hfields htells).imp ?_
  intro v f hannounces
  by_cases hfixed : f.shape.isFixed
  · rw [if_pos hfixed, hannounces hfixed]
  · rw [if_neg hfixed, Shape.staticLength_of_not_isFixed hfixed]

theorem appendContainer_eq_appendTo (out : ByteArray) :
    appendContainer values out =
      (Value.container (.mk name .byShape fields) values).appendTo out := by
  rw [appendContainer_eq, Value.appendTo_eq, Value.encode, valueParts_eq_fieldParts hfields,
    slotLengths_eq_staticLengths hfields htells]
  rfl

theorem containerLength_eq_byteLength :
    containerLength values = (Value.container (.mk name .byShape fields) values).byteLength := by
  have hannounce := announces_staticLength hfields htells
  have hlength : (Value.container (.mk name .byShape fields) values).byteLength =
      if allFixed fields then staticLengths fields else lengthByShape 0 fields values := by
    by_cases hfixed : allFixed fields
    · simp [Value.byteLength, Schema.sizing, Schema.isFixed, Schema.staticLength, hfixed]
    · simp [Value.byteLength, Schema.sizing, Schema.isFixed, Schema.fields, hfixed]
  rw [containerLength_eq hfields, hlength]
  split
  · next hfixed =>
    rw [allFixed_eq, List.all_eq_true] at hfixed
    rw [staticLengths_eq]
    apply sum_zipWith_eq_sum_map
    refine (forall₂_mem hannounce).imp ?_
    rintro v f ⟨hannounces, _, hf⟩
    rw [if_pos (hfixed f hf), Nat.zero_add, hannounces (hfixed f hf)]
  · rw [lengthByShape_eq, Nat.zero_add]
    refine congrArg List.sum (List.zipWith_congr _ _ _ _ (hannounce.flip.imp ?_))
    intro f v hannounces
    by_cases hfixed : f.shape.isFixed
    · rw [if_pos hfixed, if_pos hfixed, Nat.zero_add, hannounces hfixed]
    · rw [if_neg hfixed, if_neg hfixed]

end

end Ssz

/-! ## The containers of the chain -/

open Ssz

namespace Schemas

/-- The containers of the chain that are sized by their shapes. -/
def sizedByShape : List Schema :=
  all.filter fun schema => schema.sizing = .byShape

/-- A container that is sized by its shape is appended, and announced, as if its values
had sized it, and it is stored in place exactly if all of its values are. -/
theorem sizings_agree
    {schema : Schema} (hschema : schema ∈ sizedByShape)
    {values : List Value} (hvalues : Value.HasFields values schema.fields) (out : ByteArray) :
    appendContainer values out = (Value.container schema values).appendTo out ∧
      containerLength values = (Value.container schema values).byteLength ∧
      (schema.isFixed ↔ ∀ v ∈ values, v.isFixed) := by
  obtain ⟨hmem, hsizing⟩ := List.mem_filter.mp hschema
  have htells := Schema.tellsSizes_of_wellFormed (wellFormed_of_mem_all schema hmem)
  have hfields := hasFields_iff.mp hvalues
  obtain ⟨name, sizing, fields⟩ := schema
  obtain rfl : sizing = .byShape := of_decide_eq_true hsizing
  exact ⟨appendContainer_eq_appendTo hfields htells out,
    containerLength_eq_byteLength hfields htells, allFixed_iff_forall_values hfields⟩

theorem sizings_agree_on_oneWithdrawalRequest :
    ∃ values, oneWithdrawalRequest = .container executionRequests values ∧
      appendContainer values ⟨#[7]⟩ = oneWithdrawalRequest.appendTo ⟨#[7]⟩ ∧
      containerLength values = 88 ∧ ¬ ∀ v ∈ values, v.isFixed := by
  have hshape := hasShape_oneWithdrawalRequest
  unfold oneWithdrawalRequest at hshape ⊢
  cases hshape with
  | container hfields =>
      obtain ⟨happend, hlength, hfixed⟩ :=
        sizings_agree (List.mem_filter.mpr ⟨by simp [all, shared], rfl⟩) hfields ⟨#[7]⟩
      refine ⟨_, rfl, happend, hlength.trans rfl, fun hvalues => ?_⟩
      exact absurd (hfixed.mpr hvalues) (by decide)

example : sizedByShape.map Schema.name =
    ["Fork", "Checkpoint", "Eth1Data", "Validator", "Withdrawal", "HistoricalSummary",
      "BlockHeader", "TeeBlockHeader", "SignedBeaconBlockHeader", "ProposerSlashing",
      "AttesterSlashing", "IndexedAttestation", "Attestation", "AttestationData", "Deposit",
      "DepositData", "SignedVoluntaryExit", "VoluntaryExit", "SignedBlsToExecutionChange",
      "BlsToExecutionChange", "DepositRequest", "WithdrawalRequest", "ConsolidationRequest",
      "ExecutionRequests", "PendingDeposit", "PendingPartialWithdrawal", "PendingConsolidation",
      "ExecutionPayload", "ExecutionPayloadHeader"] := by
  decide

end Schemas

end GenesisForge
