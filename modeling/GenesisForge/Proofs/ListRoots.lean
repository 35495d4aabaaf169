import GenesisForge.Proofs.ConsistentGenesis
import GenesisForge.Proofs.StateRoots

/-!
# Roots of lists

The transactions, the withdrawals and the validators are committed to by the
roots of their lists.  Two lists with the same root are equal, or two of the
messages hashed for their roots have the same digest.

A transaction that ends in zeros has the chunks of a shorter one, an empty
transaction those of none, and a missing transaction the leaf of zeros.  Only the
lengths that are mixed in tell them apart, those of the transactions as well as
that of their list.
-/

namespace GenesisForge

open Ssz

namespace Ssz

/-- A message of the first list and another one of the second, both of 64 bytes,
have the same digest. -/
def CollisionAmong (xs ys : List ByteArray) : Prop :=
  ∃ x ∈ xs, ∃ y ∈ ys, x ≠ y ∧ x.size = 64 ∧ y.size = 64 ∧ sha256 x = sha256 y

instance (xs ys : List ByteArray) : Decidable (CollisionAmong xs ys) :=
  inferInstanceAs
    (Decidable (∃ x ∈ xs, ∃ y ∈ ys, x ≠ y ∧ x.size = 64 ∧ y.size = 64 ∧ sha256 x = sha256 y))

/-! ## Values of one shape -/

theorem Value.HasShape.eq_or_collision_of_treeRoot?_eq
    {v w : Value} {shape : Shape} {root : Root} (hv : v.HasShape shape) (hw : w.HasShape shape)
    (hformed : shape.wellFormed) (hsizes : v.sameSizes w)
    (hroot : v.treeRoot? = some root) (hother : w.treeRoot? = some root) :
    v = w ∨ CollisionAmong v.hashedMessages w.hashedMessages := by
  rw [Value.treeRoot?, Option.ite_none_right_eq_some] at hroot hother
  have hroots : v.treeRoot = w.treeRoot :=
    Option.some.inj (hroot.2.trans hother.2.symm)
  by_cases hnone : Merkle.NoCollision Merkle.sha256Pair v.rootPairs w.rootPairs
  · left
    exact hv.eq_of_treeRoot_eq hw hformed hsizes hroot.1 hroots hnone
  · right
    exact Value.collision_of_not_noCollision hnone

theorem pairwiseSameSizes_of_forall
    {as bs : List Value} (heach : ∀ a ∈ as, ∀ b ∈ bs, a.sameSizes b) :
    pairwiseSameSizes as bs := by
  induction as generalizing bs with
  | nil => simp [pairwiseSameSizes]
  | cons a as ih =>
      cases bs with
      | nil => simp [pairwiseSameSizes]
      | cons b bs =>
          rw [pairwiseSameSizes]
          constructor
          · exact heach a List.mem_cons_self b List.mem_cons_self
          · apply ih
            intro v hv w hw
            exact heach v (List.mem_cons_of_mem a hv) w (List.mem_cons_of_mem b hw)

theorem pairwiseSameSizes_of_forall₂
    {P Q : Value → Field → Prop} {as bs : List Value} {fields : List Field}
    (has : List.Forall₂ P as fields) (hbs : List.Forall₂ Q bs fields)
    (heach : ∀ f ∈ fields, ∀ a b, P a f → Q b f → a.sameSizes b) :
    pairwiseSameSizes as bs := by
  induction has generalizing bs with
  | nil => simp [pairwiseSameSizes]
  | @cons a f as fields ha _ ih =>
      cases hbs with
      | @cons b f bs fields hb hbs =>
          rw [List.forall_mem_cons] at heach
          rw [pairwiseSameSizes]
          exact ⟨heach.1 a b ha hb, ih hbs heach.2⟩

/-- Where the shape tells all sizes, the configuration has none to choose. -/
theorem Value.HasShape.sameSizes_of_isStatic
    {v w : Value} {shape : Shape} (hv : v.HasShape shape) (hw : w.HasShape shape)
    (hstatic : shape.isStatic) : v.sameSizes w := by
  induction hv using Value.HasShape.induction generalizing w with
  | uint | boolean | root => cases hw; simp [Value.sameSizes]
  | bytes data =>
      obtain ⟨other, rfl, -⟩ := hw.exists_eq_bytes
      simp [Value.sameSizes]
  | byteList | list | vector | bitvector | bitlist => simp [Shape.isStatic] at hstatic
  | array element items hitems ih =>
      obtain ⟨others, rfl, -, hothers⟩ := hw.exists_eq_array
      rw [Shape.isStatic] at hstatic
      rw [Value.sameSizes]
      apply pairwiseSameSizes_of_forall
      intro a ha b hb
      exact ih a ha (hothers b hb) hstatic
  | container schema values hfields ih =>
      cases hw with
      | @container _ others hothers =>
          obtain ⟨name, sizing, fields⟩ := schema
          cases sizing with
          | byValue fixed => simp [Shape.isStatic, Schema.isStatic] at hstatic
          | byShape =>
              rw [Shape.isStatic, Schema.isStatic, allStatic_eq, List.all_eq_true] at hstatic
              rw [Value.sameSizes]
              refine pairwiseSameSizes_of_forall₂ ih (hasFields_iff.mp hothers) ?_
              rintro f hf a b ⟨_, hsame⟩ hb
              exact hsame hb (hstatic f hf)

/-- Lists under one limit are bound by their roots if their elements have no sizes
to choose. -/
theorem Bounded.eq_or_collision_of_treeRoot?_eq
    {α : Type} [Serializable α] {a b : Bounded α} {root : Root}
    (hstatic : (Serializable.shape α).isStatic)
    (hformed : (Shape.list (Serializable.shape α)).wellFormed) (hlimit : a.limit = b.limit)
    (ha : (toValue a).treeRoot? = some root) (hb : (toValue b).treeRoot? = some root) :
    a = b ∨ CollisionAmong (toValue a).hashedMessages (toValue b).hashedMessages := by
  have hsizes : (toValue a).sameSizes (toValue b) := by
    change (Value.list _ a.limit _).sameSizes (Value.list _ b.limit _)
    rw [Value.sameSizes]
    refine ⟨hlimit, pairwiseSameSizes_of_forall ?_⟩
    simp only [List.forall_mem_map]
    intro x _ y _
    exact (Serializable.hasShape x).sameSizes_of_isStatic (Serializable.hasShape y) hstatic
  have hbound := (Serializable.hasShape a).eq_or_collision_of_treeRoot?_eq
    (Serializable.hasShape b) hformed hsizes ha hb
  exact hbound.imp_left toValue_injective

end Ssz

/-! ## Transactions -/

theorem transactionsValue_injective
    {spec : ChainSpec} {transactions others : List ByteArray}
    (hvalues : transactionsValue spec transactions = transactionsValue spec others) :
    transactions = others := by
  unfold transactionsValue at hvalues
  injection hvalues with _ _ hitems
  refine List.map_injective_iff.mpr ?_ hitems
  intro data other hdata
  injection hdata

theorem transactionsValue_sameSizes
    (spec : ChainSpec) (transactions others : List ByteArray) :
    (transactionsValue spec transactions).sameSizes (transactionsValue spec others) := by
  unfold transactionsValue
  rw [Value.sameSizes]
  refine ⟨rfl, pairwiseSameSizes_of_forall ?_⟩
  simp only [List.forall_mem_map]
  intro data _ other _
  rw [Value.sameSizes]

theorem treeRoot?_of_transactionsRoot
    {spec : ChainSpec} {transactions : List ByteArray} {root : Root}
    (hroot : transactionsRoot spec transactions = .ok root) :
    (transactionsValue spec transactions).HasShape (.list .byteList) ∧
      (transactionsValue spec transactions).treeRoot? = some root := by
  obtain ⟨bound, hbound, hlisted⟩ := bind_eq_ok_iff.mp hroot
  obtain ⟨list, hlist, htree⟩ := bind_eq_ok_iff.mp hlisted
  rw [← toValue_eq_transactionsValue hbound hlist]
  exact ⟨Serializable.hasShape list, treeRoot?_of_rootOf htree⟩

theorem transactions_eq_or_collision
    {spec : ChainSpec} {transactions others : List ByteArray} {root : Root}
    (hroot : transactionsRoot spec transactions = .ok root)
    (hother : transactionsRoot spec others = .ok root) :
    transactions = others ∨
      CollisionAmong (transactionsValue spec transactions).hashedMessages
        (transactionsValue spec others).hashedMessages := by
  obtain ⟨hshape, htree⟩ := treeRoot?_of_transactionsRoot hroot
  obtain ⟨hotherShape, hotherTree⟩ := treeRoot?_of_transactionsRoot hother
  have hbound := hshape.eq_or_collision_of_treeRoot?_eq hotherShape (by decide)
    (transactionsValue_sameSizes spec transactions others) htree hotherTree
  exact hbound.imp_left transactionsValue_injective

/-! ## Withdrawals and validators -/

/-- The list of withdrawals as it is hashed. -/
def withdrawalsValue (spec : ChainSpec) (withdrawals : List Withdrawal) : Value :=
  .list (.container Schemas.withdrawal) (spec.size .maxWithdrawalsPerPayload)
    (withdrawals.map toValue)

theorem withdrawals_eq_or_collision
    {spec : ChainSpec} {withdrawals others : List Withdrawal} {root : Root}
    (hroot : withdrawalsRoot spec withdrawals = .ok root)
    (hother : withdrawalsRoot spec others = .ok root) :
    withdrawals = others ∨
      CollisionAmong (withdrawalsValue spec withdrawals).hashedMessages
        (withdrawalsValue spec others).hashedMessages := by
  obtain ⟨list, hlist, htree⟩ := bind_eq_ok_iff.mp hroot
  obtain ⟨otherList, hotherList, hotherTree⟩ := bind_eq_ok_iff.mp hother
  obtain ⟨rfl, hlimit⟩ := Bounded.ofList_eq_ok (eq_ok_of_mapError_eq_ok hlist)
  obtain ⟨rfl, hotherLimit⟩ := Bounded.ofList_eq_ok (eq_ok_of_mapError_eq_ok hotherList)
  have hvalue : withdrawalsValue spec list.items = toValue list := by
    rw [withdrawalsValue, ← hlimit]
    rfl
  have hotherValue : withdrawalsValue spec otherList.items = toValue otherList := by
    rw [withdrawalsValue, ← hotherLimit]
    rfl
  rw [hvalue, hotherValue]
  have hbound := Bounded.eq_or_collision_of_treeRoot?_eq (by decide) (by decide)
    (hlimit.trans hotherLimit.symm) (treeRoot?_of_rootOf htree) (treeRoot?_of_rootOf hotherTree)
  exact hbound.imp_left (congrArg Bounded.items)

theorem registry_eq_or_collision
    {spec : ChainSpec} {fork otherFork : ForkName} {validators others : List GenesisValidator}
    {entries otherEntries : Bounded Validator} {root : Root}
    (hregistry : registry spec fork validators = .ok (entries, root))
    (hother : registry spec otherFork others = .ok (otherEntries, root)) :
    entries = otherEntries ∨
      CollisionAmong (toValue entries).hashedMessages (toValue otherEntries).hashedMessages := by
  have hlimit : entries.limit = otherEntries.limit :=
    (items_of_registry hregistry).2.trans (items_of_registry hother).2.symm
  exact Bounded.eq_or_collision_of_treeRoot?_eq (by decide) (by decide) hlimit
    (treeRoot?_of_registry hregistry) (treeRoot?_of_registry hother)

/-! ## All three lists -/

/-- No two lists of transactions, of withdrawals or of entries of the registry have
the same root without a collision among the messages hashed for it. -/
theorem eq_or_collision_of_list_root_eq
    (spec : ChainSpec) :
    (∀ transactions others root,
      transactionsRoot spec transactions = .ok root → transactionsRoot spec others = .ok root →
      transactions = others ∨
        CollisionAmong (transactionsValue spec transactions).hashedMessages
          (transactionsValue spec others).hashedMessages) ∧
    (∀ withdrawals others root,
      withdrawalsRoot spec withdrawals = .ok root → withdrawalsRoot spec others = .ok root →
      withdrawals = others ∨
        CollisionAmong (withdrawalsValue spec withdrawals).hashedMessages
          (withdrawalsValue spec others).hashedMessages) ∧
    ∀ fork otherFork validators others entries otherEntries root,
      registry spec fork validators = .ok (entries, root) →
      registry spec otherFork others = .ok (otherEntries, root) →
      entries = otherEntries ∨
        CollisionAmong (toValue entries).hashedMessages (toValue otherEntries).hashedMessages := by
  refine ⟨?_, ?_, ?_⟩
  · intro transactions others root
    exact transactions_eq_or_collision
  · intro withdrawals others root
    exact withdrawals_eq_or_collision
  · intro fork otherFork validators others entries otherEntries root
    exact registry_eq_or_collision

/-- Three transactions that differ in trailing zeros only. -/
def paddedTransactions : List ByteArray :=
  [ByteArray.empty, Bytes.fill 0 1, Bytes.fill 0 32]

def soloWithdrawal : Withdrawal := ⟨0, 0, .zero _, 1⟩

/-- On the main network a validator has the same entry on both forks, and so has the
registry the same root. -/
theorem eq_or_collision_mainnet :
    ∃ payloadRoot withdrawn entries otherEntries root,
      transactionsRoot .mainnet paddedTransactions = .ok payloadRoot ∧
      withdrawalsRoot .mainnet [soloWithdrawal] = .ok withdrawn ∧
      registry .mainnet .deneb [soloValidator] = .ok (entries, root) ∧
      registry .mainnet .electra [soloValidator] = .ok (otherEntries, root) ∧
      (paddedTransactions = paddedTransactions ∨
        CollisionAmong (transactionsValue .mainnet paddedTransactions).hashedMessages
          (transactionsValue .mainnet paddedTransactions).hashedMessages) ∧
      ([soloWithdrawal] = [soloWithdrawal] ∨
        CollisionAmong (withdrawalsValue .mainnet [soloWithdrawal]).hashedMessages
          (withdrawalsValue .mainnet [soloWithdrawal]).hashedMessages) ∧
      (entries = otherEntries ∨
        CollisionAmong (toValue entries).hashedMessages
          (toValue otherEntries).hashedMessages) := by
  obtain ⟨payloadRoot, htransactions⟩ :
      ∃ root, transactionsRoot .mainnet paddedTransactions = .ok root :=
    (failsWith_transactionsRoot _).isOk_iff.mpr (by decide)
  obtain ⟨withdrawn, hwithdrawals⟩ :
      ∃ root, withdrawalsRoot .mainnet [soloWithdrawal] = .ok root :=
    (failsWith_withdrawalsRoot _).isOk_iff.mpr (by decide)
  obtain ⟨⟨entries, root⟩, hregistry⟩ :
      ∃ pair, registry .mainnet .deneb [soloValidator] = .ok pair :=
    (failsWith_registry _ _).isOk_iff.mpr (by decide)
  have hother : registry .mainnet .electra [soloValidator] = .ok (entries, root) := hregistry
  obtain ⟨hfirst, hsecond, hthird⟩ := eq_or_collision_of_list_root_eq .mainnet
  exact ⟨payloadRoot, withdrawn, entries, entries, root, htransactions, hwithdrawals, hregistry,
    hother, hfirst _ _ _ htransactions htransactions, hsecond _ _ _ hwithdrawals hwithdrawals,
    hthird _ _ _ _ _ _ _ hregistry hother⟩

end GenesisForge
