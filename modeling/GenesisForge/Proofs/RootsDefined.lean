import GenesisForge.Proofs.GenesisBuild
import GenesisForge.Proofs.RootBinding

/-!
# Values that have roots

A root is defined exactly if no list has room for more than `2 ^ 49` chunks.  The
lists of a block body and that of the deposits are empty at genesis, and whether
they have roots is a matter of their limits alone.
-/

namespace GenesisForge

open Ssz

theorem Merkle.depthFor_le
    {leaves depth : Nat} (hleaves : leaves ≤ 2 ^ depth) : depthFor leaves ≤ depth := by
  unfold depthFor
  by_cases hfew : leaves ≤ 1
  · rw [if_pos hfew]
    exact Nat.zero_le depth
  · rw [if_neg hfew]
    have hlog : (leaves - 1).log2 < depth :=
      (Nat.log2_lt (by omega)).mpr (by omega)
    omega

theorem Merkle.depthFor_le_maxDepth_iff
    {leaves : Nat} : depthFor leaves ≤ maxDepth ↔ leaves ≤ 2 ^ 49 :=
  ⟨le_of_depthFor_le, depthFor_le⟩

theorem Ssz.Value.HasShape.hasRoot_of_isStatic
    {v : Value} {shape : Shape} (hshape : v.HasShape shape) (hstatic : shape.isStatic) :
    v.hasRoot := by
  induction hshape using Value.HasShape.induction with
  | uint | boolean | root | bytes => rfl
  | byteList | list | vector | bitvector | bitlist => simp [Shape.isStatic] at hstatic
  | array element items hitems ih =>
      rw [Shape.isStatic] at hstatic
      rw [Value.hasRoot, allHaveRoots_iff]
      exact fun v hv => ih v hv hstatic
  | container schema values hfields ih =>
      obtain ⟨name, sizing, fields⟩ := schema
      cases sizing with
      | byValue fixed => simp [Shape.isStatic, Schema.isStatic] at hstatic
      | byShape =>
          rw [Shape.isStatic, Schema.isStatic, allStatic_eq, List.all_eq_true] at hstatic
          rw [Value.hasRoot, allHaveRoots_iff]
          refine forall_mem_of_forall₂ (P := fun v => v.hasRoot) (forall₂_mem ih) ?_
          rintro v f ⟨⟨_, hhasRoot⟩, _, hf⟩
          exact hhasRoot (hstatic f hf)

theorem hasRoot_toValue
    {α : Type} [Serializable α] (a : α) (hstatic : (Serializable.shape α).isStatic) :
    (toValue a).hasRoot :=
  (Serializable.hasShape a).hasRoot_of_isStatic hstatic

theorem hasRoot_list_iff
    {element : Shape} {limit : Nat} {items : List Value} :
    (Value.list element limit items).hasRoot ↔
      element.chunkCount limit ≤ 2 ^ 49 ∧ ∀ v ∈ items, v.hasRoot := by
  rw [Value.hasRoot, Bool.and_eq_true, decide_eq_true_eq, allHaveRoots_iff,
    Merkle.depthFor_le_maxDepth_iff]

theorem hasRoot_nil_iff
    {element : Shape} {limit : Nat} (hunpacked : element.perChunk? = none) :
    (Value.list element limit []).hasRoot ↔ limit ≤ 2 ^ 49 := by
  rw [hasRoot_list_iff, Shape.chunkCount, hunpacked]
  simp

theorem hasRoot_byteList_iff
    {limit : Nat} {data : ByteArray} :
    (Value.byteList limit data).hasRoot ↔ (limit + 31) / 32 ≤ 2 ^ 49 := by
  rw [Value.hasRoot, decide_eq_true_eq, Merkle.depthFor_le_maxDepth_iff]

theorem hasRoot_container_iff
    {schema : Schema} {values : List Value} :
    (Value.container schema values).hasRoot ↔ ∀ v ∈ values, v.hasRoot := by
  rw [Value.hasRoot, allHaveRoots_iff]

/-! ## Lists that are given -/

/-- The list of transactions as it is hashed. -/
def transactionsValue (spec : ChainSpec) (transactions : List ByteArray) : Value :=
  .list .byteList (spec.size .maxTransactionsPerPayload)
    (transactions.map (.byteList (spec.size .maxBytesPerTransaction)))

theorem toValue_of_ofBytes_eq_ok
    {limit : Nat} {data : ByteArray} {list : ByteList}
    (hlist : ByteList.ofBytes limit data = .ok list) :
    toValue list = .byteList limit data := by
  obtain ⟨rfl, rfl⟩ := ByteList.ofBytes_eq_ok hlist
  rfl

theorem toValue_eq_transactionsValue
    {spec : ChainSpec} {transactions : List ByteArray} {bound : List ByteList}
    {list : Bounded ByteList} (hbound : boundTransactions spec transactions = .ok bound)
    (hlist : limited (Bounded.ofList (spec.size .maxTransactionsPerPayload) bound) = .ok list) :
    toValue list = transactionsValue spec transactions := by
  obtain ⟨hitems, hlimit⟩ := Bounded.ofList_eq_ok (eq_ok_of_mapError_eq_ok hlist)
  have hdata : List.Forall₂
      (fun data transaction =>
        toValue transaction = Value.byteList (spec.size .maxBytesPerTransaction) data)
      transactions bound :=
    (forall₂_of_mapM_eq_ok hbound).imp fun data transaction hmade =>
      toValue_of_ofBytes_eq_ok (eq_ok_of_mapError_eq_ok hmade)
  change Value.list .byteList list.limit (list.items.map toValue) = _
  rw [transactionsValue, hlimit, hitems]
  congr 1
  rw [← List.forall₂_eq_eq_eq, List.forall₂_map_left_iff, List.forall₂_map_right_iff]
  exact hdata.flip

/-- Only where there is a transaction is the tree of one asked for. -/
theorem hasRoot_transactionsValue_iff
    {spec : ChainSpec} {transactions : List ByteArray} :
    (transactionsValue spec transactions).hasRoot ↔
      spec.size .maxTransactionsPerPayload ≤ 2 ^ 49 ∧
        ∀ _data ∈ transactions, (spec.size .maxBytesPerTransaction + 31) / 32 ≤ 2 ^ 49 := by
  rw [transactionsValue, hasRoot_list_iff, List.forall_mem_map]
  simp only [hasRoot_byteList_iff]
  rfl

theorem hasRoot_bounded_iff
    {α : Type} [Serializable α] {list : Bounded α}
    (hunpacked : (Serializable.shape α).perChunk? = none)
    (hstatic : (Serializable.shape α).isStatic) :
    (toValue list).hasRoot ↔ list.limit ≤ 2 ^ 49 := by
  have hitems : ∀ v ∈ list.items.map toValue, v.hasRoot := by
    rw [List.forall_mem_map]
    exact fun a _ => hasRoot_toValue a hstatic
  change (Value.list _ list.limit _).hasRoot ↔ _
  rw [hasRoot_list_iff, Shape.chunkCount, hunpacked]
  exact and_iff_left hitems

/-! ## Lists that are empty at genesis -/

/-- The limits of lists that builds of both forks take the roots of. -/
def sharedLimits : List Parameter := [
  .validatorRegistryLimit, .maxTransactionsPerPayload, .maxWithdrawalsPerPayload,
  .maxProposerSlashings, .maxDeposits, .maxVoluntaryExits, .maxBlsToExecutionChanges,
  .maxBlobCommitmentsPerBlock]

/-- The limits of further lists that builds of a fork take the roots of. -/
def StateFork.ownLimits : StateFork → List Parameter
  | .deneb => [.maxAttesterSlashings, .maxAttestations]
  | .electra => [
      .maxAttesterSlashingsElectra, .maxAttestationsElectra, .maxDepositRequestsPerPayload,
      .maxWithdrawalRequestsPerPayload, .maxConsolidationRequestsPerPayload]

/-- No tree that a build takes the root of has room for more than `2 ^ 49` leaves. -/
structure ChainSpec.DefinesRoots (spec : ChainSpec) (fork : StateFork) : Prop where
  limits : ∀ p ∈ sharedLimits ++ fork.ownLimits, spec.size p ≤ 2 ^ 49
  transactionBytes : spec.size .maxBytesPerTransaction ≤ 32 * 2 ^ 49
  depositDepth : spec.size .depositContractTreeDepth ≤ 49

theorem ChainSpec.definesRoots_mainnet (fork : StateFork) : mainnet.DefinesRoots fork where
  limits := by cases fork <;> decide
  transactionBytes := by decide
  depositDepth := by decide

/-- The limits of the lists in a block body of a fork, which are all but that of
the registry. -/
def StateFork.bodyLimits (fork : StateFork) : List Parameter :=
  sharedLimits.tail ++ fork.ownLimits

section

variable {spec : ChainSpec}

theorem hasRoot_emptyList_iff
    {element : Schema} {limit : Parameter} :
    (emptyList spec element limit).hasRoot ↔ spec.size limit ≤ 2 ^ 49 :=
  hasRoot_nil_iff rfl

theorem hasRoot_noDeposits_iff :
    (noDeposits spec).hasRoot ↔ spec.depositListLimit ≤ 2 ^ 49 :=
  hasRoot_nil_iff rfl

theorem hasRoot_emptyPayload_iff :
    (emptyPayload spec).hasRoot ↔
      spec.size .maxTransactionsPerPayload ≤ 2 ^ 49 ∧
        spec.size .maxWithdrawalsPerPayload ≤ 2 ^ 49 := by
  have htransactions :
      (Value.list .byteList (spec.size .maxTransactionsPerPayload) []).hasRoot ↔
        spec.size .maxTransactionsPerPayload ≤ 2 ^ 49 := hasRoot_nil_iff rfl
  have hextra : (Value.byteList maxExtraDataLength ByteArray.empty).hasRoot := by decide
  have hfee : (Value.uint 32 0).hasRoot := rfl
  rw [emptyPayload, hasRoot_container_iff]
  simp (disch := decide) only [List.forall_mem_cons, hasRoot_toValue, hextra, hfee,
    htransactions, hasRoot_emptyList_iff]
  simp

theorem hasRoot_bodyValues_iff
    {attestation : Schema} {slashings attestations : Parameter} :
    (∀ v ∈ bodyValues spec attestation slashings attestations, v.hasRoot) ↔
      (∀ p ∈ sharedLimits.tail, spec.size p ≤ 2 ^ 49) ∧
        spec.size slashings ≤ 2 ^ 49 ∧ spec.size attestations ≤ 2 ^ 49 := by
  have hcommitments :
      (Value.list (.bytes Schemas.publicKeyLength)
        (spec.size .maxBlobCommitmentsPerBlock) []).hasRoot ↔
        spec.size .maxBlobCommitmentsPerBlock ≤ 2 ^ 49 := hasRoot_nil_iff rfl
  have haggregate : (emptySyncAggregate spec).hasRoot := rfl
  have hgraffiti : (Value.bytes (FixedBytes.zero 32).bytes).hasRoot := rfl
  rw [bodyValues]
  simp (disch := decide) only [List.forall_mem_cons, hasRoot_toValue, hgraffiti, haggregate,
    hasRoot_emptyPayload_iff, hcommitments, hasRoot_emptyList_iff]
  simp only [sharedLimits, List.tail_cons, List.forall_mem_cons]
  tauto

theorem hasRoot_genesisBody_iff
    {fork : StateFork} :
    (genesisBody spec fork).hasRoot ↔ ∀ p ∈ fork.bodyLimits, spec.size p ≤ 2 ^ 49 := by
  cases fork with
  | deneb =>
      rw [genesisBody, denebBody, hasRoot_container_iff, hasRoot_bodyValues_iff,
        StateFork.bodyLimits, List.forall_mem_append]
      simp only [StateFork.ownLimits, List.forall_mem_cons]
      tauto
  | electra =>
      rw [genesisBody, electraBody, hasRoot_container_iff, List.forall_mem_append,
        hasRoot_bodyValues_iff, List.forall_mem_singleton, hasRoot_container_iff,
        StateFork.bodyLimits, List.forall_mem_append]
      simp only [StateFork.ownLimits, List.forall_mem_cons, hasRoot_emptyList_iff]
      tauto

end

end GenesisForge
