import GenesisForge.Proofs.BuildObstacles
import Mathlib.Data.Int.CardIntervalMod

/-!
# Committees before Electra

Before the Electra fork a validator is active at genesis exactly if it has the greatest
effective balance, and then no draw can turn it down.  So the selection takes its
candidates as they come, in the shuffled order over and over, and since that order is a
permutation all active validators are members equally often, up to one time.
-/

namespace GenesisForge

open Shuffle

/-! ## Taking turns -/

/-- Among the first numbers each remainder occurs equally often, up to one time. -/
theorem countP_mod_eq
    {count place : Nat} (hplace : place < count) (turns : Nat) :
    (List.range turns).countP (· % count = place) = turns / count ∨
      (List.range turns).countP (· % count = place) = (turns + count - 1) / count := by
  have hcount := Nat.count_modEq_card turns (Nat.zero_lt_of_lt hplace) place
  have hmod : (List.range turns).countP (· % count = place) =
      turns / count + if place < turns % count then 1 else 0 := by
    rw [Nat.mod_eq_of_lt hplace] at hcount
    rw [← hcount, Nat.count]
    simp only [Nat.ModEq, Nat.mod_eq_of_lt hplace]
  rw [hmod]
  split
  · next hrest =>
    right
    have hdivision := Nat.div_add_mod turns count
    have hremainder := Nat.mod_lt turns (Nat.zero_lt_of_lt hplace)
    symm
    rw [Nat.div_eq_iff (Nat.zero_lt_of_lt hplace), Nat.add_mul, Nat.mul_comm]
    omega
  · exact .inl (Nat.add_zero _)

/-- In the order of a permutation, over and over, everybody has one turn of each pass. -/
theorem exists_turn
    {members : List Nat} (hnodup : members.Nodup) {order : Nat → Nat}
    (horder : Set.BijOn order (Set.Iio members.length) (Set.Iio members.length))
    {index : Nat} (hindex : index ∈ members) :
    ∃ place < members.length,
      ∀ i, members[order (i % members.length)]? = some index ↔ i % members.length = place := by
  obtain ⟨target, htarget, rfl⟩ := List.getElem_of_mem hindex
  obtain ⟨place, hplace, rfl⟩ := horder.surjOn htarget
  refine ⟨place, hplace, fun i => ?_⟩
  have hturn : i % members.length < members.length := Nat.mod_lt _ (Nat.zero_lt_of_lt hplace)
  have hmember : order (i % members.length) < members.length := horder.mapsTo hturn
  rw [List.getElem?_eq_getElem hmember, Option.some_inj, hnodup.getElem_inj_iff]
  exact horder.injOn.eq_iff hturn hplace

/-- Who is taken in the order of a permutation, over and over, is taken equally often, up
to one time. -/
theorem count_turns
    {members : List Nat} (hnodup : members.Nodup) {order : Nat → Nat}
    (horder : Set.BijOn order (Set.Iio members.length) (Set.Iio members.length))
    {index : Nat} (hindex : index ∈ members) (turns : Nat) {taken : List Nat}
    (htaken : taken.map some =
      (List.range turns).map fun i => members[order (i % members.length)]?) :
    taken.count index = turns / members.length ∨
      taken.count index = (turns + members.length - 1) / members.length := by
  obtain ⟨place, hplace, hturn⟩ := exists_turn hnodup horder hindex
  have hcount : taken.count index =
      (List.range turns).countP (· % members.length = place) := by
    rw [← List.count_map_of_injective taken some (Option.some_injective Nat), htaken,
      List.count_eq_countP, List.countP_map]
    refine List.countP_congr fun i _ => ?_
    simp [hturn]
  rw [hcount]
  exact countP_mod_eq hplace turns

/-! ## The draw at genesis -/

theorem nodup_activeIndices (validators : List Validator) (epoch : UInt64) :
    (activeIndices validators epoch).Nodup := by
  have hplaces : ((validators.zipIdx 0).map (·.2)).Nodup := by
    rw [List.zipIdx_map_snd]
    exact List.nodup_range'
  rw [activeIndices, activeFrom_eq]
  exact hplaces.sublist (List.filter_sublist.map _)

section

variable (hash : Hash) (spec : ChainSpec) (fork : ForkName) (given : List GenesisValidator)
variable (mix : Root)

/-- The indices of the genesis validators that are active when the committee is drawn. -/
def genesisActive : List Nat :=
  activeIndices (registryEntries spec fork given) committeeEpoch

/-- The place among the active validators that the shuffle proposes in a turn. -/
def proposedPlace (turn : Nat) : Nat :=
  shuffledIndex hash (syncCommitteeSeed hash committeeEpoch mix)
    (genesisActive spec fork given).length (spec.size .shuffleRoundCount)
    (turn % (genesisActive spec fork given).length)

/-- The candidates of the draw at genesis. -/
def genesisCandidates : Candidates :=
  shuffledCandidates hash (syncCommitteeSeed hash committeeEpoch mix)
    (spec.size .shuffleRoundCount) (genesisActive spec fork given).toArray
    (registryEntries spec fork given).toArray

/-- The members of the committee at genesis, if at most `most` candidates need to be
looked at to find them. -/
def genesisMembers (most : Nat) : Option (List Nat) :=
  selectFrom (.ofFork spec fork) hash (syncCommitteeSeed hash committeeEpoch mix)
    (genesisCandidates hash spec fork given mix) most (spec.size .syncCommitteeSize) 0
    (.zero 32) []

variable {fork given}

theorem ofFork_of_ne_electra (hfork : fork ≠ .electra) :
    Lottery.ofFork spec fork = ⟨1, spec.value .maxEffectiveBalance⟩ := by
  cases fork with
  | electra => exact absurd rfl hfork
  | _ => rfl

variable {spec}

theorem some_propose
    (hactive : genesisActive spec fork given ≠ []) (turn : Nat) :
    some ((genesisCandidates hash spec fork given mix).propose turn) =
      (genesisActive spec fork given)[proposedPlace hash spec fork given mix turn]? :=
  some_propose_drawnCandidates hactive turn

theorem propose_mem_genesisActive
    (hactive : genesisActive spec fork given ≠ []) (turn : Nat) :
    (genesisCandidates hash spec fork given mix).propose turn ∈ genesisActive spec fork given :=
  propose_mem_activeIndices hactive turn

theorem balance_genesisCandidates
    (hfork : fork ≠ .electra) {index : Nat} (hindex : index ∈ genesisActive spec fork given) :
    (genesisCandidates hash spec fork given mix).balance index =
      spec.value .maxEffectiveBalance := by
  obtain ⟨entry, hentry, hactive⟩ := mem_activeIndices_iff.mp hindex
  have hgiven := hentry
  rw [registryEntries, List.getElem?_map, Option.map_eq_some_iff] at hgiven
  obtain ⟨v, -, rfl⟩ := hgiven
  rw [isActiveAt_toEntry] at hactive
  have hbalance : (genesisCandidates hash spec fork given mix).balance index =
      v.effectiveBalance spec fork := balance_drawnCandidates hentry
  rw [hbalance, GenesisValidator.effectiveBalance_of_isActive hfork hactive]

/-- No candidate is turned down, whatever hash it draws from. -/
theorem acceptsInWords_genesisCandidates
    (hfork : fork ≠ .electra) (hwords : spec.size .maxEffectiveBalance * 255 < 2 ^ 64)
    (hactive : genesisActive spec fork given ≠ []) (source : Root) (turn : Nat) :
    (Lottery.ofFork spec fork).AcceptsInWords ((Lottery.ofFork spec fork).draw source turn)
      ((genesisCandidates hash spec fork given mix).balance
        ((genesisCandidates hash spec fork given mix).propose turn)) := by
  have hfull : (Lottery.ofFork spec fork).IsFull (spec.value .maxEffectiveBalance) := by
    rw [ofFork_of_ne_electra spec hfork]
    exact ⟨UInt64.le_refl _, hwords⟩
  rw [balance_genesisCandidates hash mix hfork (propose_mem_genesisActive hash mix hactive turn)]
  exact hfull.acceptsInWords source turn

theorem syncCommitteeIndices_registryEntries
    (hactive : genesisActive spec fork given ≠ []) :
    syncCommitteeIndices hash spec fork (registryEntries spec fork given) mix =
      match genesisMembers hash spec fork given mix (2 ^ 64) with
      | some indices => .ok indices
      | none => .error .neverFull :=
  syncCommitteeIndices_of_active hactive

/-- Before Electra the committee at genesis is drawn in as many turns as it has members:
every candidate is accepted, the members are the active validators in the shuffled order,
over and over, and each of them is a member equally often, up to one time. -/
theorem genesisCommittee_is_balanced
    (hfork : fork ≠ .electra) (hwords : spec.size .maxEffectiveBalance * 255 < 2 ^ 64)
    (hactive : genesisActive spec fork given ≠ []) :
    let active := genesisActive spec fork given
    let size := spec.size .syncCommitteeSize
    ∃ indices,
      syncCommitteeIndices hash spec fork (registryEntries spec fork given) mix = .ok indices ∧
      (∀ most, genesisMembers hash spec fork given mix most =
        if size ≤ most then some indices else none) ∧
      (∀ source turn, (Lottery.ofFork spec fork).AcceptsInWords
        ((Lottery.ofFork spec fork).draw source turn)
        ((genesisCandidates hash spec fork given mix).balance
          ((genesisCandidates hash spec fork given mix).propose turn))) ∧
      indices.map some = (List.range size).map
        (fun turn => active[proposedPlace hash spec fork given mix turn]?) ∧
      (∀ index ∈ active, indices.count index = size / active.length ∨
        indices.count index = (size + active.length - 1) / active.length) ∧
      ∀ index, index ∉ active → index ∉ indices := by
  intro active size
  have haccepts (source : Root) (turn : Nat) :=
    acceptsInWords_genesisCandidates hash mix hfork hwords hactive source turn
  let indices := (List.range size).map (genesisCandidates hash spec fork given mix).propose
  have hmembers (most : Nat) : genesisMembers hash spec fork given mix most =
      if size ≤ most then some indices else none := by
    rw [genesisMembers, selectFrom_of_accepts fun source turn => (haccepts source turn).accepts,
      List.reverse_nil, List.nil_append, ← List.range_eq_range']
  have hfits : size ≤ 2 ^ 64 := Nat.le_of_lt (spec.value .syncCommitteeSize).toNat_lt
  have hturns : indices.map some = (List.range size).map
      (fun turn => active[proposedPlace hash spec fork given mix turn]?) := by
    rw [List.map_map]
    exact List.map_congr_left fun turn _ => some_propose hash mix hactive turn
  refine ⟨indices, ?_, hmembers, haccepts, hturns, fun index hindex => ?_, fun index hindex => ?_⟩
  · rw [syncCommitteeIndices_registryEntries hash mix hactive, hmembers, if_pos hfits]
  · exact count_turns (nodup_activeIndices _ _) (bijOn_shuffledIndex _ _ _ _) hindex size hturns
  · intro hmember
    obtain ⟨turn, -, rfl⟩ := List.mem_map.mp hmember
    exact hindex (propose_mem_genesisActive hash mix hactive turn)

end

/-- Three validators with enough balance to be active, and one without. -/
def turnTakers : List GenesisValidator :=
  [⟨.zero _, .zero 32, none⟩, ⟨.zero _, .zero 32, some 31999999999⟩,
    ⟨.zero _, .zero 32, some 40000000000⟩, ⟨.zero _, .zero 32, some 32000000000⟩]

theorem genesisCommittee_turnTakers :
    genesisActive .mainnet .deneb turnTakers = [0, 2, 3] ∧
      ∃ indices, syncCommitteeIndices sha256 .mainnet .deneb
          (registryEntries .mainnet .deneb turnTakers) (.zero 32) = .ok indices ∧
        (∀ index ∈ [0, 2, 3], indices.count index = 170 ∨ indices.count index = 171) ∧
        1 ∉ indices := by
  have hactive : genesisActive .mainnet .deneb turnTakers = [0, 2, 3] := by decide
  have hsome : genesisActive .mainnet .deneb turnTakers ≠ [] := by
    rw [hactive]
    exact List.cons_ne_nil _ _
  have hsize : ChainSpec.mainnet.size .syncCommitteeSize = 512 := rfl
  obtain ⟨indices, hindices, -, -, -, hcount, hnone⟩ :=
    genesisCommittee_is_balanced sha256 (.zero 32) (by decide) (by decide) hsome
  rw [hactive, hsize] at hcount
  rw [hactive] at hnone
  exact ⟨hactive, indices, hindices, hcount, hnone 1 (by decide)⟩

end GenesisForge
