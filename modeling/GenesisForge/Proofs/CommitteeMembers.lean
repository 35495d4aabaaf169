import GenesisForge.Genesis.SyncCommittee
import GenesisForge.Proofs.ByteStrings
import GenesisForge.Proofs.FirstFailures
import GenesisForge.Proofs.ShufflePermutation

/-!
# Members of the sync committee

The members are drawn from the active validators, since the order in which
candidates come never leaves them, and a selection that ends has as many members
as were missing.  A candidate is turned down by what it draws only if its balance is
less than the greatest one or too large to be compared in words.
-/

namespace GenesisForge

open Shuffle Bls

/-! ## Active validators -/

theorem activeFrom_eq
    (epoch : UInt64) (start : Nat) (validators : List Validator) :
    activeFrom epoch start validators =
      ((validators.zipIdx start).filter (·.1.isActiveAt epoch)).map (·.2) := by
  induction validators generalizing start with
  | nil => rfl
  | cons v rest ih =>
      rw [activeFrom, List.zipIdx_cons, List.filter_cons, ih (start + 1)]
      by_cases hactive : v.isActiveAt epoch
      · simp [hactive]
      · simp [hactive]

theorem mem_activeIndices_iff
    {validators : List Validator} {epoch : UInt64} {index : Nat} :
    index ∈ activeIndices validators epoch ↔
      ∃ v, validators[index]? = some v ∧ v.isActiveAt epoch := by
  rw [activeIndices, activeFrom_eq]
  simp [List.mk_mem_zipIdx_iff_getElem?]

theorem activeIndices_eq_nil_iff
    {validators : List Validator} {epoch : UInt64} :
    activeIndices validators epoch = [] ↔ ∀ v ∈ validators, ¬ v.isActiveAt epoch := by
  rw [List.eq_nil_iff_forall_not_mem]
  constructor
  · intro hnone v hv hactive
    obtain ⟨index, hindex⟩ := List.mem_iff_getElem?.mp hv
    exact hnone index (mem_activeIndices_iff.mpr ⟨v, hindex, hactive⟩)
  · intro hnone index hmem
    obtain ⟨v, hindex, hactive⟩ := mem_activeIndices_iff.mp hmem
    exact hnone v (List.mem_of_getElem? hindex) hactive

/-! ## Candidates -/

theorem propose_shuffledCandidates
    (hash : Hash) (seed : Root) (rounds : Nat) {active : Array Nat} (validators : Array Validator)
    (hactive : 0 < active.size) (counter : Nat) :
    (shuffledCandidates hash seed rounds active validators).propose counter =
      active.getD (shuffledIndex hash seed active.size rounds (counter % active.size)) 0 := by
  have hplace : counter % active.size < active.size := Nat.mod_lt _ hactive
  simp [shuffledCandidates, hplace, Thunk.get]

/-! ## Selected members -/

theorem selectFrom_zero
    (l : Lottery) (hash : Hash) (seed : Root) (candidates : Candidates) (fuel counter : Nat)
    (source : Root) (before : List Nat) :
    selectFrom l hash seed candidates fuel 0 counter source before = some before.reverse := by
  cases fuel <;> rfl

/-- What the acceptance of a candidate keeps true of the number of missing members
and those found, holds of a selection at its end. -/
theorem selectFrom_invariant
    {I : Nat → List Nat → Prop} {l : Lottery} {hash : Hash} {seed : Root}
    {candidates : Candidates} {fuel missing counter : Nat} {source : Root}
    {before indices : List Nat}
    (haccept : ∀ missing counter before, I (missing + 1) before →
      I missing (candidates.propose counter :: before))
    (hstart : I missing before)
    (hselect : selectFrom l hash seed candidates fuel missing counter source before =
      some indices) :
    I 0 indices.reverse := by
  induction fuel generalizing missing counter source before with
  | zero =>
      cases missing with
      | zero =>
          rw [selectFrom_zero, Option.some.injEq] at hselect
          rw [← hselect, List.reverse_reverse]
          exact hstart
      | succ missing => cases hselect
  | succ fuel ih =>
      cases missing with
      | zero =>
          rw [selectFrom_zero, ← selectFrom_zero l hash seed candidates fuel counter source]
            at hselect
          exact ih hstart hselect
      | succ missing =>
          simp only [selectFrom] at hselect
          -- Which hash the candidate draws from plays no part.
          generalize (if counter % l.perHash = 0 then l.source hash seed counter
            else source) = drawn at hselect
          split at hselect
          · exact ih (haccept missing counter before hstart) hselect
          · exact ih hstart hselect

theorem length_selectFrom
    {l : Lottery} {hash : Hash} {seed : Root} {candidates : Candidates}
    {fuel missing counter : Nat} {source : Root} {before indices : List Nat}
    (hselect : selectFrom l hash seed candidates fuel missing counter source before =
      some indices) :
    indices.length = before.length + missing := by
  have hend := selectFrom_invariant
    (I := fun left found => found.length + left = before.length + missing)
    (fun left counter found hfound => by rw [List.length_cons]; omega) rfl hselect
  rw [List.length_reverse] at hend
  exact hend

/-- Every member that a selection adds was proposed. -/
theorem forall_mem_selectFrom
    {P : Nat → Prop} {l : Lottery} {hash : Hash} {seed : Root} {candidates : Candidates}
    {fuel missing counter : Nat} {source : Root} {before indices : List Nat}
    (hpropose : ∀ c, P (candidates.propose c)) (hbefore : ∀ index ∈ before, P index)
    (hselect : selectFrom l hash seed candidates fuel missing counter source before =
      some indices) :
    ∀ index ∈ indices, P index := by
  have hend := selectFrom_invariant (I := fun _ found => ∀ index ∈ found, P index)
    (fun left counter found hfound => List.forall_mem_cons.mpr ⟨hpropose counter, hfound⟩)
    hbefore hselect
  intro index hmem
  exact hend index (List.mem_reverse.mpr hmem)

/-! ## The draw of a committee -/

section

variable (hash : Hash) (spec : ChainSpec) (fork : ForkName) (validators : List Validator)
variable (mix : Root)

/-- The candidates that the draw of a committee goes through. -/
def drawnCandidates : Candidates :=
  shuffledCandidates hash (syncCommitteeSeed hash committeeEpoch mix)
    (spec.size .shuffleRoundCount) (activeIndices validators committeeEpoch).toArray
    validators.toArray

/-- The members of the committee, if at most `most` candidates need to be examined to find
them. -/
def membersWithin (most : Nat) : Option (List Nat) :=
  selectFrom (.ofFork spec fork) hash (syncCommitteeSeed hash committeeEpoch mix)
    (drawnCandidates hash spec validators mix) most (spec.size .syncCommitteeSize) 0
    (.zero 32) []

variable {hash spec fork validators mix}

theorem syncCommitteeIndices_of_active (hactive : activeIndices validators committeeEpoch ≠ []) :
    syncCommitteeIndices hash spec fork validators mix =
      match membersWithin hash spec fork validators mix (2 ^ 64) with
      | some indices => .ok indices
      | none => .error .neverFull := by
  rw [syncCommitteeIndices]
  exact if_neg (by simpa using hactive)

theorem syncCommitteeIndices_of_nobody (hnone : activeIndices validators committeeEpoch = []) :
    syncCommitteeIndices hash spec fork validators mix = .error .noActiveValidators := by
  simp [syncCommitteeIndices, hnone]

theorem syncCommitteeIndices_eq_ok_iff {indices : List Nat} :
    syncCommitteeIndices hash spec fork validators mix = .ok indices ↔
      activeIndices validators committeeEpoch ≠ [] ∧
        membersWithin hash spec fork validators mix (2 ^ 64) = some indices := by
  by_cases hnone : activeIndices validators committeeEpoch = []
  · simp [syncCommitteeIndices_of_nobody hnone, hnone]
  · rw [syncCommitteeIndices_of_active hnone]
    cases membersWithin hash spec fork validators mix (2 ^ 64) with
    | none => simp
    | some selected => simp [hnone]

theorem some_propose_drawnCandidates
    (hactive : activeIndices validators committeeEpoch ≠ []) (counter : Nat) :
    some ((drawnCandidates hash spec validators mix).propose counter) =
      (activeIndices validators committeeEpoch)[shuffledIndex hash
        (syncCommitteeSeed hash committeeEpoch mix)
        (activeIndices validators committeeEpoch).length (spec.size .shuffleRoundCount)
        (counter % (activeIndices validators committeeEpoch).length)]? := by
  have hlength := List.length_pos_iff.mpr hactive
  have hplace := shuffledIndex_lt hash (syncCommitteeSeed hash committeeEpoch mix)
    (spec.size .shuffleRoundCount) (Nat.mod_lt counter hlength)
  unfold drawnCandidates
  rw [propose_shuffledCandidates _ _ _ _ (by simpa using hlength)]
  simp [hplace]

theorem propose_mem_activeIndices
    (hactive : activeIndices validators committeeEpoch ≠ []) (counter : Nat) :
    (drawnCandidates hash spec validators mix).propose counter ∈
      activeIndices validators committeeEpoch :=
  List.mem_of_getElem? (some_propose_drawnCandidates hactive counter).symm

theorem balance_drawnCandidates {index : Nat} {v : Validator} (hv : validators[index]? = some v) :
    (drawnCandidates hash spec validators mix).balance index = v.effectiveBalance := by
  simp [drawnCandidates, shuffledCandidates, hv]

theorem length_and_mem_of_syncCommitteeIndices
    {indices : List Nat}
    (hindices : syncCommitteeIndices hash spec fork validators mix = .ok indices) :
    indices.length = spec.size .syncCommitteeSize ∧
      ∀ index ∈ indices, index ∈ activeIndices validators committeeEpoch := by
  obtain ⟨hactive, hselect⟩ := syncCommitteeIndices_eq_ok_iff.mp hindices
  constructor
  · rw [length_selectFrom hselect, List.length_nil, Nat.zero_add]
  · exact forall_mem_selectFrom (propose_mem_activeIndices hactive) (by simp) hselect

/-- Where the selection ends, it is only missing for want of active validators. -/
theorem failsWith_syncCommitteeIndices
    (hends : syncCommitteeIndices hash spec fork validators mix ≠ .error .neverFull) :
    FailsWith (syncCommitteeIndices hash spec fork validators mix)
      [if activeIndices validators committeeEpoch = [] then some .noActiveValidators
        else none] := by
  refine FailsWith.check syncCommitteeIndices_of_nobody (fun hactive => ?_)
  rw [syncCommitteeIndices_of_active hactive] at hends ⊢
  cases hmembers : membersWithin hash spec fork validators mix (2 ^ 64) with
  | none =>
      rw [hmembers] at hends
      exact absurd rfl hends
  | some indices => exact ⟨indices, rfl⟩

end

/-! ## Candidates who are never turned down -/

namespace Lottery

theorem draw_le_greatestDraw (l : Lottery) (source : Root) (counter : Nat) :
    l.draw source counter ≤ l.greatestDraw := by
  have hvalue : Bytes.littleEndianValue (source.bytes.extract (counter % l.perHash * l.width)
      (counter % l.perHash * l.width + l.width)) < 256 ^ l.width := by
    refine Nat.lt_of_lt_of_le (Bytes.littleEndianValue_lt _)
      (Nat.pow_le_pow_right (by decide) ?_)
    rw [ByteArray.size_extract]
    omega
  rw [UInt64.le_iff_toNat_le, draw, greatestDraw, UInt64.toNat_ofNat', UInt64.toNat_ofNat']
  by_cases hwidth : l.width ≤ 8
  · have hword : 256 ^ l.width ≤ 2 ^ 64 := Nat.pow_le_pow_right (by decide : 0 < 256) hwidth
    omega
  · -- The greatest number of more than 8 bytes is cut down to the greatest word.
    obtain ⟨rest, hrest⟩ := Nat.exists_eq_add_of_le (Nat.le_of_not_le hwidth)
    have hpow : 256 ^ l.width = 2 ^ 64 * 256 ^ rest := by rw [hrest, Nat.pow_add]
    have hpos : 0 < 256 ^ rest := Nat.pow_pos (by decide)
    omega

/-- A draw accepts a balance, and both numbers that it compares are words. -/
structure AcceptsInWords (l : Lottery) (drawn balance : UInt64) : Prop where
  accepts : l.accepts drawn balance
  balance_lt : balance.toNat * l.greatestDraw.toNat < 2 ^ 64
  drawn_lt : l.ceiling.toNat * drawn.toNat < 2 ^ 64

/-- Where both products are words, they compare like the products of the numbers. -/
theorem accepts_iff_of_lt
    {l : Lottery} {drawn balance : UInt64}
    (hbalance : balance.toNat * l.greatestDraw.toNat < 2 ^ 64)
    (hdrawn : l.ceiling.toNat * drawn.toNat < 2 ^ 64) :
    l.accepts drawn balance ↔
      l.ceiling.toNat * drawn.toNat ≤ balance.toNat * l.greatestDraw.toNat := by
  rw [accepts, decide_eq_true_eq, UInt64.le_iff_toNat_le, UInt64.toNat_mul, UInt64.toNat_mul,
    Nat.mod_eq_of_lt hbalance, Nat.mod_eq_of_lt hdrawn]

-- A product that wraps around to zero lets every balance pass.
example : (⟨1, 2 ^ 57⟩ : Lottery).accepts 128 (2 ^ 56) := by
  decide

/-- A balance is no less than the one that others are compared with, and can be multiplied
by whatever is drawn. -/
structure IsFull (l : Lottery) (balance : UInt64) : Prop where
  ceiling_le : l.ceiling ≤ balance
  scaled_lt : balance.toNat * l.greatestDraw.toNat < 2 ^ 64

/-- A full balance is accepted whatever is drawn. -/
theorem IsFull.acceptsInWords
    {l : Lottery} {balance : UInt64} (hfull : l.IsFull balance) (source : Root)
    (counter : Nat) : l.AcceptsInWords (l.draw source counter) balance := by
  have hle : l.ceiling.toNat * (l.draw source counter).toNat ≤
      balance.toNat * l.greatestDraw.toNat :=
    Nat.mul_le_mul (UInt64.le_iff_toNat_le.mp hfull.ceiling_le)
      (UInt64.le_iff_toNat_le.mp (l.draw_le_greatestDraw source counter))
  have hdrawn := Nat.lt_of_le_of_lt hle hfull.scaled_lt
  exact ⟨(accepts_iff_of_lt hfull.scaled_lt hdrawn).mpr hle, hfull.scaled_lt, hdrawn⟩

end Lottery

/-- Where every candidate is accepted, the members are the candidates as they come, and
the selection looks at no more of them than it has members to find. -/
theorem selectFrom_of_accepts
    {l : Lottery} {hash : Hash} {seed : Root} {candidates : Candidates}
    (haccepts : ∀ source counter,
      l.accepts (l.draw source counter) (candidates.balance (candidates.propose counter)))
    (fuel missing counter : Nat) (source : Root) (before : List Nat) :
    selectFrom l hash seed candidates fuel missing counter source before =
      if missing ≤ fuel then
        some (before.reverse ++ (List.range' counter missing).map candidates.propose)
      else none := by
  induction missing generalizing fuel counter source before with
  | zero => simp [selectFrom_zero]
  | succ missing ih =>
      cases fuel with
      | zero => rfl
      | succ fuel =>
          simp only [selectFrom, haccepts, if_true]
          rw [ih, List.range'_succ]
          simp

/-- A selection ends where every active validator has a full balance. -/
theorem syncCommitteeIndices_ne_neverFull
    {hash : Hash} {spec : ChainSpec} {fork : ForkName} {validators : List Validator} {mix : Root}
    (hfull : ∀ v ∈ validators, v.isActiveAt committeeEpoch →
      (Lottery.ofFork spec fork).IsFull v.effectiveBalance) :
    syncCommitteeIndices hash spec fork validators mix ≠ .error .neverFull := by
  have hbalance : ∀ index ∈ activeIndices validators committeeEpoch,
      (Lottery.ofFork spec fork).IsFull
        ((drawnCandidates hash spec validators mix).balance index) := by
    intro index hindex
    obtain ⟨v, hv, hactive⟩ := mem_activeIndices_iff.mp hindex
    rw [balance_drawnCandidates hv]
    exact hfull v (List.mem_of_getElem? hv) hactive
  have hfuel : spec.size .syncCommitteeSize ≤ 2 ^ 64 :=
    Nat.le_of_lt (spec.value .syncCommitteeSize).toNat_lt
  by_cases hnone : activeIndices validators committeeEpoch = []
  · rw [syncCommitteeIndices_of_nobody hnone]
    exact nofun
  · rw [syncCommitteeIndices_of_active hnone, membersWithin,
      selectFrom_of_accepts fun source counter =>
        ((hbalance _ (propose_mem_activeIndices hnone counter)).acceptsInWords source
          counter).accepts, if_pos hfuel]
    exact nofun

end GenesisForge
