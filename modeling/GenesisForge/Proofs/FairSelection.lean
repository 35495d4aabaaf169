import GenesisForge.Proofs.BalancedCommittee

/-!
# Fairness of the draw

The selection goes on as long as members are missing, and a candidate that is turned down
may come again.  What it returns are the accepted ones among the candidates that it has
examined, in their order.  The shuffled order is a permutation, so in every pass over the
active validators each of them is proposed once, and a validator with a full balance is
accepted every time.  Only the last pass may be cut short.
-/

namespace GenesisForge

open Shuffle

/-! ## The candidates that a selection has examined -/

section

variable {l : Lottery} {hash : Hash} {seed : Root} {candidates : Candidates}

def Lottery.acceptsAt
    (l : Lottery) (hash : Hash) (seed : Root) (candidates : Candidates) (counter : Nat) : Bool :=
  l.accepts (l.draw (l.source hash seed counter) counter)
    (candidates.balance (candidates.propose counter))

/-- The hash at hand is the one that the candidate of a counter draws from, unless the
candidate is the first that draws from it. -/
def Lottery.KeepsSource
    (l : Lottery) (hash : Hash) (seed : Root) (counter : Nat) (source : Root) : Prop :=
  counter % l.perHash ≠ 0 → source = l.source hash seed counter

theorem Lottery.keepsSource_zero (source : Root) : l.KeepsSource hash seed 0 source :=
  fun hnonzero => absurd (Nat.zero_mod _) hnonzero

theorem Lottery.keepsSource_succ (counter : Nat) :
    l.KeepsSource hash seed (counter + 1) (l.source hash seed counter) := by
  intro hrest
  have hsame : (counter + 1) / l.perHash = counter / l.perHash := by
    rw [Nat.succ_div, if_neg fun hdvd => hrest (Nat.mod_eq_zero_of_dvd hdvd), Nat.add_zero]
  unfold Lottery.source
  rw [hsame]

theorem selectFrom_succ
    {counter : Nat} {source : Root} (hsource : l.KeepsSource hash seed counter source)
    (fuel missing : Nat) (before : List Nat) :
    selectFrom l hash seed candidates (fuel + 1) (missing + 1) counter source before =
      selectFrom l hash seed candidates fuel
        (if l.acceptsAt hash seed candidates counter then missing else missing + 1) (counter + 1)
        (l.source hash seed counter)
        (if l.acceptsAt hash seed candidates counter then candidates.propose counter :: before
          else before) := by
  have hdrawn : (if counter % l.perHash = 0 then l.source hash seed counter else source) =
      l.source hash seed counter := by
    by_cases hfirst : counter % l.perHash = 0
    · exact if_pos hfirst
    · rw [if_neg hfirst, hsource hfirst]
  simp only [selectFrom, hdrawn]
  by_cases haccepts : l.acceptsAt hash seed candidates counter
  · rw [if_pos haccepts, if_pos haccepts]
    exact if_pos haccepts
  · rw [if_neg haccepts, if_neg haccepts]
    exact if_neg haccepts

/-- A selection that ends has examined some number of candidates, the same for every bound
that allows as many, and has taken those of them that are accepted. -/
theorem exists_examined_of_selectFrom
    {fuel missing counter : Nat} {source : Root} {before indices : List Nat}
    (hsource : l.KeepsSource hash seed counter source)
    (hselect : selectFrom l hash seed candidates fuel missing counter source before =
      some indices) :
    ∃ examined,
      (∀ most, selectFrom l hash seed candidates most missing counter source before =
        if examined ≤ most then some indices else none) ∧
      indices = before.reverse ++
        ((List.range' counter examined).filter (l.acceptsAt hash seed candidates)).map
          candidates.propose := by
  induction fuel generalizing missing counter source before with
  | zero =>
      cases missing with
      | succ missing => cases hselect
      | zero =>
          refine ⟨0, fun most => ?_, ?_⟩
          · rw [if_pos (Nat.zero_le most), ← hselect, selectFrom_zero, selectFrom_zero]
          · rw [selectFrom_zero, Option.some.injEq] at hselect
            simp [hselect]
  | succ fuel ih =>
      cases missing with
      | zero =>
          rw [selectFrom_zero, ← selectFrom_zero l hash seed candidates fuel counter source]
            at hselect
          exact ih hsource hselect
      | succ missing =>
          rw [selectFrom_succ hsource] at hselect
          obtain ⟨examined, hmost, hindices⟩ := ih (l.keepsSource_succ counter) hselect
          refine ⟨examined + 1, fun most => ?_, ?_⟩
          · cases most with
            | zero => rfl
            | succ most =>
                rw [selectFrom_succ hsource, hmost]
                simp only [Nat.add_le_add_iff_right]
          · rw [hindices, List.range'_succ]
            by_cases haccepts : l.acceptsAt hash seed candidates counter
            · simp [haccepts]
            · simp [haccepts]

/-- A selection ends if enough of the candidates within its bound are accepted. -/
theorem selectFrom_ne_none
    {fuel missing counter : Nat} {source : Root} {before : List Nat}
    (hsource : l.KeepsSource hash seed counter source)
    (henough : missing ≤
      (List.range' counter fuel).countP (l.acceptsAt hash seed candidates)) :
    selectFrom l hash seed candidates fuel missing counter source before ≠ none := by
  induction fuel generalizing missing counter source before with
  | zero =>
      obtain rfl : missing = 0 := Nat.le_zero.mp henough
      rw [selectFrom_zero]
      exact Option.some_ne_none _
  | succ fuel ih =>
      cases missing with
      | zero =>
          rw [selectFrom_zero]
          exact Option.some_ne_none _
      | succ missing =>
          rw [selectFrom_succ hsource]
          apply ih (l.keepsSource_succ counter)
          rw [List.range'_succ, List.countP_cons] at henough
          by_cases haccepts : l.acceptsAt hash seed candidates counter
          · simp only [haccepts, if_true] at henough ⊢
            omega
          · simp only [haccepts, Bool.false_eq_true, if_false] at henough ⊢
            omega

end

/-! ## The draw of a committee -/

section

variable (hash : Hash) (spec : ChainSpec) (fork : ForkName) (validators : List Validator)
variable (mix : Root)

/-- Whether the candidate of a counter is accepted into the committee. -/
def isAccepted (counter : Nat) : Bool :=
  (Lottery.ofFork spec fork).acceptsAt hash (syncCommitteeSeed hash committeeEpoch mix)
    (drawnCandidates hash spec validators mix) counter

/-- What makes the draw of members fair, if it has examined so many candidates. -/
structure FairDraw (indices : List Nat) (examined : Nat) : Prop where
  returns : ∀ most, membersWithin hash spec fork validators mix most =
    if examined ≤ most then some indices else none
  length_eq : indices.length = spec.size .syncCommitteeSize
  members_active : ∀ index ∈ indices, ∃ v, validators[index]? = some v ∧
    v.isActiveAt committeeEpoch
  eq_accepted : indices =
    ((List.range examined).filter (isAccepted hash spec fork validators mix)).map
      (drawnCandidates hash spec validators mix).propose
  proposed_once : ∀ pass, ∀ index ∈ activeIndices validators committeeEpoch,
    ∃! counter, (pass * (activeIndices validators committeeEpoch).length ≤ counter ∧
      counter < (pass + 1) * (activeIndices validators committeeEpoch).length) ∧
      (drawnCandidates hash spec validators mix).propose counter = index
  count_le : ∀ index, indices.count index ≤
    (examined + (activeIndices validators committeeEpoch).length - 1) /
      (activeIndices validators committeeEpoch).length
  full_accepted : ∀ index v, validators[index]? = some v →
    (Lottery.ofFork spec fork).IsFull v.effectiveBalance →
    ∀ counter, (drawnCandidates hash spec validators mix).propose counter = index →
      isAccepted hash spec fork validators mix counter
  full_count : ∀ index v, validators[index]? = some v → v.isActiveAt committeeEpoch →
    (Lottery.ofFork spec fork).IsFull v.effectiveBalance →
    examined / (activeIndices validators committeeEpoch).length ≤ indices.count index ∧
      ∀ other, indices.count other ≤ indices.count index + 1

variable {validators}

/-- Every active validator has one place in the passes, and it is proposed there and nowhere
else. -/
theorem exists_place
    {index : Nat} (hindex : index ∈ activeIndices validators committeeEpoch) :
    ∃ place < (activeIndices validators committeeEpoch).length,
      ∀ counter, (drawnCandidates hash spec validators mix).propose counter = index ↔
        counter % (activeIndices validators committeeEpoch).length = place := by
  obtain ⟨place, hplace, hturn⟩ := exists_turn (nodup_activeIndices validators committeeEpoch)
    (bijOn_shuffledIndex hash (syncCommitteeSeed hash committeeEpoch mix)
      (activeIndices validators committeeEpoch).length (spec.size .shuffleRoundCount)) hindex
  refine ⟨place, hplace, fun counter => ?_⟩
  rw [← hturn, ← some_propose_drawnCandidates (List.ne_nil_of_mem hindex), Option.some_inj]

theorem existsUnique_proposed
    (pass : Nat) {index : Nat} (hindex : index ∈ activeIndices validators committeeEpoch) :
    ∃! counter, (pass * (activeIndices validators committeeEpoch).length ≤ counter ∧
      counter < (pass + 1) * (activeIndices validators committeeEpoch).length) ∧
      (drawnCandidates hash spec validators mix).propose counter = index := by
  obtain ⟨place, hplace, hproposed⟩ := exists_place hash spec mix hindex
  generalize (activeIndices validators committeeEpoch).length = count at *
  refine ⟨pass * count + place, ⟨⟨by omega, ?_⟩, ?_⟩, ?_⟩
  · rw [Nat.succ_mul]
    omega
  · rw [hproposed, Nat.mul_add_mod_of_lt hplace]
  · rintro counter ⟨⟨hlow, hhigh⟩, hcounter⟩
    rw [hproposed] at hcounter
    have hpass : counter / count = pass := Nat.div_eq_of_lt_le hlow hhigh
    rw [← Nat.div_add_mod counter count, hpass, hcounter, Nat.mul_comm]

/-- How often the first candidates are the validator of an index. -/
def proposals (validators : List Validator) (examined index : Nat) : Nat :=
  (List.range examined).countP
    fun counter => (drawnCandidates hash spec validators mix).propose counter = index

theorem proposals_bounds
    {index : Nat} (hindex : index ∈ activeIndices validators committeeEpoch) (examined : Nat) :
    examined / (activeIndices validators committeeEpoch).length ≤
        proposals hash spec mix validators examined index ∧
      proposals hash spec mix validators examined index ≤
        (examined + (activeIndices validators committeeEpoch).length - 1) /
          (activeIndices validators committeeEpoch).length := by
  obtain ⟨place, hplace, hproposed⟩ := exists_place hash spec mix hindex
  have hle := Nat.div_le_div_right (c := (activeIndices validators committeeEpoch).length)
    (show examined ≤ examined + (activeIndices validators committeeEpoch).length - 1 by omega)
  simp only [proposals, hproposed]
  rcases countP_mod_eq hplace examined with heq | heq
  · rw [heq]
    exact ⟨Nat.le_refl _, hle⟩
  · rw [heq]
    exact ⟨hle, Nat.le_refl _⟩

variable {hash spec fork mix}

/-- A validator is a member only where it was proposed, and wherever it was if it is always
accepted. -/
theorem count_accepted_le (examined index : Nat) :
    (((List.range examined).filter (isAccepted hash spec fork validators mix)).map
      (drawnCandidates hash spec validators mix).propose).count index ≤
      proposals hash spec mix validators examined index := by
  rw [List.count_eq_countP, List.countP_map, List.countP_filter]
  apply List.countP_mono_left
  intro counter _ hcounter
  simpa using (Bool.and_eq_true_iff.mp hcounter).1

theorem count_accepted_eq
    {index : Nat} (examined : Nat)
    (hfull : ∀ counter, (drawnCandidates hash spec validators mix).propose counter = index →
      isAccepted hash spec fork validators mix counter) :
    (((List.range examined).filter (isAccepted hash spec fork validators mix)).map
      (drawnCandidates hash spec validators mix).propose).count index =
      proposals hash spec mix validators examined index := by
  rw [List.count_eq_countP, List.countP_map, List.countP_filter]
  apply List.countP_congr
  intro counter _
  simpa using hfull counter

theorem isAccepted_of_isFull
    {index : Nat} {v : Validator} (hv : validators[index]? = some v)
    (hfull : (Lottery.ofFork spec fork).IsFull v.effectiveBalance) {counter : Nat}
    (hproposed : (drawnCandidates hash spec validators mix).propose counter = index) :
    isAccepted hash spec fork validators mix counter := by
  unfold isAccepted Lottery.acceptsAt
  rw [hproposed, balance_drawnCandidates hv]
  exact (hfull.acceptsInWords _ _).accepts

/-- The selection of a draw that ends, with the number of candidates that it has examined. -/
theorem exists_examined_of_syncCommitteeIndices
    {indices : List Nat}
    (hindices : syncCommitteeIndices hash spec fork validators mix = .ok indices) :
    ∃ examined,
      (∀ most, membersWithin hash spec fork validators mix most =
        if examined ≤ most then some indices else none) ∧
      indices = ((List.range examined).filter (isAccepted hash spec fork validators mix)).map
        (drawnCandidates hash spec validators mix).propose := by
  obtain ⟨-, hselect⟩ := syncCommitteeIndices_eq_ok_iff.mp hindices
  obtain ⟨examined, hreturns, haccepted⟩ :=
    exists_examined_of_selectFrom (Lottery.keepsSource_zero _) hselect
  refine ⟨examined, hreturns, ?_⟩
  rw [haccepted, List.range_eq_range']
  rfl

theorem count_le_of_eq_accepted
    {indices : List Nat} {examined : Nat}
    (haccepted : indices =
      ((List.range examined).filter (isAccepted hash spec fork validators mix)).map
        (drawnCandidates hash spec validators mix).propose)
    (hmembers : ∀ index ∈ indices, index ∈ activeIndices validators committeeEpoch)
    (index : Nat) :
    indices.count index ≤ (examined + (activeIndices validators committeeEpoch).length - 1) /
      (activeIndices validators committeeEpoch).length := by
  by_cases hindex : index ∈ activeIndices validators committeeEpoch
  · rw [haccepted]
    exact Nat.le_trans (count_accepted_le examined index)
      (proposals_bounds hash spec mix hindex examined).2
  · rw [List.count_eq_zero.mpr fun hmember => hindex (hmembers index hmember)]
    exact Nat.zero_le _

theorem passes_le_succ {count : Nat} (hcount : 0 < count) (examined : Nat) :
    (examined + count - 1) / count ≤ examined / count + 1 := by
  rw [← Nat.add_div_right _ hcount]
  exact Nat.div_le_div_right (Nat.sub_le _ _)

/-- A draw that ends has examined a number of candidates for which it is fair: the members
are the accepted candidates in their order, each pass proposes every active validator once,
and who has a full balance is passed over at most once, in the last pass. -/
theorem exists_fairDraw
    {indices : List Nat}
    (hindices : syncCommitteeIndices hash spec fork validators mix = .ok indices) :
    ∃ examined, FairDraw hash spec fork validators mix indices examined := by
  obtain ⟨hlength, hmembers⟩ := length_and_mem_of_syncCommitteeIndices hindices
  obtain ⟨examined, hreturns, haccepted⟩ := exists_examined_of_syncCommitteeIndices hindices
  have hcount := count_le_of_eq_accepted haccepted hmembers
  refine ⟨examined, ?_⟩
  constructor
  case returns => exact hreturns
  case length_eq => exact hlength
  case members_active =>
    intro index hmember
    exact mem_activeIndices_iff.mp (hmembers index hmember)
  case eq_accepted => exact haccepted
  case proposed_once =>
    intro pass index hindex
    exact existsUnique_proposed hash spec mix pass hindex
  case count_le => exact hcount
  case full_accepted =>
    intro index v hv hfull counter hproposed
    exact isAccepted_of_isFull hv hfull hproposed
  case full_count =>
    intro index v hv hactive hfull
    have hindex : index ∈ activeIndices validators committeeEpoch :=
      mem_activeIndices_iff.mpr ⟨v, hv, hactive⟩
    have hleast : examined / (activeIndices validators committeeEpoch).length ≤
        indices.count index := by
      rw [haccepted, count_accepted_eq examined fun counter hproposed =>
        isAccepted_of_isFull hv hfull hproposed]
      exact (proposals_bounds hash spec mix hindex examined).1
    refine ⟨hleast, fun other => ?_⟩
    calc
      indices.count other ≤ _ := hcount other
      _ ≤ _ := passes_le_succ (List.length_pos_of_mem hindex) examined
      _ ≤ indices.count index + 1 := Nat.add_le_add_right hleast 1

/-- A draw ends if an active validator has a full balance, since each pass then adds a
member. -/
theorem exists_indices_of_full
    {index : Nat} {v : Validator} (hv : validators[index]? = some v)
    (hactive : v.isActiveAt committeeEpoch)
    (hfull : (Lottery.ofFork spec fork).IsFull v.effectiveBalance)
    (hpasses : spec.size .syncCommitteeSize * (activeIndices validators committeeEpoch).length ≤
      2 ^ 64) :
    ∃ indices, syncCommitteeIndices hash spec fork validators mix = .ok indices := by
  have hindex : index ∈ activeIndices validators committeeEpoch :=
    mem_activeIndices_iff.mpr ⟨v, hv, hactive⟩
  have henough : spec.size .syncCommitteeSize ≤
      (List.range (2 ^ 64)).countP (isAccepted hash spec fork validators mix) :=
    calc
      spec.size .syncCommitteeSize ≤ _ :=
        (Nat.le_div_iff_mul_le (List.length_pos_of_mem hindex)).mpr hpasses
      _ ≤ _ := (proposals_bounds hash spec mix hindex (2 ^ 64)).1
      _ ≤ (List.range (2 ^ 64)).countP (isAccepted hash spec fork validators mix) := by
        apply List.countP_mono_left
        intro counter _ hproposed
        exact isAccepted_of_isFull hv hfull (of_decide_eq_true hproposed)
  have hends : membersWithin hash spec fork validators mix (2 ^ 64) ≠ none := by
    apply selectFrom_ne_none (Lottery.keepsSource_zero _)
    rw [← List.range_eq_range']
    exact henough
  obtain ⟨indices, hindices⟩ := Option.ne_none_iff_exists'.mp hends
  exact ⟨indices, syncCommitteeIndices_eq_ok_iff.mpr ⟨List.ne_nil_of_mem hindex, hindices⟩⟩

end

/-- An entry that is active from an epoch on. -/
def entryOf (effectiveBalance activation : UInt64) : Validator :=
  ⟨.zero _, .zero 32, effectiveBalance, false, activation, activation, farFutureEpoch,
    farFutureEpoch⟩

/-- Entries of unequal balances, of which the last one is not active. -/
def unequalEntries : List Validator :=
  [entryOf 32000000000 0, entryOf 2048000000000 0, entryOf 1024000000000 0,
    entryOf 2048000000000 2]

theorem exists_fairDraw_unequalEntries :
    ∃ indices examined,
      syncCommitteeIndices sha256 .mainnet .electra unequalEntries (.zero 32) = .ok indices ∧
      indices.length = 512 ∧
      (∀ index, indices.count index ≤ (examined + 2) / 3) ∧
      examined / 3 ≤ indices.count 1 ∧ indices.count 0 ≤ indices.count 1 + 1 := by
  have hactive : activeIndices unequalEntries committeeEpoch = [0, 1, 2] := by decide
  have hentry : unequalEntries[1]? = some (entryOf 2048000000000 0) := rfl
  have hfull : (Lottery.ofFork .mainnet .electra).IsFull
      (entryOf 2048000000000 0).effectiveBalance := ⟨by decide, by decide⟩
  obtain ⟨indices, hindices⟩ : ∃ indices,
      syncCommitteeIndices sha256 .mainnet .electra unequalEntries (.zero 32) = .ok indices :=
    exists_indices_of_full hentry (by decide) hfull (by rw [hactive]; decide)
  obtain ⟨examined, hfair⟩ := exists_fairDraw hindices
  obtain ⟨hleast, hother⟩ := hfair.full_count 1 _ hentry (by decide) hfull
  have hcount := hfair.count_le
  rw [hactive] at hleast hcount
  exact ⟨indices, examined, hindices, hfair.length_eq, hcount, hleast, hother 0⟩

end GenesisForge
