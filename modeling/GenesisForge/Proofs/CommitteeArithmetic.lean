import GenesisForge.Proofs.EffectiveBalances
import GenesisForge.Proofs.FairSelection

/-!
# The draw in machine words

The effective balances, and the draw of a committee from them, as a machine with words of
64 bits computes them: a product that leaves the word, a negative difference, a division by
zero and a place behind the end each end the computation without an answer.

An effective balance is no greater than its cap.  So the two products that a candidate is
accepted by are words as soon as the caps leave room for a random number, whatever the
balances are, and no turn of the draw fails.
-/

namespace GenesisForge

open Shuffle

namespace Shuffle

def word? (n : Nat) : Option Nat :=
  if n < 2 ^ 64 then some n else none

def product? (a b : Nat) : Option Nat :=
  word? (a * b)

def quotient? (a b : Nat) : Option Nat :=
  if b = 0 then none else some (a / b)

end Shuffle

/-! ## Effective balances -/

namespace GenesisValidator

def checkedEffectiveBalance (spec : ChainSpec) (fork : ForkName) (v : GenesisValidator) :
    Option Nat := do
  let balance := (v.balanceIn spec).toNat
  let excess ← remainder? balance (max 1 (spec.size .effectiveBalanceIncrement))
  let rounded ← difference? balance excess
  pure (min rounded (v.cap spec fork).toNat)

theorem checkedEffectiveBalance_eq
    (spec : ChainSpec) (fork : ForkName) (v : GenesisValidator) :
    v.checkedEffectiveBalance spec fork = some (v.effectiveBalance spec fork).toNat := by
  have hstep : max 1 (spec.size .effectiveBalanceIncrement) = spec.balanceStep := rfl
  have hpos := spec.balanceStep_pos
  have hexcess : remainder? (v.balanceIn spec).toNat spec.balanceStep =
      some ((v.balanceIn spec).toNat % spec.balanceStep) := if_neg (by omega)
  have hrounded : difference? (v.balanceIn spec).toNat
        ((v.balanceIn spec).toNat % spec.balanceStep) =
      some ((v.balanceIn spec).toNat - (v.balanceIn spec).toNat % spec.balanceStep) :=
    if_pos (Nat.mod_le _ _)
  rw [toNat_effectiveBalance, Nat.mul_div_self_eq_mod_sub_self, Nat.min_comm]
  simp only [checkedEffectiveBalance, hstep, hexcess, hrounded, Option.bind_eq_bind,
    Option.bind_some]
  rfl

end GenesisValidator

/-! ## Accepting a candidate -/

namespace Lottery

def checkedAccepts (l : Lottery) (hash : Hash) (seed : Root) (counter : Nat)
    (balance : UInt64) : Option Bool := do
  let number ← quotient? counter l.perHash
  let place ← remainder? counter l.perHash
  let start ← product? place l.width
  let stop ← sum? start l.width
  let source := hash (seed.bytes ++ Bytes.littleEndian 8 number)
  let drawn := UInt64.ofNat (Bytes.littleEndianValue (← slice? source.bytes start stop))
  let scaled ← product? balance.toNat l.greatestDraw.toNat
  let bound ← product? l.ceiling.toNat drawn.toNat
  pure (bound ≤ scaled)

/-- The random numbers fill a hash, and neither the greatest balance nor the one at hand
leaves the word when it is multiplied by a random number. -/
structure FitsWords (l : Lottery) (balance : UInt64) : Prop where
  tiles : l.perHash * l.width = 32
  ceiling_lt : l.ceiling.toNat * l.greatestDraw.toNat < 2 ^ 64
  balance_lt : balance.toNat * l.greatestDraw.toNat < 2 ^ 64

section

variable {l : Lottery} {balance : UInt64} (hfits : l.FitsWords balance)

include hfits

theorem FitsWords.perHash_ne_zero : l.perHash ≠ 0 := by
  intro hzero
  have htiles := hfits.tiles
  rw [hzero, Nat.zero_mul] at htiles
  cases htiles

/-- Every random number stands within its hash. -/
theorem FitsWords.draw_end_le (counter : Nat) :
    counter % l.perHash * l.width + l.width ≤ 32 := by
  have hplace : counter % l.perHash + 1 ≤ l.perHash :=
    Nat.mod_lt _ (Nat.pos_of_ne_zero hfits.perHash_ne_zero)
  calc
    counter % l.perHash * l.width + l.width = (counter % l.perHash + 1) * l.width :=
      (Nat.succ_mul _ _).symm
    _ ≤ l.perHash * l.width := Nat.mul_le_mul_right _ hplace
    _ = 32 := hfits.tiles

theorem FitsWords.ceiling_mul_draw_lt (source : Root) (counter : Nat) :
    l.ceiling.toNat * (l.draw source counter).toNat < 2 ^ 64 := by
  have hdraw := UInt64.le_iff_toNat_le.mp (l.draw_le_greatestDraw source counter)
  exact Nat.lt_of_le_of_lt (Nat.mul_le_mul_left _ hdraw) hfits.ceiling_lt

theorem checkedAccepts_eq (hash : Hash) (seed : Root) (counter : Nat) :
    l.checkedAccepts hash seed counter balance =
      some (l.accepts (l.draw (l.source hash seed counter) counter) balance) := by
  have hend := hfits.draw_end_le counter
  have hnumber : quotient? counter l.perHash = some (counter / l.perHash) :=
    if_neg hfits.perHash_ne_zero
  have hplace : remainder? counter l.perHash = some (counter % l.perHash) :=
    if_neg hfits.perHash_ne_zero
  have hstart : product? (counter % l.perHash) l.width = some (counter % l.perHash * l.width) :=
    if_pos (by omega)
  have hstop : sum? (counter % l.perHash * l.width) l.width =
      some (counter % l.perHash * l.width + l.width) := if_pos (by omega)
  have hslice : slice? (l.source hash seed counter).bytes (counter % l.perHash * l.width)
        (counter % l.perHash * l.width + l.width) =
      some ((l.source hash seed counter).bytes.extract (counter % l.perHash * l.width)
        (counter % l.perHash * l.width + l.width)) :=
    if_pos (by rw [FixedBytes.size_eq]; exact hend)
  have hscaled : product? balance.toNat l.greatestDraw.toNat =
      some (balance.toNat * l.greatestDraw.toNat) := if_pos hfits.balance_lt
  have hbound : product? l.ceiling.toNat
        (l.draw (l.source hash seed counter) counter).toNat =
      some (l.ceiling.toNat * (l.draw (l.source hash seed counter) counter).toNat) :=
    if_pos (hfits.ceiling_mul_draw_lt _ counter)
  have haccepts := accepts_iff_of_lt hfits.balance_lt
    (hfits.ceiling_mul_draw_lt (l.source hash seed counter) counter)
  rw [Bool.eq_iff_iff.mpr (haccepts.trans decide_eq_true_iff.symm)]
  unfold source at hslice hbound ⊢
  unfold draw at hbound ⊢
  simp only [checkedAccepts, hnumber, hplace, hstart, hstop, hslice, hscaled, hbound,
    Option.bind_eq_bind, Option.bind_some]
  rfl

end

end Lottery

/-! ## The turns of a draw -/

section

variable (hash : Hash) (spec : ChainSpec) (fork : ForkName) (validators : List Validator)
variable (mix : Root)

/-- The candidate of a counter and whether it is accepted, with every step checked. -/
def checkedTurn (counter : Nat) : Option (Nat × Bool) := do
  let active := activeIndices validators committeeEpoch
  let seed := syncCommitteeSeed hash committeeEpoch mix
  let place ← remainder? (← word? counter) active.length
  let shuffled ← checkedIndex hash seed active.length (spec.size .shuffleRoundCount) place
  let index ← active[shuffled]?
  let v ← validators[index]?
  let accepted ← (Lottery.ofFork spec fork).checkedAccepts hash seed counter
    v.effectiveBalance
  pure (index, accepted)

/-- The members found within `fuel` turns, if there are as many, as long as no turn fails. -/
def checkedSelect (turn : Nat → Option (Nat × Bool)) :
    Nat → Nat → Nat → List Nat → Option (Option (List Nat))
  | _, 0, _, before => some (some before.reverse)
  | 0, _ + 1, _, _ => some none
  | fuel + 1, missing + 1, counter, before => do
    let (candidate, accepted) ← turn counter
    if accepted then checkedSelect turn fuel missing (counter + 1) (candidate :: before)
    else checkedSelect turn fuel (missing + 1) (counter + 1) before

def checkedCommitteeIndices : Option (Except PartError (List Nat)) :=
  if activeIndices validators committeeEpoch = [] then some (.error .noActiveValidators)
  else
    (checkedSelect (checkedTurn hash spec fork validators mix) (2 ^ 64)
      (spec.size .syncCommitteeSize) 0 []).map fun
      | some indices => .ok indices
      | none => .error .neverFull

theorem length_activeIndices_le (epoch : UInt64) :
    (activeIndices validators epoch).length ≤ validators.length := by
  rw [activeIndices, activeFrom_eq, List.length_map]
  apply (List.length_filter_le _ _).trans_eq
  exact List.length_zipIdx

variable {spec fork validators}

theorem checkedTurn_eq
    (hcount : validators.length < 2 ^ 63)
    (hfits : ∀ v ∈ validators, (Lottery.ofFork spec fork).FitsWords v.effectiveBalance)
    (hactive : activeIndices validators committeeEpoch ≠ []) {counter : Nat}
    (hcounter : counter < 2 ^ 64) :
    checkedTurn hash spec fork validators mix counter =
      some ((drawnCandidates hash spec validators mix).propose counter,
        isAccepted hash spec fork validators mix counter) := by
  have hlength := List.length_pos_iff.mpr hactive
  have hplace : counter % (activeIndices validators committeeEpoch).length <
      (activeIndices validators committeeEpoch).length := Nat.mod_lt counter hlength
  have hrounds : spec.size .shuffleRoundCount ≤ 255 := Nat.le_of_lt_succ spec.roundCount_lt
  have hshuffled := checkedIndex_eq hash (syncCommitteeSeed hash committeeEpoch mix) hrounds
    ((length_activeIndices_le validators committeeEpoch).trans hcount.le) hplace
  have hindex : (activeIndices validators committeeEpoch)[shuffledIndex hash
        (syncCommitteeSeed hash committeeEpoch mix)
        (activeIndices validators committeeEpoch).length (spec.size .shuffleRoundCount)
        (counter % (activeIndices validators committeeEpoch).length)]? =
      some ((drawnCandidates hash spec validators mix).propose counter) :=
    (some_propose_drawnCandidates hactive counter).symm
  obtain ⟨v, hv, -⟩ := mem_activeIndices_iff.mp (List.mem_of_getElem? hindex)
  have haccepts := Lottery.checkedAccepts_eq (hfits v (List.mem_of_getElem? hv)) hash
    (syncCommitteeSeed hash committeeEpoch mix) counter
  have hword : word? counter = some counter := if_pos hcounter
  have hremainder : remainder? counter (activeIndices validators committeeEpoch).length =
      some (counter % (activeIndices validators committeeEpoch).length) := if_neg hlength.ne'
  unfold isAccepted Lottery.acceptsAt
  rw [balance_drawnCandidates hv]
  simp only [checkedTurn, hword, hremainder, hshuffled, hindex, hv, haccepts,
    Option.bind_eq_bind, Option.bind_some]
  rfl

theorem checkedSelect_eq
    {l : Lottery} {seed : Root} {candidates : Candidates} {turn : Nat → Option (Nat × Bool)}
    (hturn : ∀ counter < 2 ^ 64, turn counter =
      some (candidates.propose counter, l.acceptsAt hash seed candidates counter))
    {fuel missing counter : Nat} (hfuel : counter + fuel ≤ 2 ^ 64) {source : Root}
    (hsource : l.KeepsSource hash seed counter source) (before : List Nat) :
    checkedSelect turn fuel missing counter before =
      some (selectFrom l hash seed candidates fuel missing counter source before) := by
  induction fuel generalizing missing counter source before with
  | zero => cases missing <;> rfl
  | succ fuel ih =>
      cases missing with
      | zero => rfl
      | succ missing =>
          rw [checkedSelect, hturn counter (by omega), selectFrom_succ hsource]
          have hnext : l.KeepsSource hash seed (counter + 1) (l.source hash seed counter) :=
            l.keepsSource_succ counter
          by_cases haccepts : l.acceptsAt hash seed candidates counter
          · simp only [haccepts, if_true]
            exact ih (by omega) hnext _
          · simp only [haccepts]
            exact ih (by omega) hnext _

theorem checkedCommitteeIndices_eq
    (hcount : validators.length < 2 ^ 63)
    (hfits : ∀ v ∈ validators, (Lottery.ofFork spec fork).FitsWords v.effectiveBalance) :
    checkedCommitteeIndices hash spec fork validators mix =
      some (syncCommitteeIndices hash spec fork validators mix) := by
  by_cases hnone : activeIndices validators committeeEpoch = []
  · rw [checkedCommitteeIndices, if_pos hnone, syncCommitteeIndices_of_nobody hnone]
  · have hturn (counter : Nat) (hcounter : counter < 2 ^ 64) :=
      checkedTurn_eq hash mix hcount hfits hnone hcounter
    have hselect : checkedSelect (checkedTurn hash spec fork validators mix) (2 ^ 64)
          (spec.size .syncCommitteeSize) 0 [] =
        some (membersWithin hash spec fork validators mix (2 ^ 64)) :=
      checkedSelect_eq hash hturn (Nat.le_of_eq (Nat.zero_add (2 ^ 64)))
        (Lottery.keepsSource_zero (.zero 32)) []
    rw [checkedCommitteeIndices, if_neg hnone, syncCommitteeIndices_of_active hnone, hselect]
    rfl

end

/-! ## The draw at genesis -/

section

variable {spec : ChainSpec} {fork : ForkName} {given : List GenesisValidator}

theorem fitsWords_of_mem_registryEntries
    (hcaps : spec.CapsFit fork) {entry : Validator}
    (hentry : entry ∈ registryEntries spec fork given) :
    (Lottery.ofFork spec fork).FitsWords entry.effectiveBalance := by
  obtain ⟨v, -, rfl⟩ := List.mem_map.mp hentry
  constructor
  case tiles => cases fork <;> simp [Lottery.perHash, Lottery.ofFork]
  case ceiling_lt => exact ceiling_mul_lt hcaps
  case balance_lt => exact effectiveBalance_mul_lt hcaps v

/-- Where the caps of the fork leave room for a random number, no step of the arithmetic
fails: no effective balance, no turn of the draw up to the last word that counts one, and
not the draw as a whole. -/
theorem draw_stays_in_words
    (hcaps : spec.CapsFit fork) (hgiven : given.length < 2 ^ 63) (hash : Hash) (mix : Root) :
    (∀ v : GenesisValidator, v.checkedEffectiveBalance spec fork =
        some (v.effectiveBalance spec fork).toNat) ∧
      (activeIndices (registryEntries spec fork given) committeeEpoch ≠ [] →
        ∀ counter < 2 ^ 64,
          checkedTurn hash spec fork (registryEntries spec fork given) mix counter =
            some ((drawnCandidates hash spec (registryEntries spec fork given) mix).propose counter,
              isAccepted hash spec fork (registryEntries spec fork given) mix counter)) ∧
      checkedCommitteeIndices hash spec fork (registryEntries spec fork given) mix =
        some (syncCommitteeIndices hash spec fork (registryEntries spec fork given) mix) := by
  have hcount : (registryEntries spec fork given).length < 2 ^ 63 := by
    rw [registryEntries, List.length_map]
    exact hgiven
  have hfits : ∀ entry ∈ registryEntries spec fork given,
      (Lottery.ofFork spec fork).FitsWords entry.effectiveBalance := by
    intro entry hentry
    exact fitsWords_of_mem_registryEntries hcaps hentry
  refine ⟨?_, ?_, ?_⟩
  · intro v
    exact v.checkedEffectiveBalance_eq spec fork
  · intro hactive counter hcounter
    exact checkedTurn_eq hash mix hcount hfits hactive hcounter
  · exact checkedCommitteeIndices_eq hash mix hcount hfits

end

/-- A validator whose credentials are compounding and whose balance is the greatest word. -/
def greatestValidator : GenesisValidator :=
  ⟨.zero _, .ofFn _ fun i => if i = 0 then 2 else 0, some 0xFFFFFFFFFFFFFFFF⟩

theorem draw_stays_in_words_greatest :
    greatestValidator.checkedEffectiveBalance .mainnet .electra = some 2048000000000 ∧
      (∃ turn, checkedTurn sha256 .mainnet .electra
        (registryEntries .mainnet .electra [greatestValidator]) (.zero 32) (2 ^ 64 - 1) =
          some turn) ∧
      checkedCommitteeIndices sha256 .mainnet .electra
          (registryEntries .mainnet .electra [greatestValidator]) (.zero 32) =
        some (syncCommitteeIndices sha256 .mainnet .electra
          (registryEntries .mainnet .electra [greatestValidator]) (.zero 32)) := by
  have hcaps : ChainSpec.mainnet.CapsFit .electra := ⟨by decide, by decide⟩
  have hgiven : [greatestValidator].length < 2 ^ 63 := by decide
  obtain ⟨hbalance, hturn, hindices⟩ := draw_stays_in_words hcaps hgiven sha256 (.zero 32)
  refine ⟨(hbalance greatestValidator).trans rfl, ?_, hindices⟩
  exact ⟨_, hturn (by decide) (2 ^ 64 - 1) (by decide)⟩

end GenesisForge
