import GenesisForge.Proofs.CommitteeKeys
import GenesisForge.Proofs.FairSelection

/-!
# Committees of active validators

Validators that are not active only shift the indices of the others.  A selection among the
active validators alone proposes the same ones in the same order, so it finds the same
members, and a committee is made of nothing but their keys.  A key that nobody was selected
with is never looked at.
-/

namespace GenesisForge

open Shuffle Bls

/-! ## Selections of renamed candidates -/

/-- A selection follows its candidates when each is proposed under another index with the
same balance. -/
theorem selectFrom_map
    {l : Lottery} {hash : Hash} {seed : Root} {candidates others : Candidates}
    {place : Nat → Nat}
    (hpropose : ∀ counter, candidates.propose counter = place (others.propose counter))
    (hbalance : ∀ counter, candidates.balance (candidates.propose counter) =
      others.balance (others.propose counter))
    (fuel missing counter : Nat) (source : Root) (before : List Nat) :
    selectFrom l hash seed candidates fuel missing counter source (before.map place) =
      (selectFrom l hash seed others fuel missing counter source before).map
        (List.map place) := by
  induction fuel generalizing missing counter source before with
  | zero =>
      cases missing with
      | zero => simp [selectFrom_zero]
      | succ missing => rfl
  | succ fuel ih =>
      cases missing with
      | zero => simp [selectFrom_zero]
      | succ missing =>
          simp only [selectFrom, hbalance]
          split
          all_goals
            split
            · rw [hpropose, ← List.map_cons, ih]
            · rw [ih]

/-! ## The active validators alone -/

/-- The validators that the committee is drawn from. -/
def drawnFrom (validators : List Validator) : List Validator :=
  validators.filter (·.isActiveAt committeeEpoch)

section

variable {validators : List Validator}

theorem drawnFrom_eq :
    drawnFrom validators =
      ((validators.zipIdx 0).filter (·.1.isActiveAt committeeEpoch)).map (·.1) := by
  unfold drawnFrom
  conv_lhs => rw [← List.zipIdx_map_fst 0 validators]
  rw [List.filter_map]
  rfl

theorem activeIndices_drawnFrom (validators : List Validator) :
    activeIndices (drawnFrom validators) committeeEpoch =
      List.range (drawnFrom validators).length := by
  have hall : ((drawnFrom validators).zipIdx 0).filter (·.1.isActiveAt committeeEpoch) =
      (drawnFrom validators).zipIdx 0 := by
    rw [List.filter_eq_self]
    intro entry hentry
    exact (List.mem_filter.mp (List.fst_mem_of_mem_zipIdx hentry)).2
  rw [activeIndices, activeFrom_eq, hall, List.zipIdx_map_snd, List.range_eq_range']

theorem length_activeIndices (validators : List Validator) :
    (activeIndices validators committeeEpoch).length = (drawnFrom validators).length := by
  rw [drawnFrom_eq, activeIndices, activeFrom_eq, List.length_map, List.length_map]

theorem activeIndices_drawnFrom_eq_nil_iff :
    activeIndices (drawnFrom validators) committeeEpoch = [] ↔
      activeIndices validators committeeEpoch = [] := by
  rw [activeIndices_drawnFrom, List.range_eq_nil, ← length_activeIndices, List.length_eq_zero_iff]

theorem drawnFrom_eq_nil_iff :
    drawnFrom validators = [] ↔ activeIndices validators committeeEpoch = [] := by
  rw [← List.length_eq_zero_iff, ← length_activeIndices, List.length_eq_zero_iff]

/-- Where an active validator stands among all of them. -/
def placeAmong (validators : List Validator) (index : Nat) : Nat :=
  (activeIndices validators committeeEpoch).getD index 0

theorem getElem?_placeAmong {index : Nat} (hindex : index < (drawnFrom validators).length) :
    validators[placeAmong validators index]? = (drawnFrom validators)[index]? := by
  have hentries : index < ((validators.zipIdx 0).filter
      (·.1.isActiveAt committeeEpoch)).length := by
    simpa [drawnFrom_eq] using hindex
  have hmem := List.mem_of_mem_filter (List.getElem_mem hentries)
  unfold placeAmong
  rw [activeIndices, activeFrom_eq, drawnFrom_eq, List.getD_eq_getElem?_getD, List.getElem?_map,
    List.getElem?_map, List.getElem?_eq_getElem hentries]
  exact List.mem_zipIdx_iff_getElem?.mp hmem

variable (hash : Hash) (spec : ChainSpec) (mix : Root)

/-- Both selections propose by one order, the one an index and the other the place of that
index. -/
theorem propose_drawnFrom
    (hactive : activeIndices validators committeeEpoch ≠ []) (counter : Nat) :
    (drawnCandidates hash spec (drawnFrom validators) mix).propose counter <
        (drawnFrom validators).length ∧
      (drawnCandidates hash spec validators mix).propose counter =
        placeAmong validators
          ((drawnCandidates hash spec (drawnFrom validators) mix).propose counter) := by
  have hlength := length_activeIndices validators
  have hrange := activeIndices_drawnFrom validators
  have hpos : 0 < (drawnFrom validators).length := by
    rw [← hlength]
    exact List.length_pos_iff.mpr hactive
  have halone : some ((drawnCandidates hash spec (drawnFrom validators) mix).propose counter) = _ :=
    some_propose_drawnCandidates (mt activeIndices_drawnFrom_eq_nil_iff.mp hactive) counter
  have hamong : some ((drawnCandidates hash spec validators mix).propose counter) = _ :=
    some_propose_drawnCandidates hactive counter
  have hturn := shuffledIndex_lt hash (syncCommitteeSeed hash committeeEpoch mix)
    (spec.size .shuffleRoundCount) (Nat.mod_lt counter hpos)
  rw [hrange, List.length_range, List.getElem?_range hturn, Option.some_inj] at halone
  rw [halone]
  refine ⟨hturn, ?_⟩
  rw [placeAmong, List.getD_eq_getElem?_getD, ← hlength, ← hamong, Option.getD_some]

theorem balance_drawnFrom
    (hactive : activeIndices validators committeeEpoch ≠ []) (counter : Nat) :
    (drawnCandidates hash spec validators mix).balance
        ((drawnCandidates hash spec validators mix).propose counter) =
      (drawnCandidates hash spec (drawnFrom validators) mix).balance
        ((drawnCandidates hash spec (drawnFrom validators) mix).propose counter) := by
  have hpropose := propose_drawnFrom hash spec mix hactive counter
  have halone := List.getElem?_eq_getElem hpropose.1
  have hamong := getElem?_placeAmong hpropose.1
  rw [halone] at hamong
  rw [hpropose.2, balance_drawnCandidates hamong, balance_drawnCandidates halone]

/-- The members that are drawn from all validators are those drawn from the active ones. -/
theorem syncCommitteeIndices_drawnFrom (fork : ForkName) (validators : List Validator) :
    syncCommitteeIndices hash spec fork validators mix =
      (syncCommitteeIndices hash spec fork (drawnFrom validators) mix).map
        (List.map (placeAmong validators)) := by
  by_cases hnone : activeIndices validators committeeEpoch = []
  · rw [syncCommitteeIndices_of_nobody hnone,
      syncCommitteeIndices_of_nobody (activeIndices_drawnFrom_eq_nil_iff.mpr hnone)]
    rfl
  · have hwithin : membersWithin hash spec fork validators mix (2 ^ 64) =
        (membersWithin hash spec fork (drawnFrom validators) mix (2 ^ 64)).map
          (List.map (placeAmong validators)) :=
      selectFrom_map (fun counter => (propose_drawnFrom hash spec mix hnone counter).2)
        (balance_drawnFrom hash spec mix hnone) _ _ _ _ []
    rw [syncCommitteeIndices_of_active hnone,
      syncCommitteeIndices_of_active (mt activeIndices_drawnFrom_eq_nil_iff.mp hnone), hwithin]
    cases membersWithin hash spec fork (drawnFrom validators) mix (2 ^ 64) <;> rfl

end

/-! ## Committees by the keys of their members -/

/-- The first of the keys that is refused, and why. -/
def firstRefused (keys : List PublicKey) : Option (PublicKey × KeyFault) :=
  keys.findSome? fun key =>
    match validPoint key with
    | .ok _ => none
    | .error fault => some (key, fault)

/-- The key that keys aggregate to, each of them as often as it stands there. -/
def aggregateKey (keys : List PublicKey) : Except KeyFault PublicKey := do
  let points ← keys.mapM validPoint
  if points = [] then .error .nothingToAggregate else .ok (compress (Point.sum points))

/-- A committee is made of the keys of its members, in the order in which they were
selected. -/
structure IsMadeOf (made : Except PartError SyncCommittee) (keys : List PublicKey) : Prop where
  error_iff : ∀ e, made = .error e ↔
    (∃ key fault, firstRefused keys = some (key, fault) ∧
      e = .invalidPublicKey (Hex.digits key.bytes) fault) ∨
    firstRefused keys = none ∧
      ∃ fault, aggregateKey keys = .error fault ∧ e = .invalidPublicKey "aggregate" fault
  ok_iff : ∀ committee, made = .ok committee ↔
    firstRefused keys = none ∧ committee.pubkeys = keys ∧
      aggregateKey keys = .ok committee.aggregatePubkey

theorem firstRefused_cons (key : PublicKey) (rest : List PublicKey) :
    firstRefused (key :: rest) =
      match validPoint key with
      | .ok _ => firstRefused rest
      | .error fault => some (key, fault) := by
  unfold firstRefused
  rw [List.findSome?_cons]
  cases validPoint key <;> rfl

theorem exists_points_of_firstRefused_eq_none
    {keys : List PublicKey} (hnone : firstRefused keys = none) :
    ∃ points, keys.mapM validPoint = .ok points ∧ keys.mapM keyPoint = .ok points := by
  induction keys with
  | nil => exact ⟨[], rfl, rfl⟩
  | cons key rest ih =>
      rw [firstRefused_cons] at hnone
      cases hpoint : validPoint key with
      | error fault =>
          rw [hpoint] at hnone
          cases hnone
      | ok p =>
          rw [hpoint] at hnone
          obtain ⟨points, hvalid, hkeys⟩ := ih hnone
          have hkey : keyPoint key = .ok p := by rw [keyPoint, hpoint]; rfl
          refine ⟨p :: points, ?_, ?_⟩
          · rw [mapM_cons_eq_bind, hpoint, hvalid]
            rfl
          · rw [mapM_cons_eq_bind, hkey, hkeys]
            rfl

/-- What is told of a key that is refused. -/
def refusedKey (refused : PublicKey × KeyFault) : PartError :=
  .invalidPublicKey (Hex.digits refused.1.bytes) refused.2

theorem findSome?_refusal (keys : List PublicKey) :
    keys.findSome? refusal = (firstRefused keys).map refusedKey := by
  rw [firstRefused, List.map_findSome?]
  refine congrArg (keys.findSome? ·) (funext fun key => ?_)
  rw [Function.comp_apply, refusal]
  cases validPoint key <;> rfl

theorem committeeOfKeys_of_refused
    {keys : List PublicKey} {refused : PublicKey} {fault : KeyFault}
    (hsome : firstRefused keys = some (refused, fault)) :
    committeeOfKeys keys = .error (.invalidPublicKey (Hex.digits refused.bytes) fault) := by
  have hfirst := findSome?_refusal keys
  rw [hsome, Option.map_some] at hfirst
  rw [failsWith_committeeOfKeys, hfirst]
  rfl

/-- Where every key is valid, only the aggregation decides. -/
theorem committeeOfKeys_of_valid
    {keys : List PublicKey} (hnone : firstRefused keys = none) :
    committeeOfKeys keys =
      ((aggregateKey keys).map fun key => SyncCommittee.mk keys key).mapError
        (.invalidPublicKey "aggregate") := by
  obtain ⟨points, hvalid, hkeys⟩ := exists_points_of_firstRefused_eq_none hnone
  have hmade : committeeOfKeys keys =
      if points = [] then .error (.invalidPublicKey "aggregate" .nothingToAggregate)
      else .ok ⟨keys, compress (Point.sum points)⟩ := by
    rw [committeeOfKeys, hkeys]
    rfl
  have haggregate : aggregateKey keys =
      if points = [] then .error .nothingToAggregate
      else .ok (compress (Point.sum points)) := by
    rw [aggregateKey, hvalid]
    rfl
  rw [hmade, haggregate]
  by_cases hempty : points = []
  · rw [if_pos hempty, if_pos hempty]
    rfl
  · rw [if_neg hempty, if_neg hempty]
    rfl

theorem isMadeOf_committeeOfKeys (keys : List PublicKey) :
    IsMadeOf (committeeOfKeys keys) keys := by
  cases hrefused : firstRefused keys with
  | some refusal =>
      obtain ⟨refused, fault⟩ := refusal
      have hmade := committeeOfKeys_of_refused hrefused
      constructor
      · simp [hmade, hrefused, eq_comm]
      · simp [hmade, hrefused]
  | none =>
      have hmade := committeeOfKeys_of_valid hrefused
      cases haggregate : aggregateKey keys with
      | error fault =>
          rw [haggregate] at hmade
          constructor
          · simp [hmade, hrefused, haggregate, Except.mapError, Except.map, eq_comm]
          · simp [hmade, haggregate, Except.mapError, Except.map]
      | ok key =>
          rw [haggregate] at hmade
          constructor
          · simp [hmade, hrefused, haggregate, Except.mapError, Except.map]
          · rintro ⟨pubkeys, aggregatePubkey⟩
            simp [hmade, hrefused, haggregate, Except.mapError, Except.map, eq_comm]

theorem AreKeysOf.map_placeAmong
    {validators : List Validator} {indices : List Nat} {keys : List PublicKey}
    (hkeys : AreKeysOf (drawnFrom validators) indices keys) :
    AreKeysOf validators (indices.map (placeAmong validators)) keys := by
  unfold AreKeysOf
  rw [List.forall₂_map_left_iff]
  apply hkeys.imp
  intro index key hkey
  obtain ⟨v, hv, -⟩ := Option.map_eq_some_iff.mp hkey
  obtain ⟨hindex, -⟩ := List.getElem?_eq_some_iff.mp hv
  rw [getElem?_placeAmong hindex, hkey]

/-! ## The committee at genesis -/

section

variable {spec : ChainSpec} {fork : ForkName} {validators : List Validator} {mix : Root}

theorem genesisSyncCommittee_of_indices
    {indices : List Nat}
    (hindices : syncCommitteeIndices sha256 spec fork validators mix = .ok indices) :
    genesisSyncCommittee spec fork validators mix = committeeOf validators.toArray indices := by
  rw [genesisSyncCommittee, hindices]
  rfl

theorem genesisSyncCommittee_drawnFrom
    (spec : ChainSpec) (fork : ForkName) (validators : List Validator) (mix : Root) :
    genesisSyncCommittee spec fork (drawnFrom validators) mix =
      genesisSyncCommittee spec fork validators mix := by
  have hshifted := syncCommitteeIndices_drawnFrom sha256 spec mix fork validators
  cases halone : syncCommitteeIndices sha256 spec fork (drawnFrom validators) mix with
  | error e =>
      rw [halone] at hshifted
      rw [genesisSyncCommittee, genesisSyncCommittee, halone, hshifted]
      rfl
  | ok indices =>
      rw [halone] at hshifted
      obtain ⟨-, hmembers⟩ := length_and_mem_of_syncCommitteeIndices halone
      obtain ⟨keys, hkeys⟩ := exists_areKeysOf hmembers
      rw [genesisSyncCommittee_of_indices halone, genesisSyncCommittee_of_indices hshifted,
        committeeOf_eq_committeeOfKeys hkeys, committeeOf_eq_committeeOfKeys hkeys.map_placeAmong]

theorem isMadeOf_genesisSyncCommittee
    {indices : List Nat} {keys : List PublicKey}
    (hindices : syncCommitteeIndices sha256 spec fork validators mix = .ok indices)
    (hkeys : AreKeysOf validators indices keys) :
    IsMadeOf (genesisSyncCommittee spec fork validators mix) keys := by
  rw [genesisSyncCommittee_of_indices hindices, committeeOf_eq_committeeOfKeys hkeys]
  exact isMadeOf_committeeOfKeys keys

theorem IsMadeOf.ne_noActiveValidators
    {made : Except PartError SyncCommittee} {keys : List PublicKey} (hmade : IsMadeOf made keys) :
    made ≠ .error .noActiveValidators := by
  intro hnone
  rcases (hmade.error_iff _).mp hnone with ⟨key, fault, -, hcause⟩ | ⟨-, fault, -, hcause⟩
  · cases hcause
  · cases hcause

/-- Where the selection ends, the committee is that of the active validators alone.  It
fails for want of them, and otherwise it is made of the keys of the selected ones: it fails
at the first of these keys that is refused or at the aggregation, and else it has these keys
and what they aggregate to. -/
theorem genesisSyncCommittee_depends_on_active
    (hends : syncCommitteeIndices sha256 spec fork validators mix ≠ .error .neverFull) :
    genesisSyncCommittee spec fork (drawnFrom validators) mix =
        genesisSyncCommittee spec fork validators mix ∧
      (∀ others, drawnFrom others = drawnFrom validators →
        genesisSyncCommittee spec fork others mix =
          genesisSyncCommittee spec fork validators mix) ∧
      (genesisSyncCommittee spec fork validators mix = .error .noActiveValidators ↔
        drawnFrom validators = []) ∧
      (drawnFrom validators ≠ [] →
        ∃ indices keys,
          syncCommitteeIndices sha256 spec fork validators mix = .ok indices ∧
          AreKeysOf validators indices keys ∧
          IsMadeOf (genesisSyncCommittee spec fork validators mix) keys) := by
  have halone := genesisSyncCommittee_drawnFrom spec fork validators mix
  have hmade (hsome : drawnFrom validators ≠ []) : ∃ indices keys,
      syncCommitteeIndices sha256 spec fork validators mix = .ok indices ∧
      AreKeysOf validators indices keys ∧
      IsMadeOf (genesisSyncCommittee spec fork validators mix) keys := by
    rw [ne_eq, drawnFrom_eq_nil_iff] at hsome
    obtain ⟨indices, hindices⟩ :=
      (failsWith_syncCommitteeIndices hends).isOk_iff.mpr (by simp [hsome])
    obtain ⟨-, hmembers⟩ := length_and_mem_of_syncCommitteeIndices hindices
    obtain ⟨keys, hkeys⟩ := exists_areKeysOf hmembers
    exact ⟨indices, keys, hindices, hkeys, isMadeOf_genesisSyncCommittee hindices hkeys⟩
  refine ⟨halone, fun others hothers => ?_, ⟨fun hnone => ?_, fun hnone => ?_⟩, hmade⟩
  · rw [← halone, ← hothers, genesisSyncCommittee_drawnFrom]
  · by_contra hsome
    obtain ⟨indices, keys, -, -, hkeys⟩ := hmade hsome
    exact hkeys.ne_noActiveValidators hnone
  · rw [drawnFrom_eq_nil_iff] at hnone
    rw [genesisSyncCommittee, syncCommitteeIndices_of_nobody hnone]
    rfl

end

/-- Two entries without a valid key, of which the first is not active. -/
def refusedEntries : List Validator :=
  [entryOf 32000000000 farFutureEpoch, entryOf 32000000000 0]

theorem genesisSyncCommittee_refusedEntries :
    genesisSyncCommittee .mainnet .deneb refusedEntries (.zero 32) =
        .error (.invalidPublicKey (Hex.digits (Bytes.fill 0 48)) .badEncoding) ∧
      genesisSyncCommittee .mainnet .deneb [entryOf 32000000000 0] (.zero 32) =
        genesisSyncCommittee .mainnet .deneb refusedEntries (.zero 32) := by
  have hbalances : ∀ v ∈ refusedEntries, v.effectiveBalance = 32000000000 := by decide
  have hfull : (Lottery.ofFork .mainnet .deneb).IsFull 32000000000 := ⟨by decide, by decide⟩
  have hends : syncCommitteeIndices sha256 .mainnet .deneb refusedEntries (.zero 32) ≠
      .error .neverFull :=
    syncCommitteeIndices_ne_neverFull fun v hv _ => by rw [hbalances v hv]; exact hfull
  have hzero : ∀ v ∈ refusedEntries, v.pubkey = .zero _ := by decide
  have hflags : flags (.zero _) = (false, false, false) := by decide +kernel
  have hpoint : validPoint (.zero _) = .error .badEncoding := by
    rw [validPoint, point, hflags]
    rfl
  obtain ⟨-, hothers, -, hmade⟩ := genesisSyncCommittee_depends_on_active hends
  obtain ⟨indices, keys, hindices, hkeys, hcommittee⟩ := hmade (by decide)
  obtain ⟨hlength, -⟩ := length_and_mem_of_syncCommitteeIndices hindices
  refine ⟨(hcommittee.error_iff _).mpr (.inl ⟨.zero _, .badEncoding, ?_, rfl⟩), hothers _ rfl⟩
  cases hkeys with
  | nil => exact absurd hlength (by decide)
  | @cons index key indices keys hkey _ =>
      obtain ⟨v, hv, rfl⟩ := Option.map_eq_some_iff.mp hkey
      rw [firstRefused_cons, hzero v (List.mem_of_getElem? hv), hpoint]

end GenesisForge
