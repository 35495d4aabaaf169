import GenesisForge.Proofs.RootBinding

/-!
# State roots

The root of a state commits to the whole state: to tell two states of one fork
with the same root apart takes two messages of 64 bytes, both of them hashed for
these roots, with the same digest.
-/

namespace GenesisForge

open Ssz

/-- The messages that are hashed for the root of a value. -/
def Ssz.Value.hashedMessages (v : Value) : List ByteArray :=
  v.rootPairs.map fun pair => pair.1.bytes ++ pair.2.bytes

theorem Ssz.Value.collision_of_not_noCollision
    {v w : Value} (hcollision : ¬ Merkle.NoCollision Merkle.sha256Pair v.rootPairs w.rootPairs) :
    ∃ x ∈ v.hashedMessages, ∃ y ∈ w.hashedMessages,
      x ≠ y ∧ x.size = 64 ∧ y.size = 64 ∧ sha256 x = sha256 y := by
  unfold Merkle.NoCollision at hcollision
  push Not at hcollision
  obtain ⟨p, hp, q, hq, hdigest, hdiffer⟩ := hcollision
  have hsize (pair : Root × Root) : (pair.1.bytes ++ pair.2.bytes).size = 64 := by
    rw [ByteArray.size_append, pair.1.size_eq, pair.2.size_eq]
  refine ⟨_, List.mem_map_of_mem hp, _, List.mem_map_of_mem hq, ?_, hsize p, hsize q, hdigest⟩
  intro hmessages
  obtain ⟨⟨left, hleft⟩, ⟨right, hright⟩⟩ := p
  obtain ⟨⟨left', hleft'⟩, ⟨right', hright'⟩⟩ := q
  rw [ByteArray.append_eq_append_iff_of_size_eq_left (hleft.trans hleft'.symm)] at hmessages
  obtain ⟨rfl, rfl⟩ := hmessages
  exact hdiffer rfl

namespace VersionedState

variable {H : Type} [Serializable H]

theorem hasShape_value
    {a b : VersionedState H} (hheader : Serializable.shape H ∈ Schemas.headers)
    (hfork : a.fork = b.fork) :
    ∃ schema ∈ Schemas.all,
      a.value.HasShape (.container schema) ∧ b.value.HasShape (.container schema) := by
  cases a with
  | deneb a =>
      cases b with
      | deneb b =>
          exact ⟨_, Schemas.denebState_mem_all hheader, Serializable.hasShape a,
            Serializable.hasShape b⟩
      | electra b => cases hfork
  | electra a =>
      cases b with
      | deneb b => cases hfork
      | electra b =>
          exact ⟨_, Schemas.electraState_mem_all hheader, Serializable.hasShape a,
            Serializable.hasShape b⟩

theorem value_injective
    {a b : VersionedState H} (hfork : a.fork = b.fork) (hvalues : a.value = b.value) : a = b := by
  cases a with
  | deneb a =>
      cases b with
      | deneb b => exact congrArg deneb (toValue_injective hvalues)
      | electra b => cases hfork
  | electra a =>
      cases b with
      | deneb b => cases hfork
      | electra b => exact congrArg electra (toValue_injective hvalues)

/-- Two states of one fork that were sized alike and have the same root are equal
in every field, or two of the messages hashed for their roots have the same digest. -/
theorem eq_or_collision_of_root_eq
    {a b : VersionedState H} {root : Root}
    (hheader : Serializable.shape H ∈ Schemas.headers) (hfork : a.fork = b.fork)
    (hsizes : a.value.sameSizes b.value)
    (ha : a.root? = some root) (hb : b.root? = some root) :
    a = b ∨
      ∃ x ∈ a.value.hashedMessages, ∃ y ∈ b.value.hashedMessages,
        x ≠ y ∧ x.size = 64 ∧ y.size = 64 ∧ sha256 x = sha256 y := by
  obtain ⟨schema, hschema, hashape, hbshape⟩ := hasShape_value hheader hfork
  rw [root?, Value.treeRoot?, Option.ite_none_right_eq_some] at ha hb
  have hroots : a.value.treeRoot = b.value.treeRoot :=
    Option.some.inj (ha.2.trans hb.2.symm)
  by_cases hnone : Merkle.NoCollision Merkle.sha256Pair a.value.rootPairs b.value.rootPairs
  · have hvalues := hashape.eq_of_treeRoot_eq hbshape
      (Schemas.wellFormed_of_mem_all schema hschema) hsizes ha.1 hroots hnone
    exact .inl (value_injective hfork hvalues)
  · exact .inr (Value.collision_of_not_noCollision hnone)

/-- The part of `running` that both forks have. -/
def runningBase : BeaconState BlockHeader where
  genesisTime := 1742213400
  genesisValidatorsRoot := .fill 32 0x21
  slot := 9
  fork := ⟨.fill _ 5, .fill _ 6, 1⟩
  latestBlockHeader := ⟨8, 1, .fill 32 0x22, .fill 32 0x23, .fill 32 0x24⟩
  blockRoots := [.fill 32 0x25, .fill 32 0x26]
  stateRoots := [.fill 32 0x27, .fill 32 0x28]
  historicalRoots := ⟨[.fill 32 0x29], 8, by decide⟩
  eth1Data := ⟨.fill 32 0x2a, 2, .fill 32 0x2b⟩
  eth1DataVotes := ⟨[⟨.fill 32 0x2a, 3, .fill 32 0x2c⟩], 8, by decide⟩
  eth1DepositIndex := 2
  validators :=
    ⟨[⟨.fill _ 0x81, .fill 32 1, 32000000000, false, 0, 0, 0xffffffffffffffff,
        0xffffffffffffffff⟩,
      ⟨.fill _ 0x82, .fill 32 2, 31000000000, true, 0, 0, 6, 8198⟩], 8, by decide⟩
  balances := ⟨[32000001234, 31500000000], 8, by decide⟩
  randaoMixes := [.fill 32 0x2d, .fill 32 0x2e, .fill 32 0x2f]
  slashings := [0, 31000000000]
  previousEpochParticipation := ⟨[7, 3], 8, by decide⟩
  currentEpochParticipation := ⟨[1, 0], 8, by decide⟩
  justificationBits := ⟨[false, true, true, false]⟩
  previousJustifiedCheckpoint := ⟨1, .fill 32 0x31⟩
  currentJustifiedCheckpoint := ⟨2, .fill 32 0x32⟩
  finalizedCheckpoint := ⟨1, .fill 32 0x31⟩
  inactivityScores := ⟨[0, 4], 8, by decide⟩
  currentSyncCommittee := ⟨[.fill _ 0x81, .fill _ 0x82], .fill _ 0x83⟩
  nextSyncCommittee := ⟨[.fill _ 0x82, .fill _ 0x82], .fill _ 0x84⟩
  latestExecutionPayloadHeader :=
    ⟨.fill 32 0x41, .fill _ 0x42, .fill 32 0x43, .fill 32 0x44, .fill _ 0x45, .fill 32 0x46,
      9, 30000000, 21000, 1742213508, ⟨Bytes.fill 0x47 5, 32, by decide⟩, 7, .fill 32 0x48,
      .fill 32 0x49, .fill 32 0x4a, 131072, 0⟩
  nextWithdrawalIndex := 3
  nextWithdrawalValidatorIndex := 1
  historicalSummaries := ⟨[⟨.fill 32 0x4b, .fill 32 0x4c⟩], 8, by decide⟩

def runningQueues : ElectraPart where
  depositRequestsStartIndex := 0xffffffffffffffff
  depositBalanceToConsume := 5
  exitBalanceToConsume := 6
  earliestExitEpoch := 7
  consolidationBalanceToConsume := 8
  earliestConsolidationEpoch := 9
  pendingDeposits := ⟨[⟨.fill _ 0x85, .fill 32 1, 32000000000, .fill _ 0x86, 8⟩], 8, by decide⟩
  pendingPartialWithdrawals := ⟨[⟨0, 1234, 260⟩], 8, by decide⟩
  pendingConsolidations := ⟨[⟨1, 0⟩], 8, by decide⟩

/-- A state of a chain that has left its genesis behind: one of two validators was slashed,
there are roots, votes and flags of the past, and something waits in every queue. -/
def running : VersionedState BlockHeader :=
  .electra ⟨runningBase, runningQueues⟩

/-- The state `running` one slot later: another root is on record, an attestation was counted
and the second validator has lost some of its balance. -/
def runningNext : VersionedState BlockHeader :=
  .electra
    ⟨{ runningBase with
        slot := 10
        blockRoots := [.fill 32 0x25, .fill 32 0x51]
        balances := ⟨[32000001234, 31499990000], 8, by decide⟩
        currentEpochParticipation := ⟨[1, 7], 8, by decide⟩
        justificationBits := ⟨[true, true, true, false]⟩ },
      runningQueues⟩

theorem sameSizes_runningNext : running.value.sameSizes runningNext.value := by
  -- The relation unfolds along the fields and items until lengths and limits are left.
  repeat first | exact trivial | exact rfl | constructor

theorem running_ne_runningNext : running ≠ runningNext := fun heq =>
  absurd (congrArg (·.base.slot) heq) (by decide)

theorem running_eq_or_collision :
    running.root? = some running.value.treeRoot ∧
      (running = running ∨
        ∃ x ∈ running.value.hashedMessages, ∃ y ∈ running.value.hashedMessages,
          x ≠ y ∧ x.size = 64 ∧ y.size = 64 ∧ sha256 x = sha256 y) ∧
      (runningNext.root? = running.root? →
        ∃ x ∈ running.value.hashedMessages, ∃ y ∈ runningNext.value.hashedMessages,
          x ≠ y ∧ x.size = 64 ∧ y.size = 64 ∧ sha256 x = sha256 y) := by
  have hhasRoot : running.value.hasRoot := by decide +kernel
  have hroot : running.root? = some running.value.treeRoot := by
    rw [root?, Value.treeRoot?, if_pos hhasRoot]
  have hself := eq_or_collision_of_root_eq (a := running) (b := running) List.mem_cons_self rfl
    (Value.sameSizes_refl _) hroot hroot
  refine ⟨hroot, hself, fun hnext => ?_⟩
  rcases eq_or_collision_of_root_eq (a := running) (b := runningNext) List.mem_cons_self rfl
    sameSizes_runningNext hroot (hnext.trans hroot) with heq | hcollision
  · exact absurd heq running_ne_runningNext
  · exact hcollision

end VersionedState

end GenesisForge
