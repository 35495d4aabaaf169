import GenesisForge.Proofs.CommitteeMembers

/-!
# Keys of the sync committee

A committee is made of the keys of its members and of nothing else.  Every index that was
selected has an entry in the registry, so no member is passed over, and looking at each key
once only makes no difference to the points that the members have.
-/

namespace GenesisForge

open Bls

/-! ## Committees of keys -/

/-- The committee of the members with the given keys. -/
def committeeOfKeys (keys : List PublicKey) : Except PartError SyncCommittee :=
  keys.mapM keyPoint >>= fun points =>
    if points = [] then .error (.invalidPublicKey "aggregate" .nothingToAggregate)
    else .ok ⟨keys, compress (Point.sum points)⟩

/-- Why a key is refused, if it is. -/
def refusal (key : PublicKey) : Option PartError :=
  match validPoint key with
  | .ok _ => none
  | .error fault => some (.invalidPublicKey (Hex.digits key.bytes) fault)

theorem failsWith_keyPoint (key : PublicKey) : FailsWith (keyPoint key) [refusal key] := by
  rw [FailsWith.single_iff]
  intro e
  rw [keyPoint, refusal]
  cases validPoint key <;> simp [Except.mapError]

/-- A committee cannot be made of a key that is refused, the first of them being told of,
and not of no key. -/
theorem failsWith_committeeOfKeys (keys : List PublicKey) :
    FailsWith (committeeOfKeys keys) [
      keys.findSome? refusal,
      if keys = [] then some (.invalidPublicKey "aggregate" .nothingToAggregate) else none] := by
  refine (FailsWith.mapM fun key (_ : key ∈ keys) => failsWith_keyPoint key).bind
    fun points hpoints => ?_
  have hlength := (forall₂_of_mapM_eq_ok hpoints).length_eq
  have hempty : points = [] ↔ keys = [] := by
    rw [← List.length_eq_zero_iff, ← hlength, List.length_eq_zero_iff]
  rw [FailsWith.single_iff]
  intro e
  by_cases hkeys : keys = []
  · simp [hempty.mpr hkeys, hkeys]
  · simp [hempty, hkeys]

theorem pubkeys_of_committeeOfKeys
    {keys : List PublicKey} {committee : SyncCommittee}
    (hmade : committeeOfKeys keys = .ok committee) : committee.pubkeys = keys := by
  obtain ⟨points, -, hmade⟩ := bind_eq_ok_iff.mp hmade
  split at hmade
  · cases hmade
  · cases hmade
    rfl

/-! ## Looking at each key once -/

/-- The points already known are those of the keys at their indices. -/
def KnownPoints (validators : Array Validator) (known : Array (Option Point)) : Prop :=
  ∀ index v p, validators[index]? = some v → known.getD index none = some p →
    keyPoint v.pubkey = .ok p

theorem KnownPoints.replicate (validators : Array Validator) (count : Nat) :
    KnownPoints validators (Array.replicate count none) := by
  intro index v p _ hknown
  rw [Array.getD_eq_getD_getElem?, Array.getElem?_replicate] at hknown
  split at hknown <;> cases hknown

theorem KnownPoints.set
    {validators : Array Validator} {known : Array (Option Point)}
    (hknown : KnownPoints validators known) {index : Nat} {v : Validator} {p : Point}
    (hv : validators[index]? = some v) (hpoint : keyPoint v.pubkey = .ok p) :
    KnownPoints validators (known.setIfInBounds index (some p)) := by
  intro other w q hw hother
  rw [Array.getD_eq_getD_getElem?, Array.getElem?_setIfInBounds] at hother
  split at hother
  · rename_i hsame
    split at hother
    · rw [← hsame, hv, Option.some.injEq] at hw
      rw [← hw, hpoint, Option.some.inj hother]
    · cases hother
  · rw [← Array.getD_eq_getD_getElem?] at hother
    exact hknown other w q hw hother

/-- The points are the same as if every key were looked at for every member. -/
theorem memberPoints_eq
    {validators : Array Validator} {known : Array (Option Point)}
    (hknown : KnownPoints validators known) {members : List (Nat × Validator)}
    (hmembers : ∀ member ∈ members, validators[member.1]? = some member.2)
    (before : List Point) :
    memberPoints members known before =
      ((members.map (·.2.pubkey)).mapM keyPoint).map (before.reverse ++ ·) := by
  induction members generalizing known before with
  | nil => simp [memberPoints, Except.map, Pure.pure, Except.pure]
  | cons member rest ih =>
      obtain ⟨index, v⟩ := member
      rw [List.forall_mem_cons] at hmembers
      obtain ⟨hv, hrest⟩ := hmembers
      have hpoints {p : Point} {known : Array (Option Point)}
          (hknown : KnownPoints validators known) (hpoint : keyPoint v.pubkey = .ok p) :
          memberPoints rest known (p :: before) =
            ((((index, v) :: rest).map (·.2.pubkey)).mapM keyPoint).map
              (before.reverse ++ ·) := by
        rw [ih hknown hrest, List.map_cons, mapM_cons_eq_bind, hpoint]
        cases (rest.map (·.2.pubkey)).mapM keyPoint <;>
          simp [Bind.bind, Except.bind, Except.map]
      rw [memberPoints]
      split
      · rename_i p hp
        exact hpoints hknown (hknown index v p hv hp)
      · cases hpoint : keyPoint v.pubkey with
        | error e =>
            rw [List.map_cons, mapM_cons_eq_bind, hpoint]
            rfl
        | ok p => exact hpoints (hknown.set hv hpoint) hpoint

theorem getElem?_of_mem_membersOf
    {validators : Array Validator} {indices : List Nat} :
    ∀ member ∈ membersOf validators indices, validators[member.1]? = some member.2 := by
  intro member hmember
  obtain ⟨index, -, hentry⟩ := List.mem_filterMap.mp hmember
  obtain ⟨v, hv, rfl⟩ := Option.map_eq_some_iff.mp hentry
  exact hv

theorem committeeOf_eq (validators : Array Validator) (indices : List Nat) :
    committeeOf validators indices =
      committeeOfKeys ((membersOf validators indices).map (·.2.pubkey)) := by
  have hknown := KnownPoints.replicate validators validators.size
  rw [committeeOf, memberPoints_eq hknown getElem?_of_mem_membersOf, committeeOfKeys]
  cases ((membersOf validators indices).map (·.2.pubkey)).mapM keyPoint with
  | error e => rfl
  | ok points => cases points <;> rfl

/-! ## Keys of selected indices -/

/-- The keys of the validators of the indices, one by one. -/
def AreKeysOf (validators : List Validator) : List Nat → List PublicKey → Prop :=
  List.Forall₂ fun index key => (validators[index]?).map (·.pubkey) = some key

theorem filterMap_eq_of_forall₂
    {α β : Type} {f : α → Option β} {as : List α} {bs : List β}
    (hsome : List.Forall₂ (fun a b => f a = some b) as bs) : as.filterMap f = bs := by
  induction hsome with
  | nil => rfl
  | cons hhead _ ih => rw [List.filterMap_cons_some hhead, ih]

theorem findSome?_eq_of_forall₂
    {α β γ : Type} {f : α → Option γ} {g : β → Option γ} {as : List α} {bs : List β}
    (hsame : List.Forall₂ (fun a b => f a = g b) as bs) : as.findSome? f = bs.findSome? g := by
  induction hsame with
  | nil => rfl
  | cons hhead _ ih => rw [List.findSome?_cons, List.findSome?_cons, hhead, ih]

theorem exists_areKeysOf
    {validators : List Validator} {indices : List Nat}
    (hmembers : ∀ index ∈ indices, index ∈ activeIndices validators committeeEpoch) :
    ∃ keys, AreKeysOf validators indices keys := by
  induction indices with
  | nil => exact ⟨[], .nil⟩
  | cons index rest ih =>
      rw [List.forall_mem_cons] at hmembers
      obtain ⟨v, hv, -⟩ := mem_activeIndices_iff.mp hmembers.1
      obtain ⟨keys, hkeys⟩ := ih hmembers.2
      refine ⟨v.pubkey :: keys, .cons ?_ hkeys⟩
      rw [hv, Option.map_some]

theorem AreKeysOf.map_membersOf
    {validators : List Validator} {indices : List Nat} {keys : List PublicKey}
    (hkeys : AreKeysOf validators indices keys) :
    (membersOf validators.toArray indices).map (·.2.pubkey) = keys := by
  rw [membersOf, List.map_filterMap]
  apply filterMap_eq_of_forall₂
  apply hkeys.imp
  intro index key hkey
  rw [List.getElem?_toArray, Option.map_map]
  exact hkey

theorem committeeOf_eq_committeeOfKeys
    {validators : List Validator} {indices : List Nat} {keys : List PublicKey}
    (hkeys : AreKeysOf validators indices keys) :
    committeeOf validators.toArray indices = committeeOfKeys keys := by
  rw [committeeOf_eq, hkeys.map_membersOf]

/-- Every member of the committee of a genesis state is an active validator. -/
theorem length_and_mem_of_genesisSyncCommittee
    {spec : ChainSpec} {fork : ForkName} {validators : List Validator} {mix : Root}
    {committee : SyncCommittee}
    (hcommittee : genesisSyncCommittee spec fork validators mix = .ok committee) :
    committee.pubkeys.length = spec.size .syncCommitteeSize ∧
      ∀ key ∈ committee.pubkeys, ∃ v ∈ validators, v.isActiveAt committeeEpoch ∧
        v.pubkey = key := by
  obtain ⟨indices, hindices, hmade⟩ := bind_eq_ok_iff.mp hcommittee
  obtain ⟨hlength, hmem⟩ := length_and_mem_of_syncCommitteeIndices hindices
  obtain ⟨keys, hkeys⟩ := exists_areKeysOf hmem
  rw [committeeOf_eq_committeeOfKeys hkeys] at hmade
  rw [pubkeys_of_committeeOfKeys hmade]
  constructor
  · rw [← hlength, hkeys.length_eq]
  · intro key hkey
    rw [← filterMap_eq_of_forall₂ hkeys] at hkey
    obtain ⟨index, hindex, hfound⟩ := List.mem_filterMap.mp hkey
    obtain ⟨v, hv, hactive⟩ := mem_activeIndices_iff.mp (hmem index hindex)
    rw [hv, Option.map_some, Option.some.injEq] at hfound
    exact ⟨v, List.mem_of_getElem? hv, hactive, hfound⟩

end GenesisForge
