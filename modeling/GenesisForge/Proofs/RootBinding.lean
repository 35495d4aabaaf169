import GenesisForge.Proofs.EncodingInjective
import GenesisForge.Proofs.TreeBinding
import GenesisForge.Ssz.TreeRoot

/-!
# Tree roots determine values

The pairs that are hashed for the root of a value are those of its own tree, the
one that mixes in its length, and those of the values inside it.  Two values of
one well-formed shape that were sized alike and have the same root are equal,
unless two different pairs of theirs have the same digest.

Zero padding makes leaves of different lengths look alike.  Whatever may have
different lengths under equal sizes mixes its length in, so the lengths are
compared first.
-/

namespace GenesisForge
namespace Ssz

open Merkle

/-- The pairs that are hashed for a root with a length mixed in. -/
def mixedPairs (capacity : Nat) (leaves : List Root) (length : Nat) : List (Root × Root) :=
  (Merkle.root capacity leaves, FixedBytes.littleEndian 32 length) ::
    Merkle.rootPairs capacity leaves

mutual

/-- The pairs that are hashed for the root of a value. -/
def Value.rootPairs : Value → List (Root × Root)
  | .uint _ _ | .boolean _ | .root _ => []
  | .bytes data => Merkle.rootPairs ((data.size + 31) / 32) (chunks data)
  | .byteList limit data => mixedPairs ((limit + 31) / 32) (chunks data) data.size
  | .list element limit items =>
      mixedPairs (element.chunkCount limit) (itemLeaves element items) items.length ++
        rootPairsAmong items
  | .vector element items | .array element items =>
      Merkle.rootPairs (element.chunkCount items.length) (itemLeaves element items) ++
        rootPairsAmong items
  | .bitvector bits =>
      Merkle.rootPairs (bitChunkCount bits.length) (chunks (Bits.pack bits))
  | .bitlist limit bits =>
      mixedPairs (bitChunkCount limit) (chunks (Bits.pack bits)) bits.length
  | .container schema values =>
      Merkle.rootPairs schema.fields.length (treeRoots [] values) ++ rootPairsAmong values

def rootPairsAmong : List Value → List (Root × Root)
  | [] => []
  | v :: rest => v.rootPairs ++ rootPairsAmong rest

end

theorem rootPairs_subset_of_mem
    {v : Value} {values : List Value} (hv : v ∈ values) :
    v.rootPairs ⊆ rootPairsAmong values := by
  induction values with
  | nil => simp at hv
  | cons w rest ih =>
      rw [rootPairsAmong]
      rcases List.mem_cons.mp hv with rfl | hv
      · exact List.subset_append_left _ _
      · exact List.subset_append_of_subset_right _ (ih hv)

theorem treeRoots_eq (values : List Value) :
    treeRoots [] values = values.map Value.treeRoot := by
  have hbefore : ∀ before, treeRoots before values =
      before.reverse ++ values.map Value.treeRoot := by
    induction values with
    | nil => simp [treeRoots]
    | cons v rest ih => simp [treeRoots, ih]
  simpa using hbefore []

theorem allHaveRoots_iff {values : List Value} :
    allHaveRoots values ↔ ∀ v ∈ values, v.hasRoot := by
  induction values with
  | nil => simp [allHaveRoots]
  | cons v rest ih => simp [allHaveRoots, ih]

/-! ## Lengths -/

theorem le_of_depthFor_le
    {leaves : Nat} (hdepth : depthFor leaves ≤ maxDepth) : leaves ≤ 2 ^ 49 :=
  Nat.le_trans (le_two_pow_depthFor leaves) (Nat.pow_le_pow_right (by decide) hdepth)

theorem eq_of_mixInLength_eq
    {capacity m n : Nat} {as bs : List Root} (hm : m < 256 ^ 32) (hn : n < 256 ^ 32)
    (hroots : mixInLength (Merkle.root capacity as) m =
      mixInLength (Merkle.root capacity bs) n)
    (hnone : NoCollision sha256Pair (mixedPairs capacity as m) (mixedPairs capacity bs n)) :
    m = n ∧ Merkle.root capacity as = Merkle.root capacity bs := by
  rw [mixInLength, mixInLength] at hroots
  have hpairs := hnone (Merkle.root capacity as, FixedBytes.littleEndian 32 m)
    List.mem_cons_self (Merkle.root capacity bs, FixedBytes.littleEndian 32 n)
    List.mem_cons_self hroots
  simp only [FixedBytes.littleEndian, Prod.mk.injEq, FixedBytes.mk.injEq] at hpairs
  exact ⟨Bytes.littleEndian_inj hm hn hpairs.2, hpairs.1⟩

theorem NoCollision.of_mixedPairs
    {capacity m n : Nat} {as bs : List Root}
    (hnone : NoCollision sha256Pair (mixedPairs capacity as m) (mixedPairs capacity bs n)) :
    NoCollision sha256Pair (Merkle.rootPairs capacity as) (Merkle.rootPairs capacity bs) :=
  hnone.mono (List.subset_cons_self _ _) (List.subset_cons_self _ _)

theorem chunkCount_mono
    (element : Shape) {m n : Nat} (hmn : m ≤ n) :
    element.chunkCount m ≤ element.chunkCount n := by
  unfold Shape.chunkCount
  cases element.perChunk? with
  | none => exact hmn
  | some perChunk => exact Nat.div_le_div_right (by omega)

theorem packed_of_perChunk?_eq
    {element : Shape} {perChunk : Nat} (hformed : element.wellFormed)
    (hpacked : element.perChunk? = some perChunk) :
    element.isStatic ∧ element.staticLength * perChunk = 32 := by
  cases element with
  | uint width =>
      rw [Shape.wellFormed, Bool.and_eq_true, beq_iff_eq] at hformed
      obtain rfl : 32 / width = perChunk := Option.some.inj hpacked
      exact ⟨rfl, Nat.mul_div_cancel' (Nat.dvd_of_mod_eq_zero hformed.2)⟩
  | boolean =>
      obtain rfl : 32 = perChunk := Option.some.inj hpacked
      exact ⟨rfl, rfl⟩
  | _ => simp [Shape.perChunk?] at hpacked

theorem lt_of_chunkCount_le
    {element : Shape} {limit : Nat} (hformed : element.wellFormed)
    (hcount : element.chunkCount limit ≤ 2 ^ 49) : limit < 256 ^ 32 := by
  unfold Shape.chunkCount at hcount
  cases hpacked : element.perChunk? with
  | none =>
      rw [hpacked] at hcount
      exact Nat.lt_of_le_of_lt hcount (by decide)
  | some perChunk =>
      rw [hpacked] at hcount
      obtain ⟨-, hproduct⟩ := packed_of_perChunk?_eq hformed hpacked
      have hpositive : 0 < perChunk := Nat.pos_of_ne_zero fun hzero => by
        rw [hzero] at hproduct
        omega
      have hmost : perChunk ≤ 32 :=
        Nat.le_of_dvd (by decide) ⟨element.staticLength, by rw [Nat.mul_comm, hproduct]⟩
      have hlimit : limit + perChunk - 1 < (2 ^ 49 + 1) * perChunk :=
        (Nat.div_lt_iff_lt_mul hpositive).mp (Nat.lt_succ_of_le hcount)
      have hbound : (2 ^ 49 + 1) * perChunk ≤ (2 ^ 49 + 1) * 32 :=
        Nat.mul_le_mul_left _ hmost
      exact Nat.lt_of_le_of_lt (m := (2 ^ 49 + 1) * 32) (by omega) (by decide)

/-- Packing rounds up to chunks as counting by chunks does. -/
theorem chunks_of_packed
    {size perChunk : Nat} (hproduct : size * perChunk = 32) (count : Nat) :
    (size * count + 31) / 32 = (count + perChunk - 1) / perChunk := by
  have hsize : 0 < size := Nat.pos_of_ne_zero fun hzero => by
    rw [hzero] at hproduct
    omega
  have hpositive : 0 < perChunk := Nat.pos_of_ne_zero fun hzero => by
    rw [hzero] at hproduct
    omega
  obtain ⟨chunks, hchunks⟩ : ∃ chunks, chunks + 1 = count + perChunk :=
    ⟨count + perChunk - 1, by omega⟩
  have hsum : size * count + 31 = size - 1 + size * chunks := by
    have hexpand : size * (chunks + 1) = size * count + 32 := by
      rw [hchunks, Nat.mul_add, hproduct]
    rw [Nat.mul_add, Nat.mul_one] at hexpand
    omega
  have hround : (size - 1 + size * chunks) / size = chunks := by
    rw [Nat.add_mul_div_left _ _ hsize, Nat.div_eq_of_lt (by omega), Nat.zero_add]
  rw [hsum, ← hproduct, ← Nat.div_div_eq_div_mul, hround, ← hchunks, Nat.add_sub_cancel]

theorem length_itemLeaves
    {element : Shape} {items : List Value} (hformed : element.wellFormed)
    (hitems : ∀ v ∈ items, v.HasShape element) :
    (itemLeaves element items).length = element.chunkCount items.length := by
  unfold itemLeaves Shape.chunkCount
  cases hpacked : element.perChunk? with
  | none => simp only [treeRoots_eq, List.length_map]
  | some perChunk =>
      obtain ⟨hstatic, hproduct⟩ := packed_of_perChunk?_eq hformed hpacked
      have hsize : (encodeInPlace ByteArray.empty items).size =
          element.staticLength * items.length := by
        rw [size_encodeInPlace]
        exact sum_map_eq_mul fun v hv => (hitems v hv).size_encode_of_isStatic hstatic
      simp only [length_chunks, hsize, chunks_of_packed hproduct]

theorem items_eq_of_itemLeaves_eq
    {as bs : List Value} {element : Shape}
    (has : ∀ v ∈ as, v.HasShape element) (hbs : ∀ v ∈ bs, v.HasShape element)
    (hformed : element.wellFormed) (hlength : as.length = bs.length)
    (hsizes : pairwiseSameSizes as bs)
    (hleaves : itemLeaves element as = itemLeaves element bs)
    (heach : ∀ a ∈ as, ∀ b ∈ bs, a.sameSizes b → a.treeRoot = b.treeRoot → a = b) :
    as = bs := by
  have hrel := forall₂_sameSizes hlength hsizes
  unfold itemLeaves at hleaves
  cases hpacked : element.perChunk? with
  | none =>
      simp only [hpacked, treeRoots_eq] at hleaves
      rw [← List.forall₂_eq_eq_eq, List.forall₂_map_left_iff,
        List.forall₂_map_right_iff] at hleaves
      exact values_eq_of_made_eq hleaves hrel heach
  | some perChunk =>
      simp only [hpacked] at hleaves
      obtain ⟨hstatic, hproduct⟩ := packed_of_perChunk?_eq hformed hpacked
      have hwidth (v : Value) (hv : v.HasShape element) :
          v.encode.size = element.staticLength := hv.size_encode_of_isStatic hstatic
      have hshort : element.staticLength ≤ 32 := Nat.le_of_dvd (by decide) ⟨perChunk, hproduct.symm⟩
      have hinPlace : List.Forall₂ (fun a b => a.encode.size = b.encode.size) as bs := by
        refine (forall₂_mem hrel).imp ?_
        rintro a b ⟨_, ha, hb⟩
        rw [hwidth a (has a ha), hwidth b (hbs b hb)]
      have hencode : encodeInPlace ByteArray.empty as = encodeInPlace ByteArray.empty bs := by
        apply chunks_injective _ hleaves
        rw [size_encodeInPlace, size_encodeInPlace]
        exact sum_map_eq_of_forall₂ hinPlace
      refine values_eq_of_made_eq (encodes_eq_of_encodeInPlace_eq hinPlace hencode) hrel ?_
      intro a ha b hb hab habEncode
      have hfit := hwidth a (has a ha)
      exact (has a ha).eq_of_encode_eq (hbs b hb) hformed hab (by omega) habEncode

theorem items_eq_of_root_eq
    {as bs : List Value} {element : Shape} {capacity : Nat}
    (has : ∀ v ∈ as, v.HasShape element) (hbs : ∀ v ∈ bs, v.HasShape element)
    (hformed : element.wellFormed) (hlength : as.length = bs.length)
    (hsizes : pairwiseSameSizes as bs)
    (hfit : element.chunkCount as.length ≤ capacity)
    (hroots : Merkle.root capacity (itemLeaves element as) =
      Merkle.root capacity (itemLeaves element bs))
    (hnone : NoCollision sha256Pair
      (Merkle.rootPairs capacity (itemLeaves element as) ++ rootPairsAmong as)
      (Merkle.rootPairs capacity (itemLeaves element bs) ++ rootPairsAmong bs))
    (heach : ∀ a ∈ as, ∀ b ∈ bs, a.sameSizes b → a.treeRoot = b.treeRoot →
      NoCollision sha256Pair a.rootPairs b.rootPairs → a = b) : as = bs := by
  have hleafCount : (itemLeaves element as).length = (itemLeaves element bs).length := by
    rw [length_itemLeaves hformed has, length_itemLeaves hformed hbs, hlength]
  have hleaves := eq_of_root_eq hleafCount
    (by rw [length_itemLeaves hformed has]; exact hfit) hroots
    (hnone.mono (List.subset_append_left _ _) (List.subset_append_left _ _))
  refine items_eq_of_itemLeaves_eq has hbs hformed hlength hsizes hleaves ?_
  intro a ha b hb hab habRoot
  exact heach a ha b hb hab habRoot
    (hnone.mono (List.subset_append_of_subset_right _ (rootPairs_subset_of_mem ha))
      (List.subset_append_of_subset_right _ (rootPairs_subset_of_mem hb)))

/-! ## Values -/

/-- Values of one well-formed shape that were sized alike and have the same root
are equal, unless two of the pairs hashed for them collide. -/
theorem Value.HasShape.eq_of_treeRoot_eq
    {v w : Value} {shape : Shape} (hv : v.HasShape shape) (hw : w.HasShape shape)
    (hformed : shape.wellFormed) (hsizes : v.sameSizes w) (hroot : v.hasRoot)
    (hroots : v.treeRoot = w.treeRoot)
    (hnone : NoCollision sha256Pair v.rootPairs w.rootPairs) : v = w := by
  induction hv using Value.HasShape.induction generalizing w with
  | uint width n hn =>
      cases hw with
      | @uint _ m hm =>
          rw [Value.treeRoot, Value.treeRoot] at hroots
          have hwidth : width ≤ 32 :=
            Nat.le_of_dvd (by decide) ⟨32 / width, (packed_of_perChunk?_eq hformed rfl).2.symm⟩
          have hdigits := eq_of_chunkAt_zero_eq
            (by rw [Bytes.size_littleEndian, Bytes.size_littleEndian])
            (by rw [Bytes.size_littleEndian]; exact hwidth) hroots
          rw [Bytes.littleEndian_inj hn hm hdigits]
  | boolean b =>
      cases hw with
      | boolean c =>
          rw [Value.treeRoot, Value.treeRoot, FixedBytes.littleEndian,
            FixedBytes.littleEndian, FixedBytes.mk.injEq] at hroots
          have hdigits := Bytes.littleEndian_inj
            (by cases b <;> decide) (by cases c <;> decide) hroots
          cases b <;> cases c <;> simp_all
  | root r =>
      cases hw with
      | root s =>
          rw [Value.treeRoot, Value.treeRoot] at hroots
          rw [hroots]
  | bytes data =>
      obtain ⟨other, rfl, hsize⟩ := hw.exists_eq_bytes
      rw [Value.treeRoot, Value.treeRoot, hsize] at hroots
      rw [Value.rootPairs, Value.rootPairs, hsize] at hnone
      rw [eq_of_root_chunks_eq hsize.symm le_rfl hroots hnone]
  | byteList limit data hdata =>
      cases hw with
      | @byteList otherLimit other hother =>
          rw [Value.sameSizes] at hsizes
          subst hsizes
          rw [Value.hasRoot, decide_eq_true_eq] at hroot
          rw [Value.treeRoot, Value.treeRoot] at hroots
          rw [Value.rootPairs, Value.rootPairs] at hnone
          have hlimit : limit < 256 ^ 32 := by
            have hchunks := le_of_depthFor_le hroot
            exact Nat.lt_of_le_of_lt (m := 32 * 2 ^ 49) (by omega) (by decide)
          obtain ⟨hsize, hcontents⟩ := eq_of_mixInLength_eq (by omega) (by omega) hroots hnone
          rw [eq_of_root_chunks_eq hsize (Nat.div_le_div_right (by omega)) hcontents
            (NoCollision.of_mixedPairs hnone)]
  | list element limit items hlimit hitems ih =>
      cases hw with
      | @list _ otherLimit others hother hothers =>
          rw [allHaveShape_iff] at hothers
          rw [Value.sameSizes] at hsizes
          obtain ⟨rfl, hsizes⟩ := hsizes
          rw [Shape.wellFormed, Bool.and_eq_true] at hformed
          rw [Value.hasRoot, Bool.and_eq_true, decide_eq_true_eq, allHaveRoots_iff] at hroot
          rw [Value.treeRoot, Value.treeRoot] at hroots
          rw [Value.rootPairs, Value.rootPairs] at hnone
          have hbound := lt_of_chunkCount_le hformed.1 (le_of_depthFor_le hroot.1)
          obtain ⟨hlength, hcontents⟩ := eq_of_mixInLength_eq (by omega) (by omega) hroots
            (hnone.mono (List.subset_append_left _ _) (List.subset_append_left _ _))
          have hunmixed := hnone.mono (List.subset_cons_self _ _) (List.subset_cons_self _ _)
          rw [items_eq_of_root_eq hitems hothers hformed.1 hlength hsizes
            (chunkCount_mono element hlimit) hcontents hunmixed
            fun a ha b hb hab => ih a ha (hothers b hb) hformed.1 hab (hroot.2 a ha)]
  | vector element items hitems ih =>
      cases hw with
      | @vector _ others hothers =>
          rw [allHaveShape_iff] at hothers
          rw [Value.sameSizes] at hsizes
          rw [Value.hasRoot, allHaveRoots_iff] at hroot
          rw [Value.treeRoot, Value.treeRoot, ← hsizes.1] at hroots
          rw [Value.rootPairs, Value.rootPairs, ← hsizes.1] at hnone
          rw [items_eq_of_root_eq hitems hothers hformed hsizes.1 hsizes.2 le_rfl hroots hnone
            fun a ha b hb hab => ih a ha (hothers b hb) hformed hab (hroot a ha)]
  | array element items hitems ih =>
      obtain ⟨others, rfl, hlength, hothers⟩ := hw.exists_eq_array
      rw [Value.sameSizes] at hsizes
      rw [Shape.wellFormed, Bool.and_eq_true] at hformed
      rw [Value.hasRoot, allHaveRoots_iff] at hroot
      rw [Value.treeRoot, Value.treeRoot, hlength] at hroots
      rw [Value.rootPairs, Value.rootPairs, hlength] at hnone
      rw [items_eq_of_root_eq hitems hothers hformed.1 hlength.symm hsizes le_rfl hroots hnone
        fun a ha b hb hab => ih a ha (hothers b hb) hformed.1 hab (hroot a ha)]
  | bitvector bits =>
      cases hw with
      | bitvector others =>
          rw [Value.sameSizes] at hsizes
          rw [Value.treeRoot, Value.treeRoot, ← hsizes] at hroots
          rw [Value.rootPairs, Value.rootPairs, ← hsizes] at hnone
          have hsize : (Bits.pack bits).size = (Bits.pack others).size := by
            rw [size_pack, size_pack, hsizes]
          have hpacked := eq_of_root_chunks_eq hsize (by rw [size_pack]; exact le_rfl)
            hroots hnone
          rw [Bits.pack_injective hsizes hpacked]
  | bitlist limit bits hbits =>
      cases hw with
      | @bitlist otherLimit others hothers =>
          rw [Value.sameSizes] at hsizes
          subst hsizes
          rw [Value.hasRoot, decide_eq_true_eq] at hroot
          rw [Value.treeRoot, Value.treeRoot] at hroots
          rw [Value.rootPairs, Value.rootPairs] at hnone
          have hlimit : limit < 256 ^ 32 := by
            have hchunks : ((limit + 7) / 8 + 31) / 32 ≤ 2 ^ 49 := le_of_depthFor_le hroot
            exact Nat.lt_of_le_of_lt (m := 256 * 2 ^ 49) (by omega) (by decide)
          obtain ⟨hlength, hcontents⟩ := eq_of_mixInLength_eq (by omega) (by omega) hroots hnone
          have hsize : (Bits.pack bits).size = (Bits.pack others).size := by
            rw [size_pack, size_pack, hlength]
          have hfit : ((Bits.pack bits).size + 31) / 32 ≤ bitChunkCount limit := by
            rw [size_pack, bitChunkCount]
            omega
          have hpacked := eq_of_root_chunks_eq hsize hfit hcontents
            (NoCollision.of_mixedPairs hnone)
          rw [Bits.pack_injective hlength hpacked]
  | container schema values hfields ih =>
      cases hw with
      | @container _ others hothers =>
          rw [hasFields_iff] at hothers
          rw [Value.sameSizes] at hsizes
          rw [Value.hasRoot, allHaveRoots_iff] at hroot
          rw [Value.treeRoot, Value.treeRoot, treeRoots_eq, treeRoots_eq] at hroots
          rw [Value.rootPairs, Value.rootPairs, treeRoots_eq, treeRoots_eq] at hnone
          have hfieldsFormed := Schema.wellFormed_fields hformed
          have hrel := forall₂_field_of_sameSizes ih hothers hsizes
          have hlength : (values.map Value.treeRoot).length =
              (others.map Value.treeRoot).length := by
            rw [List.length_map, List.length_map, hfields.length_eq, hothers.length_eq]
          have hfit : (values.map Value.treeRoot).length ≤ schema.fields.length := by
            rw [List.length_map, hfields.length_eq]
          have hleaves := eq_of_root_eq hlength hfit hroots
            (hnone.mono (List.subset_append_left _ _) (List.subset_append_left _ _))
          rw [← List.forall₂_eq_eq_eq, List.forall₂_map_left_iff,
            List.forall₂_map_right_iff] at hleaves
          rw [values_eq_of_made_eq hleaves hrel]
          rintro a ha b hb ⟨f, hf, ⟨_, hbound⟩, hshape, hab⟩ habRoot
          exact hbound hshape (hfieldsFormed f hf) hab (hroot a ha) habRoot
            (hnone.mono (List.subset_append_of_subset_right _ (rootPairs_subset_of_mem ha))
              (List.subset_append_of_subset_right _ (rootPairs_subset_of_mem hb)))

end Ssz
end GenesisForge
