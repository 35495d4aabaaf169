import GenesisForge.Merkle
import GenesisForge.Proofs.ByteStrings
import Mathlib.Data.List.GetD

/-!
# Hash trees determine their leaves

The pairs of nodes that are combined on the way to a root are listed.  If no
two different pairs of two trees are combined into the same node, then equal
roots have equal leaves, the leaves that were not provided being the zero leaf.
The proof goes up the layers: the nodes of a layer are equal because the pairs
below them combine into equal nodes.
-/

namespace GenesisForge
namespace Merkle

section

variable {α : Type} {combine : α → α → α}

/-- The pairs that are combined between a layer and the layer above it. -/
def layerPairs (zero : α) : List α → List (α × α)
  | [] => []
  | [a] => [(a, zero)]
  | a :: b :: rest => (a, b) :: layerPairs zero rest

/-- The pairs that are combined on the way to the root `depth` layers above. -/
def treePairs (combine : α → α → α) : Nat → α → List α → List (α × α)
  | 0, _, _ => []
  | depth + 1, zero, layer =>
      (zero, zero) :: layerPairs zero layer ++
        treePairs combine depth (combine zero zero) (pairUp combine zero layer)

/-- No pair of the one list is combined into the same node as another pair of
the other list. -/
def NoCollision (combine : α → α → α) (ps qs : List (α × α)) : Prop :=
  ∀ p ∈ ps, ∀ q ∈ qs, combine p.1 p.2 = combine q.1 q.2 → p = q

theorem NoCollision.mono
    {ps qs ps' qs' : List (α × α)} (hnone : NoCollision combine ps' qs')
    (hps : ps ⊆ ps') (hqs : qs ⊆ qs') : NoCollision combine ps qs :=
  fun p hp q hq hnode => hnone p (hps hp) q (hqs hq) hnode

theorem pairUpOnto_eq (zero : α) (above layer : List α) :
    pairUpOnto combine zero above layer =
      above.reverse ++ (layerPairs zero layer).map fun p => combine p.1 p.2 := by
  induction layer using layerPairs.induct generalizing above with
  | case1 => simp [pairUpOnto, layerPairs]
  | case2 a => simp [pairUpOnto, layerPairs]
  | case3 a b rest ih => simp [pairUpOnto, layerPairs, ih]

theorem pairUp_eq (zero : α) (layer : List α) :
    pairUp combine zero layer =
      (layerPairs zero layer).map fun p => combine p.1 p.2 := by
  rw [pairUp, pairUpOnto_eq, List.reverse_nil, List.nil_append]

theorem length_layerPairs (zero : α) (layer : List α) :
    (layerPairs zero layer).length = (layer.length + 1) / 2 := by
  induction layer using layerPairs.induct with
  | case1 => simp [layerPairs]
  | case2 a => simp [layerPairs]
  | case3 a b rest ih =>
      simp only [layerPairs, List.length_cons, ih]
      omega

theorem getD_layerPairs (zero : α) (layer : List α) (i : Nat) :
    (layerPairs zero layer).getD i (zero, zero) =
      (layer.getD (2 * i) zero, layer.getD (2 * i + 1) zero) := by
  induction layer using layerPairs.induct generalizing i with
  | case1 => simp [layerPairs]
  | case2 a =>
      cases i with
      | zero => simp [layerPairs]
      | succ i => simp [layerPairs, Nat.mul_add]
  | case3 a b rest ih =>
      cases i with
      | zero => simp [layerPairs]
      | succ i => simpa [layerPairs, Nat.mul_add] using ih i

theorem pair_mem_layerPairs (zero : α) (layer : List α) (i : Nat) :
    (layer.getD (2 * i) zero, layer.getD (2 * i + 1) zero) ∈
      (zero, zero) :: layerPairs zero layer := by
  rw [← getD_layerPairs]
  by_cases hi : i < (layerPairs zero layer).length
  · rw [List.getD_eq_getElem _ _ hi]
    exact List.mem_cons_of_mem _ (List.getElem_mem hi)
  · rw [List.getD_eq_default _ _ (by omega)]
    exact List.mem_cons_self

theorem getD_pairUp (zero : α) (layer : List α) (i : Nat) :
    (pairUp combine zero layer).getD i (combine zero zero) =
      combine (layer.getD (2 * i) zero) (layer.getD (2 * i + 1) zero) := by
  have hnode := List.getD_map (layerPairs zero layer) (zero, zero) (n := i)
    fun p => combine p.1 p.2
  rw [← pairUp_eq, getD_layerPairs] at hnode
  exact hnode

/-- Trees of one depth that have the same root have the same leaves. -/
theorem getD_eq_of_rootAbove_eq
    {depth : Nat} {zero : α} {as bs : List α}
    (has : as.length ≤ 2 ^ depth) (hbs : bs.length ≤ 2 ^ depth)
    (hroots : rootAbove combine depth zero as = rootAbove combine depth zero bs)
    (hnone : NoCollision combine (treePairs combine depth zero as)
      (treePairs combine depth zero bs)) (i : Nat) :
    as.getD i zero = bs.getD i zero := by
  induction depth generalizing zero as bs i with
  | zero =>
      cases i with
      | zero => simpa only [rootAbove, List.headD_eq_getD] using hroots
      | succ i =>
          rw [Nat.pow_zero] at has hbs
          rw [List.getD_eq_default _ _ (by omega), List.getD_eq_default _ _ (by omega)]
  | succ depth ih =>
      rw [rootAbove, rootAbove] at hroots
      have hlength (layer : List α) (hlayer : layer.length ≤ 2 ^ (depth + 1)) :
          (pairUp combine zero layer).length ≤ 2 ^ depth := by
        rw [pairUp_eq, List.length_map, length_layerPairs]
        omega
      have habove := ih (hlength as has) (hlength bs hbs) hroots
        (hnone.mono (List.subset_append_right _ _) (List.subset_append_right _ _)) (i / 2)
      rw [getD_pairUp, getD_pairUp] at habove
      have hpairs := hnone _
        (List.mem_append_left _ (pair_mem_layerPairs zero as (i / 2))) _
        (List.mem_append_left _ (pair_mem_layerPairs zero bs (i / 2))) habove
      rw [Prod.mk.injEq] at hpairs
      have hparity : i = 2 * (i / 2) ∨ i = 2 * (i / 2) + 1 := by omega
      rcases hparity with hi | hi
      · rw [hi]
        exact hpairs.1
      · rw [hi]
        exact hpairs.2

theorem eq_of_getD_eq
    {zero : α} {as bs : List α} (hlength : as.length = bs.length)
    (heach : ∀ i, as.getD i zero = bs.getD i zero) : as = bs := by
  apply List.ext_getElem hlength
  intro i ha hb
  simpa [ha, hb] using heach i

theorem le_two_pow_depthFor (leaves : Nat) : leaves ≤ 2 ^ depthFor leaves := by
  unfold depthFor
  by_cases hfew : leaves ≤ 1
  · rw [if_pos hfew]
    exact hfew
  · rw [if_neg hfew]
    have hlog := Nat.lt_log2_self (n := leaves - 1)
    omega

end

/-- The pairs that are hashed on the way to a root. -/
def rootPairs (capacity : Nat) (leaves : List Root) : List (Root × Root) :=
  treePairs sha256Pair (depthFor capacity) (FixedBytes.zero 32) leaves

theorem eq_of_root_eq
    {capacity : Nat} {as bs : List Root} (hlength : as.length = bs.length)
    (hfit : as.length ≤ capacity) (hroots : root capacity as = root capacity bs)
    (hnone : NoCollision sha256Pair (rootPairs capacity as) (rootPairs capacity bs)) :
    as = bs := by
  have hroom := Nat.le_trans hfit (le_two_pow_depthFor capacity)
  exact eq_of_getD_eq hlength
    (getD_eq_of_rootAbove_eq hroom (by omega) hroots hnone)

/-! ## Chunks of byte strings -/

theorem length_chunks (bytes : ByteArray) :
    (chunks bytes).length = (bytes.size + 31) / 32 := by
  rw [chunks, List.length_map, List.length_range]

theorem bytes_chunkAt (bytes : ByteArray) (start : Nat) :
    (chunkAt bytes start).bytes =
      bytes.extract start (start + 32) ++
        Bytes.fill 0 (32 - (bytes.extract start (start + 32)).size) := by
  unfold chunkAt
  by_cases hfull : (bytes.extract start (start + 32)).size = 32
  · rw [dif_pos hfull, hfull, Nat.sub_self]
    exact ByteArray.append_empty.symm
  · have hfilled :
        (bytes.extract start (start + 32) ++
          Bytes.fill 0 (32 - (bytes.extract start (start + 32)).size)).size = 32 := by
      rw [ByteArray.size_append, Bytes.size_fill, ByteArray.size_extract] at *
      omega
    rw [dif_neg hfull, Bytes.appendFill_eq, FixedBytes.ofBytes?, dif_pos hfilled,
      Option.getD_some]

theorem extract_eq_of_chunkAt_eq
    {a b : ByteArray} {start : Nat} (hsize : a.size = b.size)
    (hchunk : chunkAt a start = chunkAt b start) :
    a.extract start (start + 32) = b.extract start (start + 32) := by
  have hbytes := congrArg FixedBytes.bytes hchunk
  rw [bytes_chunkAt, bytes_chunkAt, ByteArray.append_eq_append_iff_of_size_eq_left
    (by simp [ByteArray.size_extract, hsize])] at hbytes
  exact hbytes.1

theorem chunks_injective
    {a b : ByteArray} (hsize : a.size = b.size) (hchunks : chunks a = chunks b) :
    a = b := by
  have hpart (i : Nat) (hi : i < (a.size + 31) / 32) :
      a.extract (32 * i) (32 * i + 32) = b.extract (32 * i) (32 * i + 32) := by
    apply extract_eq_of_chunkAt_eq hsize
    rw [chunks, chunks, ← hsize, List.map_inj_left] at hchunks
    exact hchunks i (List.mem_range.mpr hi)
  have hprefix (count : Nat) (hcount : count ≤ (a.size + 31) / 32) :
      a.extract 0 (32 * count) = b.extract 0 (32 * count) := by
    induction count with
    | zero => simp
    | succ count ih =>
        rw [Nat.mul_add, Nat.mul_one,
          ByteArray.extract_eq_extract_append_extract (32 * count) (by omega) (by omega),
          ByteArray.extract_eq_extract_append_extract (a := b) (32 * count) (by omega)
            (by omega), ih (by omega), hpart count (by omega)]
  have hall := hprefix ((a.size + 31) / 32) le_rfl
  have hcover : 32 * ((a.size + 31) / 32) = max (32 * ((a.size + 31) / 32)) a.size := by
    omega
  rw [hcover, ByteArray.extract_zero_max_size, hsize, ByteArray.extract_zero_max_size] at hall
  exact hall

theorem eq_of_chunkAt_zero_eq
    {a b : ByteArray} (hsize : a.size = b.size) (hshort : a.size ≤ 32)
    (hchunk : chunkAt a 0 = chunkAt b 0) : a = b := by
  have hpart := extract_eq_of_chunkAt_eq hsize hchunk
  have hcover : 0 + 32 = max 32 a.size := by omega
  rw [hcover, ByteArray.extract_zero_max_size, hsize, ByteArray.extract_zero_max_size] at hpart
  exact hpart

theorem eq_of_root_chunks_eq
    {capacity : Nat} {a b : ByteArray} (hsize : a.size = b.size)
    (hfit : (a.size + 31) / 32 ≤ capacity)
    (hroots : root capacity (chunks a) = root capacity (chunks b))
    (hnone : NoCollision sha256Pair (rootPairs capacity (chunks a))
      (rootPairs capacity (chunks b))) : a = b := by
  have hlength : (chunks a).length = (chunks b).length := by
    rw [length_chunks, length_chunks, hsize]
  rw [← length_chunks] at hfit
  exact chunks_injective hsize (eq_of_root_eq hlength hfit hroots hnone)

end Merkle
end GenesisForge
