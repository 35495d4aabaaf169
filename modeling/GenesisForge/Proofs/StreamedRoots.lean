import GenesisForge.Proofs.BitPacking
import GenesisForge.Proofs.HashStream
import GenesisForge.Proofs.RootsDefined
import GenesisForge.Ssz.StreamedRoot
import Mathlib.Data.Nat.Log

/-!
# Roots of collections are roots of complete trees

The tree of a collection has a leaf for every chunk that the collection has room
for.  A chunk holds 32 bytes of the items one after the other, the root of an
item, or 256 bits, and what lies behind the last item is zero.  Both the fold in
layers and the streams of the hashers give the root of this tree, and no hasher
ever has a fault.
-/

namespace GenesisForge
namespace Ssz

open Merkle

/-! ## Chunks -/

/-- The chunk at an index of a byte string with zeros behind it. -/
def byteChunk (bytes : ByteArray) (index : Nat) : Root :=
  .ofFn 32 fun place => bytes.data.getD (32 * index + place) 0

/-- The chunk at an index of bits with zeros behind them, eight bits to a byte. -/
def bitChunk (bits : List Bool) (index : Nat) : Root :=
  .ofFn 32 fun place =>
    Bits.byteOf (List.ofFn fun bit : Fin 8 => bits.getD (256 * index + 8 * place + bit) false)

/-- The bytes of a value of a basic shape, many of which share a chunk. -/
def Shape.basicSize? : Shape → Option Nat
  | .uint width => some width
  | .boolean => some 1
  | _ => none

/-- The chunk at an index of the items of a collection. -/
def itemChunk (element : Shape) (items : List Value) (index : Nat) : Root :=
  match element.basicSize? with
  | some _ => byteChunk (Bytes.concat (items.map Value.encode)) index
  | none => (items.map Value.treeRoot).getD index (.zero 32)

/-! ## Trees -/

/-- A complete tree of chunks, and the count that is mixed into its root. -/
structure ChunkTree where
  /-- The number of chunks that there is room for. -/
  capacity : Nat
  chunk : Nat → Root
  count? : Option Nat

/-- The root of the tree whose leaves are as many as the next power of two. -/
def ChunkTree.root (tree : ChunkTree) : Root :=
  let top := nodeAt sha256Pair tree.chunk (Nat.clog 2 tree.capacity) 0
  match tree.count? with
  | none => top
  | some count => sha256Pair top (.littleEndian 32 count)

/-- The number of chunks that so many elements of a shape take. -/
def Shape.capacityFor (element : Shape) (count : Nat) : Nat :=
  match element.basicSize? with
  | some size => (size * count + 31) / 32
  | none => count

/-- The number of chunks that a value has room for. -/
def Value.chunkCapacity : Value → Nat
  | .uint _ _ | .boolean _ | .root _ => 1
  | .bytes data => (data.size + 31) / 32
  | .byteList limit _ => (limit + 31) / 32
  | .list element limit _ => element.capacityFor limit
  | .vector element items | .array element items => element.capacityFor items.length
  | .bitvector bits => (bits.length + 255) / 256
  | .bitlist limit _ => (limit + 255) / 256
  | .container schema _ => schema.fields.length

def Value.chunkTree? (v : Value) : Option ChunkTree :=
  match v with
  | .bytes data => some ⟨v.chunkCapacity, byteChunk data, none⟩
  | .byteList _ data => some ⟨v.chunkCapacity, byteChunk data, some data.size⟩
  | .list element _ items => some ⟨v.chunkCapacity, itemChunk element items, some items.length⟩
  | .vector element items | .array element items =>
      some ⟨v.chunkCapacity, itemChunk element items, none⟩
  | .bitvector bits => some ⟨v.chunkCapacity, bitChunk bits, none⟩
  | .bitlist _ bits => some ⟨v.chunkCapacity, bitChunk bits, some bits.length⟩
  | .uint _ _ | .boolean _ | .root _ | .container _ _ => none

mutual

/-- Whether a value and all values inside it have room for at most `2 ^ 49` chunks. -/
def Value.hasRoom : Value → Bool
  | .list element limit items => element.capacityFor limit ≤ 2 ^ 49 && allHaveRoom items
  | .vector element items | .array element items =>
      element.capacityFor items.length ≤ 2 ^ 49 && allHaveRoom items
  | .container schema values => schema.fields.length ≤ 2 ^ 49 && allHaveRoom values
  | .uint _ _ | .boolean _ | .root _ => true
  | .bytes data => (data.size + 31) / 32 ≤ 2 ^ 49
  | .byteList limit _ => (limit + 31) / 32 ≤ 2 ^ 49
  | .bitvector bits => (bits.length + 255) / 256 ≤ 2 ^ 49
  | .bitlist limit _ => (limit + 255) / 256 ≤ 2 ^ 49

def allHaveRoom : List Value → Bool
  | [] => true
  | v :: rest => v.hasRoom && allHaveRoom rest

end

theorem allHaveRoom_iff {values : List Value} :
    allHaveRoom values ↔ ∀ v ∈ values, v.hasRoom := by
  induction values with
  | nil => simp [allHaveRoom]
  | cons v rest ih => simp [allHaveRoom, ih]

mutual

/-- Whether a chunk is a whole number of integers, for all integers of a shape. -/
def Shape.packs : Shape → Bool
  | .uint width => 0 < width && 32 % width == 0
  | .boolean | .root | .bytes _ | .byteList | .bitvector | .bitlist => true
  | .list element | .vector element | .array element _ => element.packs
  | .container schema => schema.packs

def Schema.packs : Schema → Bool
  | .mk _ _ fields => allPack fields

def allPack : List Field → Bool
  | [] => true
  | .mk _ _ shape :: rest => shape.packs && allPack rest

end

theorem allPack_eq (fields : List Field) : allPack fields = fields.all (·.shape.packs) := by
  induction fields with
  | nil => rfl
  | cons f rest ih => obtain ⟨name, quoted, shape⟩ := f; simp [allPack, ih, Field.shape]

theorem Schema.packs_fields
    {schema : Schema} (hpacks : schema.packs) : ∀ f ∈ schema.fields, f.shape.packs := by
  obtain ⟨name, sizing, fields⟩ := schema
  rw [Schema.packs, allPack_eq, List.all_eq_true] at hpacks
  exact hpacks

/-! ## Leaves of the trees -/

theorem chunkAt_eq_byteChunk (bytes : ByteArray) (index : Nat) :
    chunkAt bytes (32 * index) = byteChunk bytes index := by
  apply FixedBytes.ext
  apply ByteArray.ext
  rw [bytes_chunkAt, ByteArray.data_append, Bytes.data_fill, ByteArray.data_extract]
  apply Array.ext
  · simp [byteChunk, FixedBytes.ofFn]
    omega
  · intro i hi hi'
    have hsize : bytes.data.size = bytes.size := ByteArray.size_data
    have hplace : i < 32 := by simpa [byteChunk, FixedBytes.ofFn] using hi'
    simp only [byteChunk, FixedBytes.ofFn, Array.getElem_ofFn, Array.getD_eq_getD_getElem?]
    rw [Array.getElem_append]
    split
    · rename_i hin
      simp at hin
      rw [Array.getElem_extract, Array.getElem?_eq_getElem (by omega), Option.getD_some]
    · rename_i hout
      simp at hout
      rw [Array.getElem_replicate, Array.getElem?_eq_none (by omega), Option.getD_none]

theorem getD_data_pack (bits : List Bool) (index : Nat) :
    (Bits.pack bits).data.getD index 0 =
      Bits.byteOf (List.ofFn fun bit : Fin 8 => bits.getD (8 * index + bit) false) := by
  rw [← UInt8.toNat_inj]
  refine Nat.eq_of_testBit_eq fun bit => ?_
  rw [Bits.testBit_byteOf (by simp)]
  by_cases hbit : bit < 8
  · have hbitAt := Bits.bitAt_pack bits (8 * index + bit)
    have hbyte : (8 * index + bit) / 8 = index := by omega
    have hplace : (8 * index + bit) % 8 = bit := by omega
    have hlisted : (List.ofFn fun place : Fin 8 => bits.getD (8 * index + place) false).getD bit
        false = bits.getD (8 * index + bit) false := by
      rw [List.getD_eq_getElem _ _ (by simpa using hbit), List.getElem_ofFn]
    rw [Bits.bitAt, hbyte, hplace] at hbitAt
    rw [hbitAt, hlisted]
  · have hbyte := ((Bits.pack bits).data.getD index 0).toNat_lt
    have hpow : 2 ^ 8 ≤ 2 ^ bit := Nat.pow_le_pow_right (by decide) (by omega)
    rw [List.getD_eq_default _ _ (by simpa using hbit)]
    exact Nat.testBit_lt_two_pow (Nat.lt_of_lt_of_le hbyte hpow)

theorem chunkAt_pack_eq_bitChunk (bits : List Bool) (index : Nat) :
    chunkAt (Bits.pack bits) (32 * index) = bitChunk bits index := by
  rw [chunkAt_eq_byteChunk]
  refine congrArg (FixedBytes.ofFn 32) (funext fun place => ?_)
  have hbits : 8 * (32 * index + place) = 256 * index + 8 * place := by omega
  rw [getD_data_pack, hbits]

theorem depthFor_eq_clog (leaves : Nat) : depthFor leaves = Nat.clog 2 leaves :=
  Nat.le_antisymm (depthFor_le (Nat.le_pow_clog (by decide) leaves))
    (Nat.clog_le_of_le_pow (le_two_pow_depthFor leaves))

/-- The fold over some leaves gives the root of the complete tree of those leaves. -/
theorem root_eq_nodeAt
    {capacity : Nat} {leaves : List Root} {chunk : Nat → Root}
    (hleaves : ∀ i, leaves.getD i (.zero 32) = chunk i) :
    Merkle.root capacity leaves = nodeAt sha256Pair chunk (Nat.clog 2 capacity) 0 := by
  have hchunk : (fun i => leaves.getD i (.zero 32)) = chunk := funext hleaves
  rw [Merkle.root, rootAbove_eq_nodeAt, hchunk, depthFor_eq_clog]

theorem perChunk?_eq (element : Shape) :
    element.perChunk? = element.basicSize?.map (32 / ·) := by
  cases element <;> rfl

theorem concat_map_encode (items : List Value) :
    Bytes.concat (items.map Value.encode) = encodeInPlace ByteArray.empty items := by
  induction items with
  | nil => rfl
  | cons v rest ih => rw [List.map_cons, Bytes.concat_cons, encodeInPlace_cons, ih]

theorem getD_itemLeaves (element : Shape) (items : List Value) (i : Nat) :
    (itemLeaves element items).getD i (.zero 32) = itemChunk element items i := by
  unfold itemLeaves itemChunk
  rw [perChunk?_eq]
  cases element.basicSize? with
  | none => rw [Option.map_none, treeRoots_eq]
  | some size =>
      simp only [Option.map_some, getD_chunks, chunkAt_eq_byteChunk, concat_map_encode]

theorem staticLength_of_basicSize?_eq
    {element : Shape} {size : Nat} (hsize : element.basicSize? = some size) :
    element.staticLength = size := by
  cases element with
  | uint width | boolean => exact Option.some.inj hsize
  | _ => cases hsize

theorem wellFormed_of_basicSize?_eq
    {element : Shape} {size : Nat} (hpacks : element.packs)
    (hsize : element.basicSize? = some size) : element.wellFormed := by
  cases element with
  | uint width | boolean => exact hpacks
  | _ => cases hsize

theorem chunkCount_eq_capacityFor
    {element : Shape} (hpacks : element.packs) (count : Nat) :
    element.chunkCount count = element.capacityFor count := by
  unfold Shape.chunkCount Shape.capacityFor
  cases hsize : element.basicSize? with
  | none => simp only [perChunk?_eq, hsize, Option.map_none]
  | some size =>
      have hpacked : element.perChunk? = some (32 / size) := by rw [perChunk?_eq, hsize]; rfl
      obtain ⟨-, hproduct⟩ :=
        packed_of_perChunk?_eq (wellFormed_of_basicSize?_eq hpacks hsize) hpacked
      rw [staticLength_of_basicSize?_eq hsize] at hproduct
      simp only [hpacked, ← chunks_of_packed hproduct]

theorem bitChunkCount_eq (count : Nat) : bitChunkCount count = (count + 255) / 256 := by
  unfold bitChunkCount
  omega

theorem length_chunks_pack (bits : List Bool) :
    (chunks (Bits.pack bits)).length = bitChunkCount bits.length := by
  rw [length_chunks, size_pack, bitChunkCount]

theorem bitChunkCount_mono {m n : Nat} (hmn : m ≤ n) : bitChunkCount m ≤ bitChunkCount n := by
  unfold bitChunkCount
  omega

theorem length_itemLeaves_of_packs
    {element : Shape} {items : List Value} (hpacks : element.packs)
    (hitems : ∀ v ∈ items, v.HasShape element) :
    (itemLeaves element items).length = element.chunkCount items.length := by
  cases hsize : element.basicSize? with
  | none =>
      unfold itemLeaves Shape.chunkCount
      simp only [perChunk?_eq, hsize, Option.map_none, treeRoots_eq, List.length_map]
  | some size => exact length_itemLeaves (wellFormed_of_basicSize?_eq hpacks hsize) hitems

/-! ## Pieces -/

theorem concat_singleBytes (data : ByteArray) : Bytes.concat (singleBytes data) = data := by
  have hlist (bytes : List UInt8) :
      Bytes.concat (bytes.map fun byte => ByteArray.empty.push byte) = ⟨bytes.toArray⟩ := by
    induction bytes with
    | nil => rfl
    | cons byte rest ih =>
        rw [List.map_cons, Bytes.concat_cons, ih]
        ext1
        simp
  exact hlist data.data.toList

theorem concat_singleton (bytes : ByteArray) : Bytes.concat [bytes] = bytes := by
  rw [Bytes.concat_cons]
  exact ByteArray.append_empty

theorem chunkAt_append_of_root (r : Root) (bytes : ByteArray) (start : Nat) :
    chunkAt (r.bytes ++ bytes) (32 + start) = chunkAt bytes start := by
  have hpart : (r.bytes ++ bytes).extract (32 + start) (32 + start + 32) =
      bytes.extract start (start + 32) := by
    have hnone : r.bytes.extract (32 + start) (32 + start + 32) = ByteArray.empty := by
      rw [ByteArray.extract_eq_empty_iff, r.size_eq]
      omega
    have hstart : 32 + start - 32 = start := by omega
    have hstop : 32 + start + 32 - 32 = start + 32 := by omega
    rw [ByteArray.extract_append, hnone, ByteArray.empty_append, r.size_eq, hstart, hstop]
  ext1
  rw [bytes_chunkAt, bytes_chunkAt, hpart]

theorem chunks_root_append (r : Root) (bytes : ByteArray) :
    chunks (r.bytes ++ bytes) = r :: chunks bytes := by
  have hcount : (32 + bytes.size + 31) / 32 = (bytes.size + 31) / 32 + 1 := by omega
  have hfirst : chunkAt (r.bytes ++ bytes) 0 = r := by
    ext1
    rw [chunkAt_of_full (by rw [ByteArray.size_append, r.size_eq]; omega), Nat.zero_add,
      ByteArray.extract_append_eq_left r.size_eq.symm]
  have hrest (i : Nat) : chunkAt (r.bytes ++ bytes) (32 * (i + 1)) = chunkAt bytes (32 * i) := by
    rw [Nat.mul_add, Nat.add_comm, Nat.mul_one, chunkAt_append_of_root]
  rw [chunks, chunks, ByteArray.size_append, r.size_eq, hcount, List.range_succ_eq_map,
    List.map_cons, List.map_map, Nat.mul_zero, hfirst]
  simp only [Function.comp_def, Nat.succ_eq_add_one, hrest]

theorem chunks_concat_roots (roots : List Root) :
    chunks (Bytes.concat (roots.map (·.bytes))) = roots := by
  induction roots with
  | nil => rfl
  | cons r rest ih => rw [List.map_cons, Bytes.concat_cons, chunks_root_append, ih]

theorem rootPieces_eq
    {values : List Value} (hroots : ∀ v ∈ values, v.streamedRoot = .ok v.treeRoot) :
    rootPieces values = .ok ((values.map Value.treeRoot).map (·.bytes)) := by
  induction values with
  | nil =>
      rw [rootPieces]
      rfl
  | cons v rest ih =>
      rw [List.forall_mem_cons] at hroots
      rw [rootPieces, hroots.1, ih hroots.2]
      rfl

/-- What the items write are the leaves that they provide. -/
theorem exists_itemPieces_eq
    (element : Shape) {items : List Value}
    (hroots : ∀ v ∈ items, v.streamedRoot = .ok v.treeRoot) :
    ∃ pieces, itemPieces element items = .ok pieces ∧
      chunks (Bytes.concat pieces) = itemLeaves element items := by
  unfold itemPieces itemLeaves
  cases element.perChunk? with
  | none => exact ⟨_, rootPieces_eq hroots, by rw [chunks_concat_roots, treeRoots_eq]⟩
  | some perChunk => exact ⟨_, rfl, by rw [concat_map_encode]⟩

theorem streamRoot_of_chunks_eq
    {capacity : Nat} {pieces : List ByteArray} {leaves : List Root}
    (hleaves : chunks (Bytes.concat pieces) = leaves) (hfit : leaves.length ≤ capacity)
    (hcapacity : capacity ≤ 2 ^ 49) :
    streamRoot capacity pieces = .ok (Merkle.root capacity leaves) := by
  have hroom := le_two_pow_depthFor capacity
  rw [← hleaves, length_chunks] at hfit
  rw [streamRoot_eq pieces (depthFor_le_maxDepth_iff.mpr hcapacity) (by omega), hleaves]

theorem streamRoot_items
    {element : Shape} {items : List Value} {count : Nat} (hpacks : element.packs)
    (hitems : ∀ v ∈ items, v.HasShape element)
    (hroots : ∀ v ∈ items, v.streamedRoot = .ok v.treeRoot) (hcount : items.length ≤ count)
    (hroom : element.capacityFor count ≤ 2 ^ 49) :
    (itemPieces element items).bind (streamRoot (element.chunkCount count)) =
      .ok (Merkle.root (element.chunkCount count) (itemLeaves element items)) := by
  obtain ⟨pieces, hpieces, hleaves⟩ := exists_itemPieces_eq element hroots
  rw [← chunkCount_eq_capacityFor hpacks] at hroom
  rw [hpieces]
  refine streamRoot_of_chunks_eq hleaves ?_ hroom
  rw [length_itemLeaves_of_packs hpacks hitems]
  exact chunkCount_mono element hcount

/-! ## Values -/

/-- The hashers of a value have no fault, and give the root that the folds give. -/
theorem Value.HasShape.streamedRoot_eq
    {v : Value} {shape : Shape} (hshape : v.HasShape shape) (hpacks : shape.packs)
    (hroom : v.hasRoom) : v.streamedRoot = .ok v.treeRoot := by
  induction hshape using Value.HasShape.induction with
  | uint | boolean | root => simp only [Value.streamedRoot, Value.treeRoot]
  | bytes data =>
      rw [Value.hasRoom, decide_eq_true_eq] at hroom
      rw [Value.streamedRoot, Value.treeRoot]
      exact streamRoot_of_chunks_eq (by rw [concat_singleBytes]) (length_chunks data).le hroom
  | byteList limit data hdata =>
      rw [Value.hasRoom, decide_eq_true_eq] at hroom
      have hstream : streamRoot ((limit + 31) / 32) (singleBytes data) =
          .ok (Merkle.root ((limit + 31) / 32) (chunks data)) := by
        refine streamRoot_of_chunks_eq (by rw [concat_singleBytes]) ?_ hroom
        rw [length_chunks]
        omega
      rw [Value.streamedRoot, Value.treeRoot, hstream]
      rfl
  | list element limit items hlimit hitems ih =>
      rw [Shape.packs] at hpacks
      rw [Value.hasRoom, Bool.and_eq_true, decide_eq_true_eq, allHaveRoom_iff] at hroom
      have hstream := streamRoot_items hpacks hitems
        (fun v hv => ih v hv hpacks (hroom.2 v hv)) hlimit hroom.1
      rw [Value.streamedRoot, Value.treeRoot, hstream]
      rfl
  | vector element items hitems ih =>
      rw [Shape.packs] at hpacks
      rw [Value.hasRoom, Bool.and_eq_true, decide_eq_true_eq, allHaveRoom_iff] at hroom
      rw [Value.streamedRoot, Value.treeRoot]
      exact streamRoot_items hpacks hitems
        (fun v hv => ih v hv hpacks (hroom.2 v hv)) (Nat.le_refl _) hroom.1
  | array element items hitems ih =>
      rw [Shape.packs] at hpacks
      rw [Value.hasRoom, Bool.and_eq_true, decide_eq_true_eq, allHaveRoom_iff] at hroom
      rw [Value.streamedRoot, Value.treeRoot]
      exact streamRoot_items hpacks hitems
        (fun v hv => ih v hv hpacks (hroom.2 v hv)) (Nat.le_refl _) hroom.1
  | bitvector bits =>
      rw [Value.hasRoom, decide_eq_true_eq, ← bitChunkCount_eq] at hroom
      rw [Value.streamedRoot, Value.treeRoot]
      exact streamRoot_of_chunks_eq (by rw [concat_singleton]) (length_chunks_pack bits).le hroom
  | bitlist limit bits hbits =>
      rw [Value.hasRoom, decide_eq_true_eq, ← bitChunkCount_eq] at hroom
      have hstream : streamRoot (bitChunkCount limit) [Bits.pack bits] =
          .ok (Merkle.root (bitChunkCount limit) (chunks (Bits.pack bits))) := by
        refine streamRoot_of_chunks_eq (by rw [concat_singleton]) ?_ hroom
        rw [length_chunks_pack]
        exact bitChunkCount_mono hbits
      rw [Value.streamedRoot, Value.treeRoot, hstream]
      rfl
  | container schema values hfields ih =>
      rw [Shape.packs] at hpacks
      rw [Value.hasRoom, Bool.and_eq_true, decide_eq_true_eq, allHaveRoom_iff] at hroom
      have hroots : ∀ v ∈ values, v.streamedRoot = .ok v.treeRoot := by
        refine forall_mem_of_forall₂ (forall₂_mem ih) ?_
        rintro v f ⟨⟨_, hvalue⟩, hv, hf⟩
        exact hvalue (Schema.packs_fields hpacks f hf) (hroom.2 v hv)
      rw [Value.streamedRoot, Value.treeRoot, rootPieces_eq hroots, treeRoots_eq]
      refine streamRoot_of_chunks_eq (chunks_concat_roots _) ?_ hroom.1
      rw [List.length_map, hfields.length_eq]

theorem Value.hasRoot_of_hasRoom
    {v : Value} {shape : Shape} (hshape : v.HasShape shape) (hpacks : shape.packs)
    (hroom : v.hasRoom) : v.hasRoot := by
  induction hshape using Value.HasShape.induction with
  | uint | boolean | root | bytes | bitvector => rfl
  | byteList limit data hdata =>
      rw [Value.hasRoom, decide_eq_true_eq] at hroom
      rw [Value.hasRoot, decide_eq_true_eq]
      exact depthFor_le_maxDepth_iff.mpr hroom
  | list element limit items hlimit hitems ih =>
      rw [Shape.packs] at hpacks
      rw [Value.hasRoom, Bool.and_eq_true, decide_eq_true_eq, allHaveRoom_iff,
        ← chunkCount_eq_capacityFor hpacks] at hroom
      exact hasRoot_list_iff.mpr ⟨hroom.1, fun v hv => ih v hv hpacks (hroom.2 v hv)⟩
  | vector element items hitems ih =>
      rw [Shape.packs] at hpacks
      rw [Value.hasRoom, Bool.and_eq_true, allHaveRoom_iff] at hroom
      rw [Value.hasRoot, allHaveRoots_iff]
      exact fun v hv => ih v hv hpacks (hroom.2 v hv)
  | array element items hitems ih =>
      rw [Shape.packs] at hpacks
      rw [Value.hasRoom, Bool.and_eq_true, allHaveRoom_iff] at hroom
      rw [Value.hasRoot, allHaveRoots_iff]
      exact fun v hv => ih v hv hpacks (hroom.2 v hv)
  | bitlist limit bits hbits =>
      rw [Value.hasRoom, decide_eq_true_eq, ← bitChunkCount_eq] at hroom
      rw [Value.hasRoot, decide_eq_true_eq]
      exact depthFor_le_maxDepth_iff.mpr hroom
  | container schema values hfields ih =>
      rw [Shape.packs] at hpacks
      rw [Value.hasRoom, Bool.and_eq_true, allHaveRoom_iff] at hroom
      rw [Value.hasRoot, allHaveRoots_iff]
      refine forall_mem_of_forall₂ (forall₂_mem ih) ?_
      rintro v f ⟨⟨_, hvalue⟩, hv, hf⟩
      exact hvalue (Schema.packs_fields hpacks f hf) (hroom.2 v hv)

theorem getD_chunks_eq_byteChunk (bytes : ByteArray) (i : Nat) :
    (chunks bytes).getD i (.zero 32) = byteChunk bytes i := by
  rw [getD_chunks, chunkAt_eq_byteChunk]

theorem getD_chunks_pack (bits : List Bool) (i : Nat) :
    (chunks (Bits.pack bits)).getD i (.zero 32) = bitChunk bits i := by
  rw [getD_chunks, chunkAt_pack_eq_bitChunk]

theorem treeRoot_eq_root_of_chunkTree?
    {v : Value} {shape : Shape} {tree : ChunkTree} (hshape : v.HasShape shape)
    (hpacks : shape.packs) (htree : v.chunkTree? = some tree) :
    v.treeRoot = tree.root := by
  cases hshape with
  | uint | boolean | root | container => cases htree
  | bytes data =>
      cases htree
      rw [Value.treeRoot, root_eq_nodeAt (getD_chunks_eq_byteChunk data)]
      rfl
  | byteList hdata =>
      cases htree
      rw [Value.treeRoot, root_eq_nodeAt (getD_chunks_eq_byteChunk _)]
      rfl
  | @list element limit items hlimit hitems =>
      cases htree
      rw [Shape.packs] at hpacks
      rw [Value.treeRoot, root_eq_nodeAt (getD_itemLeaves element items),
        chunkCount_eq_capacityFor hpacks]
      rfl
  | @vector element items hitems =>
      cases htree
      rw [Shape.packs] at hpacks
      rw [Value.treeRoot, root_eq_nodeAt (getD_itemLeaves element items),
        chunkCount_eq_capacityFor hpacks]
      rfl
  | @array element items hitems =>
      cases htree
      rw [Shape.packs] at hpacks
      rw [Value.treeRoot, root_eq_nodeAt (getD_itemLeaves element items),
        chunkCount_eq_capacityFor hpacks]
      rfl
  | bitvector bits =>
      cases htree
      rw [Value.treeRoot, root_eq_nodeAt (getD_chunks_pack bits), bitChunkCount_eq]
      rfl
  | bitlist hbits =>
      cases htree
      rw [Value.treeRoot, root_eq_nodeAt (getD_chunks_pack _), bitChunkCount_eq]
      rfl

/-- The root of a collection is that of its tree of chunks, and the hashers that
give it have no fault on the way. -/
theorem Value.HasShape.roots_eq_chunkTree
    {v : Value} {shape : Shape} {tree : ChunkTree} (hshape : v.HasShape shape)
    (hpacks : shape.packs) (hroom : v.hasRoom) (htree : v.chunkTree? = some tree) :
    v.treeRoot? = some tree.root ∧ v.streamedRoot = .ok tree.root := by
  have hroot := treeRoot_eq_root_of_chunkTree? hshape hpacks htree
  constructor
  · rw [Value.treeRoot?, if_pos (Value.hasRoot_of_hasRoom hshape hpacks hroom), hroot]
  · rw [hshape.streamedRoot_eq hpacks hroom, hroot]

/-- A list with byte strings of less and of more than one chunk. -/
def twoByteLists : Value :=
  .list .byteList 3 [.byteList 40 ⟨#[1, 2, 3]⟩, .byteList 40 ⟨Array.replicate 40 7⟩]

theorem roots_twoByteLists :
    ∃ tree, twoByteLists.chunkTree? = some tree ∧ tree.capacity = 3 ∧ tree.count? = some 2 ∧
      twoByteLists.treeRoot? = some tree.root ∧ twoByteLists.streamedRoot = .ok tree.root := by
  have hshape : twoByteLists.HasShape (.list .byteList) :=
    .list (by decide) (.cons (.byteList (by decide)) (.cons (.byteList (by decide)) (.nil _)))
  have hroom : twoByteLists.hasRoom := by decide
  exact ⟨_, rfl, rfl, rfl, hshape.roots_eq_chunkTree rfl hroom rfl⟩

end Ssz

/-! ## The containers of the chain -/

open Ssz

namespace Schemas

theorem packs_of_mem_all : ∀ schema ∈ all, schema.packs := by
  decide

/-- Where its trees have room, every container of the chain has a root, and the hashers give
it without a fault. -/
theorem streamedRoot_eq_of_mem_all
    {schema : Schema} (hschema : schema ∈ all) {v : Value}
    (hshape : v.HasShape (.container schema)) (hroom : v.hasRoom) :
    v.treeRoot? = some v.treeRoot ∧ v.streamedRoot = .ok v.treeRoot := by
  have hpacks : (Shape.container schema).packs := packs_of_mem_all schema hschema
  constructor
  · rw [Value.treeRoot?, if_pos (Value.hasRoot_of_hasRoom hshape hpacks hroom)]
  · exact hshape.streamedRoot_eq hpacks hroom

end Schemas

end GenesisForge
