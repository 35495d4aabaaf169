import GenesisForge.Merkle.Hasher
import GenesisForge.Proofs.TreeBinding

/-!
# A stream of bytes hashes to the root of a complete tree

The node of a complete tree is given by its height and its index, or by its
height and its number.  The nodes that wait for a right child before a leaf is
taken are the left neighbours on the way up from that leaf, and taking the leaf
moves them on by one.  Filling up with zero nodes does the same on the layers
above, as long as all nodes to the right are zero nodes.
-/

namespace GenesisForge
namespace Merkle

section

variable {α : Type} {combine : α → α → α}

/-! ## Complete trees -/

/-- The node at an index of the layer `height` layers above the leaves. -/
def nodeAt (combine : α → α → α) (leaf : Nat → α) : Nat → Nat → α
  | 0, index => leaf index
  | height + 1, index =>
      combine (nodeAt combine leaf height (2 * index))
        (nodeAt combine leaf height (2 * index + 1))

theorem nodeAt_pairs (leaf : Nat → α) (height index : Nat) :
    nodeAt combine (fun i => combine (leaf (2 * i)) (leaf (2 * i + 1))) height index =
      nodeAt combine leaf (height + 1) index := by
  induction height generalizing index with
  | zero => rfl
  | succ height ih =>
      rw [nodeAt, ih, ih]
      rfl

/-- Folding layers in pairs gives the root of the complete tree whose leaves are
those of the layer and zero leaves behind them. -/
theorem rootAbove_eq_nodeAt (depth : Nat) (zero : α) (layer : List α) :
    rootAbove combine depth zero layer =
      nodeAt combine (fun i => layer.getD i zero) depth 0 := by
  induction depth generalizing zero layer with
  | zero => rw [rootAbove, nodeAt, List.headD_eq_getD]
  | succ depth ih =>
      have hlayer : (fun i => (pairUp combine zero layer).getD i (combine zero zero)) =
          fun i => combine (layer.getD (2 * i) zero) (layer.getD (2 * i + 1) zero) :=
        funext (getD_pairUp zero layer)
      rw [rootAbove, ih, hlayer, nodeAt_pairs fun i => layer.getD i zero]

/-- The nodes are the same whether they are told by index or by number. -/
theorem nodeAt_numbered
    (combine : α → α → α) (leaf : Nat → α) {depth height id : Nat} (hheight : height ≤ depth)
    (hid : 2 ^ (depth - height) ≤ id) :
    nodeAt combine (fun i => leaf (i - 2 ^ depth)) height id =
      nodeAt combine leaf height (id - 2 ^ (depth - height)) := by
  induction height generalizing id with
  | zero => rfl
  | succ height ih =>
      have hwidth : 2 ^ (depth - height) = 2 * 2 ^ (depth - (height + 1)) := by
        rw [← Nat.pow_succ']
        congr 1
        omega
      rw [nodeAt, nodeAt, ih (by omega) (by omega), ih (by omega) (by omega)]
      congr 2 <;> omega

theorem nodeAt_parent_of_odd
    (combine : α → α → α) (leaf : Nat → α) (height : Nat) {id : Nat} (hodd : id % 2 = 1) :
    combine (nodeAt combine leaf height (id - 1)) (nodeAt combine leaf height id) =
      nodeAt combine leaf (height + 1) (id / 2) := by
  have hleft : 2 * (id / 2) = id - 1 := by omega
  have hright : 2 * (id / 2) + 1 = id := by omega
  rw [nodeAt, hleft, ← hleft, hright]

theorem nodeAt_eq_zeroNode
    {leaf : Nat → α} {zero : α} {height index : Nat}
    (hleft : nodeAt combine leaf height (2 * index) = zeroNode combine zero height)
    (hright : nodeAt combine leaf height (2 * index + 1) = zeroNode combine zero height) :
    nodeAt combine leaf (height + 1) index = zeroNode combine zero (height + 1) := by
  rw [nodeAt, hleft, hright, zeroNode]

/-! ## Nodes that wait -/

/-- The nodes that wait for a right child while the node `id` comes next in its
layer, where the root is `levels` layers above. -/
def halvesBefore (combine : α → α → α) (leaf : Nat → α) : Nat → Nat → Nat → List (HalfNode α)
  | 0, _, _ => []
  | levels + 1, height, id =>
      if id % 2 = 0 then halvesBefore combine leaf levels (height + 1) (id / 2)
      else ⟨id / 2, nodeAt combine leaf height (id - 1)⟩ ::
        halvesBefore combine leaf levels (height + 1) (id / 2)

/-- What is kept while the node `id` comes next in its layer: the root once the
layer has ended. -/
def frontierBefore (combine : α → α → α) (leaf : Nat → α) (levels height id : Nat) :
    Frontier α :=
  if id = 2 ^ (levels + 1) then .complete (nodeAt combine leaf (levels + height) 1)
  else .waiting (halvesBefore combine leaf levels height id)

variable {leaf : Nat → α} {levels height id : Nat}

theorem halvesBefore_even (heven : id % 2 = 0) :
    halvesBefore combine leaf (levels + 1) height id =
      halvesBefore combine leaf levels (height + 1) (id / 2) := by
  rw [halvesBefore, if_pos heven]

theorem halvesBefore_odd (hodd : id % 2 = 1) :
    halvesBefore combine leaf (levels + 1) height id =
      ⟨id / 2, nodeAt combine leaf height (id - 1)⟩ ::
        halvesBefore combine leaf levels (height + 1) (id / 2) := by
  rw [halvesBefore, if_neg (by omega)]

theorem frontierBefore_even (heven : id % 2 = 0) :
    frontierBefore combine leaf (levels + 1) height id =
      frontierBefore combine leaf levels (height + 1) (id / 2) := by
  unfold frontierBefore
  have hend : id = 2 ^ (levels + 1 + 1) ↔ id / 2 = 2 ^ (levels + 1) := by
    rw [Nat.pow_succ]
    omega
  have hroot : levels + 1 + height = levels + (height + 1) := by omega
  rw [halvesBefore_even heven, hroot]
  simp only [hend]

theorem frontierBefore_odd (hodd : id % 2 = 1) :
    frontierBefore combine leaf levels height id =
      .waiting (halvesBefore combine leaf levels height id) := by
  refine if_neg fun hend => ?_
  rw [Nat.pow_succ] at hend
  omega

theorem halvesBefore_two_pow (levels height : Nat) :
    halvesBefore combine leaf levels height (2 ^ levels) = [] := by
  induction levels generalizing height with
  | zero => rfl
  | succ levels ih =>
      have hhalf : 2 ^ (levels + 1) / 2 = 2 ^ levels := by
        rw [Nat.pow_succ]
        omega
      rw [halvesBefore_even (by rw [Nat.pow_succ]; omega), hhalf, ih]

theorem id_le_of_mem_halvesBefore
    {half : HalfNode α} (hmem : half ∈ halvesBefore combine leaf levels height id) :
    half.id ≤ id / 2 := by
  induction levels generalizing height id with
  | zero => cases hmem
  | succ levels ih =>
      rcases Nat.mod_two_eq_zero_or_one id with heven | hodd
      · rw [halvesBefore_even heven] at hmem
        exact Nat.le_trans (ih hmem) (by omega)
      · rw [halvesBefore_odd hodd] at hmem
        rcases List.mem_cons.mp hmem with rfl | hmem
        · exact Nat.le_refl _
        · exact Nat.le_trans (ih hmem) (by omega)

theorem handUp_of_lt
    {parent : Nat} {child : α} {halves : List (HalfNode α)}
    (hlt : ∀ half ∈ halves, half.id < parent) :
    handUp combine parent child halves = .waiting (⟨parent, child⟩ :: halves) := by
  cases halves with
  | nil => rfl
  | cons half rest =>
      have hhead := hlt half List.mem_cons_self
      rw [handUp, if_neg (by omega)]

/-- A left child waits with its parent. -/
theorem handUp_even
    (heven : id % 2 = 0) (hpos : 0 < id) (child : α) :
    handUp combine (id / 2) child (halvesBefore combine leaf (levels + 1) height id) =
      .waiting (⟨id / 2, child⟩ :: halvesBefore combine leaf (levels + 1) height id) := by
  refine handUp_of_lt fun half hmem => ?_
  rw [halvesBefore_even heven] at hmem
  have hle := id_le_of_mem_halvesBefore hmem
  omega

theorem handUp_odd
    (hodd : id % 2 = 1) (hroot : ¬ id / 2 ≤ 1) :
    handUp combine (id / 2) (nodeAt combine leaf height id)
        (halvesBefore combine leaf (levels + 1) height id) =
      handUp combine (id / 2 / 2) (nodeAt combine leaf (height + 1) (id / 2))
        (halvesBefore combine leaf levels (height + 1) (id / 2)) := by
  rw [halvesBefore_odd hodd, handUp, if_pos rfl, if_neg hroot,
    nodeAt_parent_of_odd combine leaf height hodd]

/-- Handing up the node that comes next makes the one behind it come next. -/
theorem handUp_halvesBefore
    (hlow : 2 ^ (levels + 1) ≤ id) (hhigh : id < 2 ^ (levels + 2)) :
    handUp combine (id / 2) (nodeAt combine leaf height id)
        (halvesBefore combine leaf (levels + 1) height id) =
      frontierBefore combine leaf (levels + 1) height (id + 1) := by
  induction levels generalizing height id with
  | zero =>
      -- Either child of the root comes next.
      obtain rfl | rfl : id = 2 ∨ id = 3 := by omega
      · rw [handUp_even rfl (by decide)]
        rfl
      · rw [halvesBefore_odd rfl, handUp, if_pos rfl, if_pos (by decide),
          nodeAt_parent_of_odd combine leaf height (show 3 % 2 = 1 from rfl), frontierBefore,
          if_pos (by decide), Nat.add_comm (0 + 1)]
  | succ levels ih =>
      rw [Nat.pow_succ] at hlow hhigh
      have hpos : 0 < 2 ^ (levels + 1) := Nat.two_pow_pos _
      rcases Nat.mod_two_eq_zero_or_one id with heven | hodd
      · have hnext : (id + 1) / 2 = id / 2 := by omega
        rw [handUp_even heven (by omega), frontierBefore_odd (by omega),
          halvesBefore_odd (show (id + 1) % 2 = 1 by omega), hnext, halvesBefore_even heven,
          Nat.add_sub_cancel]
      · have hnext : (id + 1) / 2 = id / 2 + 1 := by omega
        rw [handUp_odd hodd (by omega), ih (by omega) (by omega),
          frontierBefore_even (show (id + 1) % 2 = 0 by omega), hnext]

/-- A leaf is handed up like any other node. -/
theorem place_frontierBefore
    (combine : α → α → α) (leaf : Nat → α) {depth : Nat} (hlow : 2 ^ depth ≤ id)
    (hhigh : id < 2 ^ (depth + 1)) :
    (frontierBefore combine leaf depth 0 id).place combine id (leaf id) =
      frontierBefore combine leaf depth 0 (id + 1) := by
  rw [frontierBefore, if_neg (by omega), Frontier.place]
  cases depth with
  | zero =>
      obtain rfl : id = 1 := by omega
      rfl
  | succ depth =>
      have hpos : 0 < 2 ^ depth := Nat.two_pow_pos _
      rw [if_neg (by rw [Nat.pow_succ] at hlow; omega), ← handUp_halvesBefore hlow hhigh]
      rcases Nat.mod_two_eq_zero_or_one id with heven | hodd
      · rw [if_pos heven, handUp_even heven (by omega), nodeAt]
      · rw [if_neg (by omega), nodeAt]

end

/-! ## Filling up -/

section

variable {leaf : Nat → Root} {depth levels height id : Nat}

theorem zeroFor_eq_ok
    (hlow : 2 ^ levels ≤ id) (hhigh : id < 2 ^ (levels + 1))
    (hdepth : depth = levels + height) (hheight : height ≤ maxZeroHeight) :
    zeroFor depth id = .ok (zeroNode sha256Pair (FixedBytes.zero 32) height) := by
  have hpos := Nat.two_pow_pos levels
  have hlog : id.log2 = levels := (Nat.log2_eq_iff (by omega)).mpr ⟨hlow, hhigh⟩
  have hsub : depth - id.log2 = height := by omega
  rw [zeroFor, hsub, if_pos hheight]

theorem fillUp_frontierBefore
    (hdepth : depth = levels + height) (hmax : depth ≤ maxDepth)
    (hlow : 2 ^ levels < id) (hhigh : id ≤ 2 ^ (levels + 1))
    (hzero : ∀ i, id ≤ i → i < 2 ^ (levels + 1) →
      nodeAt sha256Pair leaf height i = zeroNode sha256Pair (FixedBytes.zero 32) height)
    (nextLeaf : Nat) :
    fillUp depth nextLeaf (frontierBefore sha256Pair leaf levels height id) =
      .ok (nodeAt sha256Pair leaf depth 1) := by
  induction levels generalizing height id with
  | zero =>
      have hend : id = 2 ^ (0 + 1) := by omega
      rw [frontierBefore, if_pos hend, fillUp, ← hdepth]
  | succ levels ih =>
      rw [Nat.pow_succ] at hlow hhigh
      have heven (next : Nat) (hnext : next % 2 = 0) (hid : id ≤ next)
          (hnextHigh : next ≤ 2 ^ (levels + 1) * 2) :
          fillUp depth nextLeaf (frontierBefore sha256Pair leaf (levels + 1) height next) =
            .ok (nodeAt sha256Pair leaf depth 1) := by
        rw [frontierBefore_even hnext]
        refine ih (by omega) (by omega) (by omega) ?_
        intro i hi hiHigh
        rw [Nat.pow_succ] at hzero
        exact nodeAt_eq_zeroNode (hzero _ (by omega) (by omega)) (hzero _ (by omega) (by omega))
      rcases Nat.mod_two_eq_zero_or_one id with hparity | hparity
      · exact heven id hparity (Nat.le_refl id) hhigh
      · -- The node that comes next is a right child, and a zero node.
        have hright : 2 * (id / 2) + 1 = id := by omega
        have hidHigh : id < 2 ^ (levels + 2) := by
          rw [Nat.pow_succ, Nat.pow_succ]
          rw [Nat.pow_succ] at hhigh
          omega
        have hheight : height ≤ maxZeroHeight := by
          unfold maxZeroHeight
          unfold maxDepth at hmax
          omega
        have hzeroNode : zeroFor depth id =
            .ok (zeroNode sha256Pair (FixedBytes.zero 32) height) :=
          zeroFor_eq_ok hlow.le hidHigh hdepth hheight
        have hself := hzero id (Nat.le_refl id) hidHigh
        have hhand : handUp sha256Pair (id / 2) (nodeAt sha256Pair leaf height id)
            (halvesBefore sha256Pair leaf (levels + 1) height id) =
            frontierBefore sha256Pair leaf (levels + 1) height (id + 1) :=
          handUp_halvesBefore hlow.le hidHigh
        rw [halvesBefore_odd hparity] at hhand
        rw [frontierBefore_odd hparity, halvesBefore_odd hparity, fillUp, hright, hzeroNode,
          Except.bind, ← hself, hhand]
        exact heven (id + 1) (by omega) (by omega) (by omega)

/-- Behind the leaves that were taken every leaf is a zero leaf. -/
theorem fillUp_leaves
    (hmax : depth ≤ maxDepth) (hlow : 2 ^ depth ≤ id) (hhigh : id ≤ 2 ^ (depth + 1))
    (hzero : ∀ i, id ≤ i → i < 2 ^ (depth + 1) → leaf i = FixedBytes.zero 32) :
    fillUp depth id (frontierBefore sha256Pair leaf depth 0 id) =
      .ok (nodeAt sha256Pair leaf depth 1) := by
  have hlater (next : Nat) (hid : id ≤ next) (hnextLow : 2 ^ depth < next)
      (hnextHigh : next ≤ 2 ^ (depth + 1)) :
      fillUp depth id (frontierBefore sha256Pair leaf depth 0 next) =
        .ok (nodeAt sha256Pair leaf depth 1) :=
    fillUp_frontierBefore (Nat.add_zero depth).symm hmax hnextLow hnextHigh
      (fun i hi hiHigh => hzero i (Nat.le_trans hid hi) hiHigh) id
  rcases Nat.eq_or_lt_of_le hlow with hfirst | hmore
  · -- Without any leaf there is nothing that waits, and a zero leaf is put in place.
    have hpos := Nat.two_pow_pos depth
    have hroom : id < 2 ^ (depth + 1) := by
      rw [Nat.pow_succ]
      omega
    have hfront : frontierBefore sha256Pair leaf depth 0 id = .waiting [] := by
      rw [frontierBefore, if_neg hroom.ne, ← hfirst, halvesBefore_two_pow]
    have hleaf := hzero id (Nat.le_refl id) hroom
    have hplaced : (frontierBefore sha256Pair leaf depth 0 id).place sha256Pair id (leaf id) =
        frontierBefore sha256Pair leaf depth 0 (id + 1) :=
      place_frontierBefore sha256Pair leaf hlow hroom
    rw [hfront, Frontier.place] at hplaced
    rw [hfront, fillUp]
    cases depth with
    | zero =>
        obtain rfl : id = 1 := hfirst.symm
        rw [if_pos rfl, nodeAt, hleaf]
    | succ depth =>
        rw [Nat.pow_succ] at hfirst
        rw [if_neg (by omega), if_pos (by omega)] at hplaced
        have hzeroNode : zeroFor (depth + 1) id =
            .ok (zeroNode sha256Pair (FixedBytes.zero 32) 0) :=
          zeroFor_eq_ok hlow hroom rfl (Nat.zero_le _)
        rw [if_neg (by omega), hzeroNode, Except.bind, zeroNode, ← hleaf, hplaced]
        exact hlater (id + 1) (Nat.le_succ id) (by omega) hroom
  · exact hlater id (Nat.le_refl id) hmore hhigh

end

/-! ## Chunks as leaves -/

theorem chunkAt_eq_zero
    {bytes : ByteArray} {start : Nat} (hend : bytes.size ≤ start) :
    chunkAt bytes start = FixedBytes.zero 32 := by
  have hnone : bytes.extract start (start + 32) = ByteArray.empty := by
    rw [ByteArray.extract_eq_empty_iff]
    omega
  ext1
  rw [bytes_chunkAt, hnone, ByteArray.empty_append]
  rfl

theorem chunkAt_of_full
    {bytes : ByteArray} {start : Nat} (hfull : start + 32 ≤ bytes.size) :
    (chunkAt bytes start).bytes = bytes.extract start (start + 32) := by
  have hsize : (bytes.extract start (start + 32)).size = 32 := by
    rw [ByteArray.size_extract]
    omega
  rw [bytes_chunkAt, hsize, Nat.sub_self]
  exact ByteArray.append_empty

theorem chunkAt_extract_end
    {bytes : ByteArray} {start : Nat} (hlast : bytes.size ≤ start + 32) :
    chunkAt (bytes.extract start bytes.size) 0 = chunkAt bytes start := by
  have hpart : (bytes.extract start bytes.size).extract 0 (0 + 32) =
      bytes.extract start (start + 32) := by
    have hend : min (start + (0 + 32)) bytes.size = bytes.size := by omega
    rw [ByteArray.extract_extract, hend, Nat.add_zero, Bytes.extract_of_size_le hlast]
  ext1
  rw [bytes_chunkAt, bytes_chunkAt, hpart]

theorem getD_chunks (bytes : ByteArray) (i : Nat) :
    (chunks bytes).getD i (FixedBytes.zero 32) = chunkAt bytes (32 * i) := by
  by_cases hi : i < (bytes.size + 31) / 32
  · simp [chunks, List.getD_eq_getElem?_getD, hi]
  · rw [List.getD_eq_default _ _ (by rw [length_chunks]; omega), chunkAt_eq_zero (by omega)]

/-! ## Hashers -/

/-- The chunks of a byte string as the leaves of a tree, by number. -/
def numberedChunk (bytes : ByteArray) (depth id : Nat) : Root :=
  chunkAt bytes (32 * (id - 2 ^ depth))

/-- The root of a tree over the chunks of a byte string. -/
theorem nodeAt_numberedChunk (bytes : ByteArray) (depth : Nat) :
    nodeAt sha256Pair (numberedChunk bytes depth) depth 1 =
      rootAbove sha256Pair depth (FixedBytes.zero 32) (chunks bytes) := by
  have hleaf : (fun i => (chunks bytes).getD i (FixedBytes.zero 32)) =
      fun i => chunkAt bytes (32 * i) := funext (getD_chunks bytes)
  have hroot : 2 ^ (depth - depth) ≤ 1 := by rw [Nat.sub_self, Nat.pow_zero]
  have hnode := nodeAt_numbered sha256Pair (fun i => chunkAt bytes (32 * i))
    (Nat.le_refl depth) hroot
  rw [Nat.sub_self, Nat.pow_zero, Nat.sub_self] at hnode
  rw [rootAbove_eq_nodeAt, hleaf]
  exact hnode

namespace Hasher

/-- The hasher was written the first bytes, `taken` of them, of the bytes of a tree. -/
structure HasTaken (h : Hasher) (depth : Nat) (bytes : ByteArray) (taken : Nat) : Prop where
  depth_eq : h.depth = depth
  nextLeaf_eq : h.nextLeaf = 2 ^ depth + taken / 32
  frontier_eq : h.frontier =
    frontierBefore sha256Pair (numberedChunk bytes depth) depth 0 (2 ^ depth + taken / 32)
  buffer_eq : h.buffer = bytes.extract (32 * (taken / 32)) taken

variable {h : Hasher} {depth taken : Nat} {bytes : ByteArray}

theorem hasTaken_withLeaves (capacity : Nat) (bytes : ByteArray) :
    (withLeaves capacity).HasTaken (depthFor capacity) bytes 0 where
  depth_eq := rfl
  nextLeaf_eq := rfl
  frontier_eq := by
    have hpos := Nat.two_pow_pos (depthFor capacity)
    rw [frontierBefore, if_neg (by rw [Nat.pow_succ]; omega), Nat.zero_div, Nat.add_zero,
      halvesBefore_two_pow]
    rfl
  buffer_eq := (ByteArray.extract_eq_empty_iff.mpr (by omega)).symm

theorem HasTaken.takeLeaf
    (htaken : h.HasTaken depth bytes taken) (hroom : taken / 32 < 2 ^ depth) :
    ∃ next, h.takeLeaf (chunkAt bytes (32 * (taken / 32))) = .ok next ∧
      next.HasTaken depth bytes (32 * (taken / 32 + 1)) := by
  obtain ⟨hdepth, hnext, hfrontier, -⟩ := htaken
  have hcount : 32 * (taken / 32 + 1) / 32 = taken / 32 + 1 := by omega
  have hleaf : numberedChunk bytes depth (2 ^ depth + taken / 32) =
      chunkAt bytes (32 * (taken / 32)) := by
    rw [numberedChunk, Nat.add_sub_cancel_left]
  have hplaced := place_frontierBefore sha256Pair (numberedChunk bytes depth)
    (Nat.le_add_right (2 ^ depth) (taken / 32)) (by rw [Nat.pow_succ]; omega)
  rw [Hasher.takeLeaf, if_pos (by rw [hnext, hdepth, Nat.pow_succ]; omega)]
  refine ⟨_, rfl, hdepth, ?_, ?_, ?_⟩
  · rw [hcount, hnext, Nat.add_assoc]
  · rw [hcount, hfrontier, hnext, ← hleaf, hplaced, Nat.add_assoc]
  · exact (ByteArray.extract_eq_empty_iff.mpr (by omega)).symm

theorem HasTaken.size_buffer
    (htaken : h.HasTaken depth bytes taken) (hsize : taken ≤ bytes.size) :
    h.buffer.size = taken % 32 := by
  rw [htaken.buffer_eq, ByteArray.size_extract]
  omega

theorem write_of_full
    {piece : ByteArray} {leaf : Root} (hfull : 32 ≤ h.buffer.size + piece.size)
    (hleaf : leaf.bytes = h.buffer ++ piece.extract 0 (32 - h.buffer.size)) :
    h.write piece =
      (h.takeLeaf leaf).bind (·.write (piece.extract (32 - h.buffer.size) piece.size)) := by
  obtain ⟨leafBytes, hsize⟩ := leaf
  obtain rfl : leafBytes = h.buffer ++ piece.extract 0 (32 - h.buffer.size) := hleaf
  rw [Hasher.write, dif_neg (by omega)]

theorem size_extract_add {start count : Nat} (hsize : start + count ≤ bytes.size) :
    (bytes.extract start (start + count)).size = count := by
  rw [ByteArray.size_extract]
  omega

/-- A piece that does not complete the leaf waits in the buffer. -/
theorem HasTaken.write_of_short
    {count : Nat} (htaken : h.HasTaken depth bytes taken) (hsize : taken + count ≤ bytes.size)
    (hshort : h.buffer.size + count < 32) :
    ∃ next, h.write (bytes.extract taken (taken + count)) = .ok next ∧
      next.HasTaken depth bytes (taken + count) := by
  have hbuffer := htaken.size_buffer (by omega)
  have hsame : (taken + count) / 32 = taken / 32 := by omega
  rw [Hasher.write, dif_pos (by rw [size_extract_add hsize]; exact hshort)]
  refine ⟨_, rfl, htaken.depth_eq, ?_, ?_, ?_⟩
  · rw [hsame]
    exact htaken.nextLeaf_eq
  · rw [hsame]
    exact htaken.frontier_eq
  · change h.buffer ++ bytes.extract taken (taken + count) = _
    rw [hsame, htaken.buffer_eq, ← ByteArray.extract_eq_extract_append_extract taken
      (by omega) (by omega)]

/-- The buffer and the first bytes of a piece that completes the leaf are the leaf. -/
theorem HasTaken.bytes_chunkAt_of_full
    {count : Nat} (htaken : h.HasTaken depth bytes taken) (hsize : taken + count ≤ bytes.size)
    (hfull : 32 ≤ h.buffer.size + count) :
    (chunkAt bytes (32 * (taken / 32))).bytes =
      h.buffer ++ (bytes.extract taken (taken + count)).extract 0 (32 - h.buffer.size) := by
  have hbuffer := htaken.size_buffer (by omega)
  have hmin : min (taken + (32 - h.buffer.size)) (taken + count) =
      taken + (32 - h.buffer.size) := by omega
  have hchunk : 32 * (taken / 32) + 32 = taken + (32 - h.buffer.size) := by omega
  rw [chunkAt_of_full (by omega), ByteArray.extract_extract, hmin, hchunk, Nat.add_zero,
    ByteArray.extract_eq_extract_append_extract taken (by omega) (by omega), ← htaken.buffer_eq]

/-- The piece of the bytes that comes next is written without a fault. -/
theorem HasTaken.write
    {count : Nat} (htaken : h.HasTaken depth bytes taken) (hsize : taken + count ≤ bytes.size)
    (hroom : bytes.size ≤ 32 * 2 ^ depth) :
    ∃ next, h.write (bytes.extract taken (taken + count)) = .ok next ∧
      next.HasTaken depth bytes (taken + count) := by
  induction count using Nat.strongRecOn generalizing h taken with
  | ind count ih =>
      by_cases hshort : h.buffer.size + count < 32
      · exact htaken.write_of_short hsize hshort
      · -- The leaf is taken, and the rest of the piece comes next.
        have hbuffer := htaken.size_buffer (by omega)
        have hpiece := size_extract_add hsize
        have hend : 32 * (taken / 32 + 1) = taken + (32 - h.buffer.size) := by omega
        have hwhole : taken + count =
            32 * (taken / 32 + 1) + (count - (32 - h.buffer.size)) := by omega
        have hrest : (bytes.extract taken (taken + count)).extract (32 - h.buffer.size) count =
            bytes.extract (32 * (taken / 32 + 1))
              (32 * (taken / 32 + 1) + (count - (32 - h.buffer.size))) := by
          rw [ByteArray.extract_extract, Nat.min_self, ← hwhole, hend]
        have hleaf := htaken.bytes_chunkAt_of_full hsize (Nat.le_of_not_lt hshort)
        obtain ⟨next, hnext, hnextTaken⟩ := htaken.takeLeaf (by omega)
        rw [write_of_full (by rw [hpiece]; omega) hleaf, hnext, Except.bind, hpiece, hrest, hwhole]
        exact ih _ (by omega) hnextTaken (by omega)

theorem HasTaken.writeAll
    (front : ByteArray) {pieces : List ByteArray} (htaken : h.HasTaken depth bytes front.size)
    (hbytes : bytes = front ++ Bytes.concat pieces) (hroom : bytes.size ≤ 32 * 2 ^ depth) :
    ∃ last, h.writeAll pieces = .ok last ∧ last.HasTaken depth bytes bytes.size := by
  unfold Hasher.writeAll
  induction pieces generalizing h front with
  | nil =>
      have hfront : front = bytes := by
        rw [hbytes]
        exact ByteArray.append_empty.symm
      rw [hfront] at htaken
      exact ⟨h, rfl, htaken⟩
  | cons piece rest ih =>
      rw [Bytes.concat_cons, ← ByteArray.append_assoc] at hbytes
      have hpiece : bytes.extract front.size (front.size + piece.size) = piece := by
        rw [hbytes, Bytes.extract_middle]
      have hsize : front.size + piece.size ≤ bytes.size := by
        rw [hbytes, ByteArray.size_append, ByteArray.size_append]
        omega
      obtain ⟨next, hnext, hnextTaken⟩ := htaken.write hsize hroom
      rw [hpiece] at hnext
      rw [← ByteArray.size_append] at hnextTaken
      rw [List.foldlM_cons, hnext]
      exact ih _ hnextTaken hbytes

/-- A hasher that was written all bytes of a tree gives the root of the tree. -/
theorem HasTaken.finish
    (htaken : h.HasTaken depth bytes bytes.size) (hmax : depth ≤ maxDepth)
    (hroom : bytes.size ≤ 32 * 2 ^ depth) :
    h.finish = .ok (nodeAt sha256Pair (numberedChunk bytes depth) depth 1) := by
  have hbuffer := htaken.size_buffer (Nat.le_refl _)
  have hzero (id : Nat) (hid : 2 ^ depth + (bytes.size + 31) / 32 ≤ id) :
      numberedChunk bytes depth id = FixedBytes.zero 32 := chunkAt_eq_zero (by omega)
  unfold Hasher.finish
  by_cases hwhole : h.buffer.size = 0
  · obtain ⟨hdepth, hnext, hfrontier, -⟩ := htaken
    rw [if_pos hwhole, hdepth, hnext, hfrontier]
    refine fillUp_leaves hmax (Nat.le_add_right _ _) (by rw [Nat.pow_succ]; omega) ?_
    exact fun id hid _ => hzero id (by omega)
  · have hlast : chunkAt h.buffer 0 = chunkAt bytes (32 * (bytes.size / 32)) := by
      rw [htaken.buffer_eq, chunkAt_extract_end (by omega)]
    obtain ⟨last, hlastTaken, hdepth, hnext, hfrontier, -⟩ := htaken.takeLeaf (by omega)
    have hcount : 32 * (bytes.size / 32 + 1) / 32 = (bytes.size + 31) / 32 := by omega
    rw [hcount] at hnext hfrontier
    rw [if_neg hwhole, hlast, hlastTaken, Except.bind, hdepth, hnext, hfrontier]
    refine fillUp_leaves hmax (Nat.le_add_right _ _) (by rw [Nat.pow_succ]; omega) ?_
    exact fun id hid _ => hzero id hid

end Hasher

/-- Pieces that have room in a tree are hashed without a fault, and give the root of
the tree over their chunks. -/
theorem streamRoot_eq
    {capacity : Nat} (pieces : List ByteArray) (hmax : depthFor capacity ≤ maxDepth)
    (hroom : (Bytes.concat pieces).size ≤ 32 * 2 ^ depthFor capacity) :
    streamRoot capacity pieces = .ok (root capacity (chunks (Bytes.concat pieces))) := by
  have hstart := Hasher.hasTaken_withLeaves capacity (Bytes.concat pieces)
  obtain ⟨last, hlast, htaken⟩ :=
    Hasher.HasTaken.writeAll ByteArray.empty hstart ByteArray.empty_append.symm hroom
  rw [streamRoot, hlast, Except.bind, htaken.finish hmax hroom, nodeAt_numberedChunk, root]

end Merkle
end GenesisForge
