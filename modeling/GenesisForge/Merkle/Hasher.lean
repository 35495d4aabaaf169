import GenesisForge.Merkle

/-!
# Hashing a tree from a stream of bytes

A hasher is written the bytes of the leaves in pieces of any length and keeps
no more of the tree than the nodes that wait for a right child. What is missing
at the end is filled up with zero nodes, which are known for every height that
a tree may have.

Nodes are numbered from the root, which is 1: the children of the node `id` are
the nodes `2 * id` and `2 * id + 1`.
-/

namespace GenesisForge.Merkle

section

variable {α : Type}

/-- A node whose left child is there and whose right child is not. -/
structure HalfNode (α : Type) where
  id : Nat
  left : α

/-- What is kept of a tree: the nodes that wait for a right child, the lowest
one first, or the root. -/
inductive Frontier (α : Type) where
  | waiting (halves : List (HalfNode α))
  | complete (root : α)

/-- Hands a node to its parent. A parent that has waited for it is complete and
handed on to its own parent. -/
def handUp (combine : α → α → α) (parent : Nat) (child : α) : List (HalfNode α) → Frontier α
  | [] => .waiting [⟨parent, child⟩]
  | half :: rest =>
    if half.id = parent then
      if parent ≤ 1 then .complete (combine half.left child)
      else handUp combine (parent / 2) (combine half.left child) rest
    else .waiting (⟨parent, child⟩ :: half :: rest)

/-- Takes the leaf of the number `id`. -/
def Frontier.place (combine : α → α → α) (id : Nat) (leaf : α) : Frontier α → Frontier α
  | complete root => complete root
  | waiting halves =>
    if id = 1 then complete leaf
    else if id % 2 = 0 then waiting (⟨id / 2, leaf⟩ :: halves)
    else handUp combine (id / 2) leaf halves

/-- The root of a tree of zero leaves. -/
def zeroNode (combine : α → α → α) (zero : α) : Nat → α
  | 0 => zero
  | height + 1 => combine (zeroNode combine zero height) (zeroNode combine zero height)

/-- What is left to be filled up, where `nextLeaf` is the leaf that comes next. -/
def Frontier.remaining (nextLeaf : Nat) : Frontier α → Nat
  | complete _ => 0
  | waiting [] => nextLeaf + 2
  | waiting (half :: _) => half.id + 1

theorem remaining_handUp_le (combine : α → α → α) (nextLeaf parent : Nat) (child : α)
    (halves : List (HalfNode α)) :
    (handUp combine parent child halves).remaining nextLeaf ≤ parent + 1 := by
  induction halves generalizing parent child with
  | nil => simp [handUp, Frontier.remaining]
  | cons half rest ih =>
    unfold handUp
    split
    · split
      · simp [Frontier.remaining]
      · exact Nat.le_trans (ih _ _) (by omega)
    · simp [Frontier.remaining]

theorem remaining_handUp_lt (combine : α → α → α) (nextLeaf : Nat) (child : α)
    (half : HalfNode α) (rest : List (HalfNode α)) :
    (handUp combine half.id child (half :: rest)).remaining nextLeaf < half.id + 1 := by
  rw [handUp, if_pos rfl]
  split
  · exact Nat.succ_pos _
  · exact Nat.lt_of_le_of_lt (remaining_handUp_le _ _ _ _ _) (by omega)

end

/-- Why a hasher does not give a root. -/
inductive HasherFault where
  /-- The tree has no room for another leaf. -/
  | tooManyLeaves
  /-- No zero node of this height is known. -/
  | noZeroNode (height : Nat)
deriving DecidableEq, Repr

/-- The greatest height of a zero node that is known. -/
def maxZeroHeight : Nat := 48

/-- The zero node that stands in for the node `id` of a tree. -/
def zeroFor (depth id : Nat) : Except HasherFault Root :=
  let height := depth - id.log2
  if height ≤ maxZeroHeight then .ok (zeroNode sha256Pair (FixedBytes.zero 32) height)
  else .error (.noZeroNode height)

/-- Fills the tree up with zero nodes to its root. -/
def fillUp (depth nextLeaf : Nat) : Frontier Root → Except HasherFault Root
  | .complete root => .ok root
  | .waiting (half :: rest) =>
    (zeroFor depth (2 * half.id + 1)).bind fun zero =>
      fillUp depth nextLeaf (handUp sha256Pair half.id zero (half :: rest))
  | .waiting [] =>
    if nextLeaf = 1 then .ok (FixedBytes.zero 32)
    else (zeroFor depth nextLeaf).bind fun zero =>
      fillUp depth nextLeaf (.waiting [⟨nextLeaf / 2, zero⟩])
termination_by frontier => frontier.remaining nextLeaf
decreasing_by
  · exact remaining_handUp_lt _ _ _ _ _
  · simp only [Frontier.remaining]
    omega

/-- A tree that is being hashed. -/
structure Hasher where
  /-- How far the leaves are below the root. -/
  depth : Nat
  frontier : Frontier Root
  /-- The number of the leaf that comes next. -/
  nextLeaf : Nat
  /-- The bytes of the next leaf so far. -/
  buffer : ByteArray
  buffer_lt : buffer.size < 32

namespace Hasher

/-- The hasher of a tree with room for `capacity` leaves. -/
def withLeaves (capacity : Nat) : Hasher where
  depth := depthFor capacity
  frontier := .waiting []
  nextLeaf := 2 ^ depthFor capacity
  buffer := ByteArray.empty
  buffer_lt := by decide

/-- Takes the leaf that comes next. -/
def takeLeaf (h : Hasher) (leaf : Root) : Except HasherFault Hasher :=
  if h.nextLeaf < 2 ^ (h.depth + 1) then
    .ok { h with
      frontier := h.frontier.place sha256Pair h.nextLeaf leaf
      nextLeaf := h.nextLeaf + 1
      buffer := ByteArray.empty
      buffer_lt := by decide }
  else .error .tooManyLeaves

/-- Writes a piece. A leaf is taken as soon as all of its bytes are there. -/
def write (h : Hasher) (piece : ByteArray) : Except HasherFault Hasher :=
  if hshort : h.buffer.size + piece.size < 32 then
    .ok { h with
      buffer := h.buffer ++ piece
      buffer_lt := by rw [ByteArray.size_append]; exact hshort }
  else
    let required := 32 - h.buffer.size
    let leaf : Root := ⟨h.buffer ++ piece.extract 0 required, by
      have hbuffer := h.buffer_lt
      rw [ByteArray.size_append, ByteArray.size_extract]
      omega⟩
    (h.takeLeaf leaf).bind fun next => next.write (piece.extract required piece.size)
termination_by piece.size
decreasing_by
  have hbuffer := h.buffer_lt
  rw [ByteArray.size_extract]
  omega

def writeAll (h : Hasher) (pieces : List ByteArray) : Except HasherFault Hasher :=
  pieces.foldlM write h

/-- The root of the tree. Bytes that do not make a leaf are filled up first. -/
def finish (h : Hasher) : Except HasherFault Root :=
  if h.buffer.size = 0 then fillUp h.depth h.nextLeaf h.frontier
  else (h.takeLeaf (chunkAt h.buffer 0)).bind fun last =>
    fillUp last.depth last.nextLeaf last.frontier

end Hasher

/-- The root of the tree with room for `capacity` leaves over the given pieces. -/
def streamRoot (capacity : Nat) (pieces : List ByteArray) : Except HasherFault Root :=
  ((Hasher.withLeaves capacity).writeAll pieces).bind Hasher.finish

end GenesisForge.Merkle
