import GenesisForge.Digest.Sha256
import GenesisForge.Proofs.ByteStrings
import GenesisForge.Shuffle
import Mathlib.Data.Set.Function
import Mathlib.Order.Interval.Set.Defs

/-!
# The shuffle is a permutation

A round pairs the indices by the partner that the pivot gives each of them.  Both members
of a pair look up the bit at the greater of the two, so they are swapped together or stay
together, and a round undoes itself.  The rounds one after the other are then a permutation
of the indices, whatever the hash function.

The same rounds with every step of the arithmetic checked, as a machine with words of 64
bits does it, never fail and move each index to the same place.
-/

namespace GenesisForge
namespace Shuffle

/-! ## Partners -/

theorem partner_of_le {pivot count index : Nat} (hpivot : pivot < count) (hle : index ≤ pivot) :
    partner pivot count index = pivot - index := by
  have hsum : pivot + count - index = pivot - index + count := by omega
  rw [partner, hsum, Nat.add_mod_right, Nat.mod_eq_of_lt (by omega)]

theorem partner_of_lt {pivot count index : Nat} (hlt : pivot < index) (hindex : index < count) :
    partner pivot count index = pivot + count - index := by
  rw [partner, Nat.mod_eq_of_lt (by omega)]

/-- Who is the partner of an index has that index for a partner. -/
theorem partner_partner
    {pivot count index : Nat} (hpivot : pivot < count) (hindex : index < count) :
    partner pivot count (partner pivot count index) = index := by
  obtain hlt | hle := Nat.lt_or_ge pivot index
  · rw [partner_of_lt hlt hindex, partner_of_lt (by omega) (by omega)]
    omega
  · rw [partner_of_le hpivot hle, partner_of_le hpivot (Nat.sub_le _ _)]
    omega

theorem pivot_lt (hash : Hash) (seed : Root) (round : Nat) {count : Nat} (hcount : 0 < count) :
    pivot hash seed round count < count :=
  Nat.mod_lt _ hcount

/-! ## Rounds -/

section

variable (hash : Hash) (seed : Root)

theorem step_lt {count index : Nat} (round : Nat) (hindex : index < count) :
    step hash seed count round index < count := by
  simp only [step]
  split
  · exact Nat.mod_lt _ (Nat.zero_lt_of_lt hindex)
  · exact hindex

/-- A round undoes itself: both members of a pair are swapped by the same bit. -/
theorem step_step {count index : Nat} (round : Nat) (hindex : index < count) :
    step hash seed count round (step hash seed count round index) = index := by
  have hpivot := pivot_lt hash seed round (Nat.zero_lt_of_lt hindex)
  have hback := partner_partner hpivot hindex
  by_cases hswap : swapBit hash seed round
      (max index (partner (pivot hash seed round count) count index))
  · have hmoved : step hash seed count round index =
        partner (pivot hash seed round count) count index := if_pos hswap
    rw [hmoved, step]
    simp only [hback, Nat.max_comm _ index, hswap, if_true]
  · have hkept : step hash seed count round index = index := if_neg hswap
    rw [hkept, hkept]

theorem bijOn_step (count round : Nat) :
    Set.BijOn (step hash seed count round) (Set.Iio count) (Set.Iio count) := by
  have hmaps : Set.MapsTo (step hash seed count round) (Set.Iio count) (Set.Iio count) :=
    fun _ hindex => step_lt hash seed round hindex
  have hback : Set.LeftInvOn (step hash seed count round) (step hash seed count round)
      (Set.Iio count) := fun _ hindex => step_step hash seed round hindex
  exact Set.InvOn.bijOn ⟨hback, hback⟩ hmaps hmaps

theorem shuffledIndex_lt {count index : Nat} (rounds : Nat) (hindex : index < count) :
    shuffledIndex hash seed count rounds index < count := by
  unfold shuffledIndex
  generalize List.range rounds = order
  induction order generalizing index with
  | nil => exact hindex
  | cons round rest ih =>
      rw [List.foldl_cons]
      exact ih (step_lt hash seed round hindex)

theorem bijOn_shuffledIndex (count rounds : Nat) :
    Set.BijOn (shuffledIndex hash seed count rounds) (Set.Iio count) (Set.Iio count) := by
  unfold shuffledIndex
  generalize List.range rounds = order
  induction order with
  | nil => exact Set.bijOn_id _
  | cons round rest ih => exact ih.comp (bijOn_step hash seed count round)

end

/-! ## Rounds in machine words -/

/-- The sum of two words, if it is a word of 64 bits. -/
def sum? (a b : Nat) : Option Nat :=
  if a + b < 2 ^ 64 then some (a + b) else none

/-- The difference of two words, if it is not negative. -/
def difference? (a b : Nat) : Option Nat :=
  if b ≤ a then some (a - b) else none

/-- The remainder of a division, if it is not one by zero. -/
def remainder? (a b : Nat) : Option Nat :=
  if b = 0 then none else some (a % b)

/-- The bytes between two places, if there are as many. -/
def slice? (bytes : ByteArray) (start stop : Nat) : Option ByteArray :=
  if stop ≤ bytes.size then some (bytes.extract start stop) else none

/-- The bit of a byte that a shift brings down, if the byte is wide enough. -/
def bit? (byte : UInt8) (shift : Nat) : Option Bool :=
  if shift < 8 then some (byte.toNat.testBit shift) else none

/-- The number of a round as a byte, if it is one. -/
def octet? (round : Nat) : Option UInt8 :=
  if round < 2 ^ 8 then some round.toUInt8 else none

section

variable (hash : Hash) (seed : Root)

/-- Where a round moves an index, or none where a sum leaves the word, a difference is
negative, a divisor is zero or a byte is looked up behind the end. -/
def checkedStep (count round index : Nat) : Option Nat := do
  let key := seed.bytes.push (← octet? round)
  let word := Bytes.littleEndianValue (← slice? (hash key).bytes 0 8)
  let pivot ← remainder? word count
  let flip ← remainder? (← difference? (← sum? pivot count) index) count
  let position := max index flip
  let source := hash (key ++ Bytes.littleEndian 4 (position / 256 % 2 ^ 32))
  let byte ← source.bytes.data[position % 256 / 8]?
  pure (if ← bit? byte (position % 8) then flip else index)

/-- Where all rounds together move an index, with every step checked. -/
def checkedIndex (count rounds index : Nat) : Option Nat :=
  (List.range rounds).foldlM (fun index round => checkedStep hash seed count round index) index

theorem getElem?_eq_byteAt {bytes : ByteArray} {i : Nat} (hi : i < bytes.size) :
    bytes.data[i]? = some (byteAt bytes i) := by
  have hi : i < bytes.data.size := hi
  rw [byteAt, Array.getD, dif_pos hi]
  exact Array.getElem?_eq_getElem hi

/-- A round among at most `2 ^ 63` indices stays within words and byte strings. -/
theorem checkedStep_eq
    {count round index : Nat} (hround : round < 2 ^ 8) (hcount : count ≤ 2 ^ 63)
    (hindex : index < count) :
    checkedStep hash seed count round index = some (step hash seed count round index) := by
  have hpivot := pivot_lt hash seed round (Nat.zero_lt_of_lt hindex)
  have hdigest : 8 ≤ (hash (roundKey seed round)).bytes.size := by
    rw [FixedBytes.size_eq]
    decide
  have hnumber : octet? round = some round.toUInt8 := if_pos hround
  have hslice : slice? (hash (roundKey seed round)).bytes 0 8 =
      some ((hash (roundKey seed round)).bytes.extract 0 8) := if_pos hdigest
  have hremainder (a : Nat) : remainder? a count = some (a % count) := if_neg (by omega)
  have hsum : sum? (pivot hash seed round count) count =
      some (pivot hash seed round count + count) := if_pos (by omega)
  have hdifference : difference? (pivot hash seed round count + count) index =
      some (pivot hash seed round count + count - index) := if_pos (by omega)
  have hbyte (source : Root) (position : Nat) : source.bytes.data[position % 256 / 8]? =
      some (byteAt source.bytes (position % 256 / 8)) :=
    getElem?_eq_byteAt (by rw [source.size_eq]; omega)
  have hbit (byte : UInt8) (position : Nat) :
      bit? byte (position % 8) = some (byte.toNat.testBit (position % 8)) := if_pos (by omega)
  have hnumbered (n : Nat) : Bytes.littleEndian 4 (n % 2 ^ 32) = Bytes.littleEndian 4 n :=
    Bytes.littleEndian_eq_of_mod_eq (Nat.mod_mod n (2 ^ 32))
  rw [roundKey] at hslice
  rw [pivot, roundKey] at hsum hdifference
  simp only [checkedStep, hnumber, hslice, hremainder, hsum, hdifference, hbyte, hbit, hnumbered,
    Option.bind_eq_bind, Option.bind_some]
  rfl

theorem checkedIndex_eq
    {count rounds index : Nat} (hrounds : rounds ≤ 255) (hcount : count ≤ 2 ^ 63)
    (hindex : index < count) :
    checkedIndex hash seed count rounds index =
      some (shuffledIndex hash seed count rounds index) := by
  unfold checkedIndex shuffledIndex
  have horder : ∀ round ∈ List.range rounds, round < 2 ^ 8 := fun round hround => by
    rw [List.mem_range] at hround
    omega
  generalize List.range rounds = order at horder
  induction order generalizing index with
  | nil => rfl
  | cons round rest ih =>
      rw [List.forall_mem_cons] at horder
      rw [List.foldlM_cons, List.foldl_cons, checkedStep_eq hash seed horder.1 hcount hindex]
      exact ih (step_lt hash seed round hindex) horder.2

/-- The shuffle maps the indices one-to-one onto themselves, and no step of its arithmetic
leaves the words and the byte strings that it works on. -/
theorem shuffledIndex_permutes
    {count rounds : Nat} (hrounds : rounds ≤ 255) (hcount : count ≤ 2 ^ 63) :
    Set.BijOn (shuffledIndex hash seed count rounds) (Set.Iio count) (Set.Iio count) ∧
      ∀ index < count, checkedIndex hash seed count rounds index =
        some (shuffledIndex hash seed count rounds index) :=
  ⟨bijOn_shuffledIndex hash seed count rounds,
    fun _ hindex => checkedIndex_eq hash seed hrounds hcount hindex⟩

theorem shuffledIndex_permutes_widest :
    Set.BijOn (shuffledIndex sha256 (.zero 32) (2 ^ 63) 255) (Set.Iio (2 ^ 63))
        (Set.Iio (2 ^ 63)) ∧
      checkedIndex sha256 (.zero 32) (2 ^ 63) 255 (2 ^ 63 - 1) =
        some (shuffledIndex sha256 (.zero 32) (2 ^ 63) 255 (2 ^ 63 - 1)) := by
  obtain ⟨hpermutes, hchecked⟩ := shuffledIndex_permutes sha256 (.zero 32)
    (Nat.le_refl 255) (Nat.le_refl (2 ^ 63))
  exact ⟨hpermutes, hchecked (2 ^ 63 - 1) (by decide)⟩

end

end Shuffle
end GenesisForge
