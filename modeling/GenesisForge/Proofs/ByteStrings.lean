import GenesisForge.Bytes
import Mathlib.Tactic.Ring

/-!
# Byte strings and words

Byte strings are taken apart at places that are known from the sizes of their
pieces.  A little-endian word of a given width determines the number that it was
written for, as long as the number has no more digits than the word.  A big-endian word
has the same digits in the opposite order.
-/

namespace GenesisForge

@[ext]
theorem FixedBytes.ext
    {n : Nat} {a b : FixedBytes n} (hbytes : a.bytes = b.bytes) : a = b := by
  cases a
  cases b
  cases hbytes
  rfl

namespace Bytes

theorem extract_of_size_le
    {bytes : ByteArray} {start stop : Nat} (hstop : bytes.size ≤ stop) :
    bytes.extract start stop = bytes.extract start bytes.size := by
  apply ByteArray.ext_getElem
  · rw [ByteArray.size_extract, ByteArray.size_extract]
    omega
  · intro i hi hi'
    rw [ByteArray.getElem_extract, ByteArray.getElem_extract]

theorem appendFill_eq (byte : UInt8) (count : Nat) (out : ByteArray) :
    appendFill byte count out = out ++ fill byte count := by
  unfold fill
  induction count generalizing out with
  | zero => simp [appendFill]
  | succ count ih =>
      simp only [appendFill]
      rw [ih (out.push byte), ih (ByteArray.empty.push byte), ← ByteArray.append_assoc]
      congr 1
      ext1
      simp

theorem data_fill (byte : UInt8) (count : Nat) :
    (fill byte count).data = Array.replicate count byte := by
  have honto (out : ByteArray) :
      (appendFill byte count out).data = out.data ++ Array.replicate count byte := by
    induction count generalizing out with
    | zero => simp [appendFill]
    | succ count ih =>
        rw [appendFill, ih, ByteArray.data_push]
        apply Array.ext'
        simp [List.replicate_succ]
  rw [fill, honto]
  simp

theorem extract_middle (front middle back : ByteArray) :
    (front ++ middle ++ back).extract front.size (front.size + middle.size) = middle := by
  rw [← ByteArray.size_append, ByteArray.extract_append_size_left]
  exact ByteArray.extract_append_eq_right rfl ByteArray.size_append

/-- Another byte at one place leaves all other places as they are. -/
theorem getElem?_middle_of_ne
    (front back : ByteArray) (b c : UInt8) {i : Nat} (hi : i ≠ front.size) :
    (front ++ ByteArray.empty.push b ++ back)[i]? =
      (front ++ ByteArray.empty.push c ++ back)[i]? := by
  have hdata (d : UInt8) : (front ++ ByteArray.empty.push d ++ back)[i]? =
      (front.data ++ (#[d] ++ back.data))[i]? := by
    rw [← Array.append_assoc]
    change (front ++ ByteArray.empty.push d ++ back).data[i]? = _
    simp
  rw [hdata, hdata]
  obtain hlt | hgt := Nat.lt_or_gt_of_ne hi
  · rw [Array.getElem?_append_left hlt, Array.getElem?_append_left hlt]
  · have hpast (d : UInt8) : #[d].size ≤ i - front.data.size := Nat.sub_pos_of_lt hgt
    rw [Array.getElem?_append_right hgt.le, Array.getElem?_append_right hgt.le,
      Array.getElem?_append_right (hpast b), Array.getElem?_append_right (hpast c)]
    rfl

theorem concat_cons (part : ByteArray) (parts : List ByteArray) :
    concat (part :: parts) = part ++ concat parts := by
  have honto (front : ByteArray) :
      parts.foldl (· ++ ·) front = front ++ parts.foldl (· ++ ·) ByteArray.empty := by
    induction parts generalizing front with
    | nil => simp
    | cons next rest ih =>
        rw [List.foldl_cons, List.foldl_cons, ih, ih (ByteArray.empty ++ next),
          ByteArray.empty_append, ByteArray.append_assoc]
  rw [concat, List.foldl_cons, honto, ByteArray.empty_append]
  rfl

theorem toList_loop (bytes : ByteArray) (i : Nat) (seen : List UInt8) :
    ByteArray.toList.loop bytes i seen =
      seen.reverse ++ bytes.data.toList.drop i := by
  induction hremaining : bytes.size - i generalizing i seen with
  | zero =>
      have hend : bytes.data.toList.length ≤ i := by
        simpa using Nat.le_of_sub_eq_zero hremaining
      rw [ByteArray.toList.loop, if_neg (by omega),
        List.drop_eq_nil_of_le hend, List.append_nil]
  | succ remaining ih =>
      have hlt : i < bytes.size := by omega
      have hnext :
          bytes.data.toList.drop i =
            bytes.get! i :: bytes.data.toList.drop (i + 1) := by
        rw [List.drop_eq_getElem_cons (by simpa using hlt)]
        congr 1
        have hget : bytes.data[i]! = bytes.data[i] :=
          getElem!_pos bytes.data i hlt
        simpa [ByteArray.get!] using hget.symm
      rw [ByteArray.toList.loop, if_pos hlt,
        ih (i + 1) (bytes.get! i :: seen) (by omega), hnext]
      simp

theorem toList_eq_data_toList (bytes : ByteArray) :
    bytes.toList = bytes.data.toList := by
  simp [ByteArray.toList, toList_loop]

theorem foldlM_loop
    {β : Type} (f : β → UInt8 → β) (bytes : ByteArray) (hstop : bytes.size ≤ bytes.size)
    (i j : Nat) (hi : bytes.size - j = i) (b : β) :
    ByteArray.foldlM.loop (m := Id) (fun b byte => pure (f b byte)) bytes bytes.size hstop i j b =
      pure ((bytes.data.toList.drop j).foldl f b) := by
  induction i generalizing j b with
  | zero =>
      have hend : bytes.data.toList.length ≤ j := by simpa using Nat.le_of_sub_eq_zero hi
      rw [ByteArray.foldlM.loop, dif_neg (by omega), List.drop_eq_nil_of_le hend, List.foldl_nil]
  | succ i ih =>
      have hlt : j < bytes.size := by omega
      rw [ByteArray.foldlM.loop, dif_pos hlt, List.drop_eq_getElem_cons (by simpa using hlt),
        List.foldl_cons]
      exact ih (j + 1) (by omega) (f b bytes[j])

/-- A fold over a byte string takes its bytes from the first to the last. -/
theorem foldl_eq_data_foldl {β : Type} (f : β → UInt8 → β) (init : β) (bytes : ByteArray) :
    bytes.foldl f init = bytes.data.toList.foldl f init := by
  have hloop := foldlM_loop f bytes (Nat.le_refl _) bytes.size 0 rfl init
  rw [List.drop_zero] at hloop
  rw [ByteArray.foldl, ByteArray.foldlM, dif_pos (Nat.le_refl _)]
  exact congrArg Id.run hloop

@[simp]
theorem littleEndianValue_empty : littleEndianValue ByteArray.empty = 0 := by
  simp [littleEndianValue]

theorem littleEndianValue_append (a b : ByteArray) :
    littleEndianValue (a ++ b) =
      littleEndianValue a + 256 ^ a.size * littleEndianValue b := by
  simp only [littleEndianValue, toList_eq_data_toList,
    ByteArray.toList_data_append, List.foldr_append, ← ByteArray.size_data,
    ← Array.length_toList]
  induction a.data.toList with
  | nil => simp
  | cons byte rest ih =>
      simp only [List.foldr_cons, List.length_cons, ih, Nat.pow_succ]
      ring

theorem littleEndianValue_lt (bytes : ByteArray) :
    littleEndianValue bytes < 256 ^ bytes.size := by
  rw [littleEndianValue, toList_eq_data_toList, ← ByteArray.size_data, ← Array.length_toList]
  induction bytes.data.toList with
  | nil => simp
  | cons byte rest ih =>
      have hbyte := byte.toNat_lt
      rw [List.foldr_cons, List.length_cons, Nat.pow_succ']
      omega

theorem appendLittleEndian_eq (width n : Nat) (out : ByteArray) :
    appendLittleEndian width n out = out ++ littleEndian width n := by
  unfold littleEndian
  induction width generalizing n out with
  | zero => simp [appendLittleEndian]
  | succ width ih =>
      simp only [appendLittleEndian]
      rw [ih (n / 256) (out.push _), ih (n / 256) (ByteArray.empty.push _),
        ← ByteArray.append_assoc]
      congr 1
      ext1
      simp

theorem littleEndian_succ (width n : Nat) :
    littleEndian (width + 1) n =
      ByteArray.empty.push (n % 256).toUInt8 ++ littleEndian width (n / 256) := by
  rw [littleEndian, appendLittleEndian, appendLittleEndian_eq]

theorem littleEndianValue_littleEndian (width n : Nat) :
    littleEndianValue (littleEndian width n) = n % 256 ^ width := by
  induction width generalizing n with
  | zero =>
      have hempty : littleEndian 0 n = ByteArray.empty := rfl
      rw [hempty, littleEndianValue_empty, Nat.pow_zero, Nat.mod_one]
  | succ width ih =>
      have hdigit :
          littleEndianValue (ByteArray.empty.push (n % 256).toUInt8) =
            n % 256 := by
        simp [littleEndianValue, toList_eq_data_toList]
      rw [littleEndian_succ, littleEndianValue_append, hdigit, ih,
        Nat.pow_succ', Nat.mod_mul]
      simp

theorem littleEndian_inj
    {width m n : Nat} (hm : m < 256 ^ width) (hn : n < 256 ^ width)
    (hwords : littleEndian width m = littleEndian width n) : m = n := by
  have hvalues := congrArg littleEndianValue hwords
  rw [littleEndianValue_littleEndian, littleEndianValue_littleEndian,
    Nat.mod_eq_of_lt hm, Nat.mod_eq_of_lt hn] at hvalues
  exact hvalues

theorem littleEndian_eq_of_mod_eq
    {width m n : Nat} (hmod : m % 256 ^ width = n % 256 ^ width) :
    littleEndian width m = littleEndian width n := by
  induction width generalizing m n with
  | zero => rfl
  | succ width ih =>
      rw [Nat.pow_succ', Nat.mod_mul, Nat.mod_mul] at hmod
      have hdigit : m % 256 = n % 256 := by omega
      have hrest : m / 256 % 256 ^ width = n / 256 % 256 ^ width := by omega
      rw [littleEndian_succ, littleEndian_succ, hdigit, ih hrest]

/-! ## Big-endian words -/

theorem bigEndianValue_eq_littleEndianValue (bytes : ByteArray) :
    bigEndianValue bytes = littleEndianValue ⟨bytes.data.reverse⟩ := by
  rw [bigEndianValue, foldl_eq_data_foldl, littleEndianValue, toList_eq_data_toList,
    Array.toList_reverse, List.foldr_reverse]

theorem littleEndian_littleEndianValue (bytes : ByteArray) :
    littleEndian bytes.size (littleEndianValue bytes) = bytes := by
  obtain ⟨⟨bytes⟩⟩ := bytes
  induction bytes with
  | nil => rfl
  | cons byte rest ih =>
      have hvalue : littleEndianValue ⟨⟨byte :: rest⟩⟩ =
          256 * littleEndianValue ⟨⟨rest⟩⟩ + byte.toNat := by
        simp only [littleEndianValue, toList_eq_data_toList, List.foldr_cons]
      have hbyte := byte.toNat_lt
      have hlast : (256 * littleEndianValue ⟨⟨rest⟩⟩ + byte.toNat) % 256 = byte.toNat := by omega
      have hfirst : (256 * littleEndianValue ⟨⟨rest⟩⟩ + byte.toNat) / 256 =
          littleEndianValue ⟨⟨rest⟩⟩ := by omega
      change littleEndian (rest.length + 1) _ = _
      rw [hvalue, littleEndian_succ, hlast, hfirst]
      change _ ++ littleEndian (ByteArray.mk ⟨rest⟩).size _ = _
      rw [ih]
      ext1
      simp

theorem bigEndian_bigEndianValue (bytes : ByteArray) :
    bigEndian bytes.size (bigEndianValue bytes) = bytes := by
  have hsize : bytes.size = (ByteArray.mk bytes.data.reverse).size := Array.size_reverse.symm
  rw [bigEndianValue_eq_littleEndianValue, bigEndian, hsize, littleEndian_littleEndianValue,
    Array.reverse_reverse]

theorem bigEndianValue_bigEndian (width n : Nat) :
    bigEndianValue (bigEndian width n) = n % 256 ^ width := by
  rw [bigEndianValue_eq_littleEndianValue, bigEndian, Array.reverse_reverse]
  exact littleEndianValue_littleEndian width n

theorem bigEndianValue_lt (bytes : ByteArray) : bigEndianValue bytes < 256 ^ bytes.size := by
  have hsize : bytes.size = (ByteArray.mk bytes.data.reverse).size := Array.size_reverse.symm
  rw [bigEndianValue_eq_littleEndianValue, hsize]
  exact littleEndianValue_lt _

end Bytes

theorem FixedBytes.bigEndian_bigEndianValue {n : Nat} (b : FixedBytes n) :
    FixedBytes.bigEndian n (Bytes.bigEndianValue b.bytes) = b := by
  obtain ⟨bytes, rfl⟩ := b
  exact FixedBytes.ext (Bytes.bigEndian_bigEndianValue bytes)

end GenesisForge
