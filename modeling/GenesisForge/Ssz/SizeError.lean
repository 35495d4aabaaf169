import GenesisForge.Ssz.Value

/-!
# Sizes that do not fit

Collections are built from their contents and a limit; contents of another
size than asked for are refused with both sizes.
-/

namespace GenesisForge.Ssz

/-- Why contents do not make a collection. -/
inductive SizeError where
  /-- More elements than the limit allows. -/
  | aboveLimit (provided limit : Nat)
  /-- Another number of bytes than the type has. -/
  | wrongLength (provided expected : Nat)
deriving DecidableEq, Repr

def SizeError.message : SizeError → String
  | .aboveLimit provided limit =>
    toString provided ++ " elements given for a type with (inclusive) upper bound " ++
      toString limit
  | .wrongLength provided expected =>
    "expected exactly " ++ toString expected ++ " byte(s) but " ++ toString provided ++
      " byte(s) given"

/-- Refuses more than `limit` elements. -/
def checkLimit (provided limit : Nat) : Except SizeError Unit :=
  if provided ≤ limit then .ok () else .error (.aboveLimit provided limit)

/-- A sequence of at most `limit` elements. -/
structure Bounded (α : Type) where
  items : List α
  limit : Nat
  length_le : items.length ≤ limit

namespace Bounded

variable {α : Type}

/-- The sequence without elements. -/
def empty (limit : Nat) : Bounded α :=
  ⟨[], limit, Nat.zero_le limit⟩

/-- The sequence of `items`, if `limit` allows that many. -/
def ofList (limit : Nat) (items : List α) : Except SizeError (Bounded α) :=
  if h : items.length ≤ limit then .ok ⟨items, limit, h⟩
  else .error (.aboveLimit items.length limit)

end Bounded

/-- A byte string of at most `limit` bytes. -/
structure ByteList where
  data : ByteArray
  limit : Nat
  size_le : data.size ≤ limit

namespace ByteList

/-- The byte string of `data`, if `limit` allows that many bytes. -/
def ofBytes (limit : Nat) (data : ByteArray) : Except SizeError ByteList :=
  if h : data.size ≤ limit then .ok ⟨data, limit, h⟩
  else .error (.aboveLimit data.size limit)

end ByteList

/-- Exactly `n` bytes of a byte string. -/
def fixedBytes (n : Nat) (data : ByteArray) : Except SizeError (FixedBytes n) :=
  match FixedBytes.ofBytes? n data with
  | some bytes => .ok bytes
  | none => .error (.wrongLength data.size n)

theorem Bounded.ofList_eq_ok {α : Type} {limit : Nat} {items : List α} {b : Bounded α}
    (h : ofList limit items = .ok b) : b.items = items ∧ b.limit = limit := by
  unfold ofList at h
  split at h <;> simp at h
  subst h
  exact ⟨rfl, rfl⟩

theorem ByteList.ofBytes_eq_ok {limit : Nat} {data : ByteArray} {list : ByteList}
    (h : ofBytes limit data = .ok list) : list.data = data ∧ list.limit = limit := by
  unfold ofBytes at h
  split at h <;> simp at h
  subst h
  exact ⟨rfl, rfl⟩

end GenesisForge.Ssz
