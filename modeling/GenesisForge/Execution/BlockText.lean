import GenesisForge.Decimal.Double
import GenesisForge.Execution.Block
import GenesisForge.Json.Structured

/-!
# Reading blocks of the execution chain

A block is read from the JSON object that a node of the execution chain
answers. Integers are numbers or strings in any of four bases, byte strings
are hexadecimal strings or arrays of bytes. Unknown members do not count, but
they must be proper JSON: numbers within the range of a double, strings of
characters, and collections nested less than 128 deep.
-/

namespace GenesisForge

open Ssz

namespace BlockText

/-! ## Members that are looked at as a whole -/

/-- Whether a number lies within the range of a double. -/
def isRepresentable (text : String) : Bool :=
  match Decimal.Numeral.ofChars? text.toList with
  | some n => n.toFloat.isFinite
  | none => false

mutual

/-- Whether a document is proper and nested at most `depth` deep. -/
def isProper (depth : Nat) : Json → Bool
  | .null | .boolean _ => true
  | .number text => isRepresentable text
  | .string written => (Json.unescape? written).isSome
  | .array items => 0 < depth && areProper (depth - 1) items
  | .object members => 0 < depth && membersAreProper (depth - 1) members

def areProper (depth : Nat) : List Json → Bool
  | [] => true
  | item :: rest => isProper depth item && areProper depth rest

def membersAreProper (depth : Nat) : List (String × Json) → Bool
  | [] => true
  | (key, value) :: rest =>
    (Json.unescape? key).isSome && isProper depth value && membersAreProper depth rest

end

/-! ## Quantities and byte strings -/

/-- The base of a quantity and its digits. -/
def baseOf : List Char → Nat × List Char
  | '0' :: mark :: rest =>
    if mark == 'x' || mark == 'X' then (16, rest)
    else if mark == 'o' || mark == 'O' then (8, rest)
    else if mark == 'b' || mark == 'B' then (2, rest)
    else (10, '0' :: mark :: rest)
  | chars => (10, chars)

/-- The number that the text of a quantity denotes. Underscores do not count,
and no digits at all denote zero. -/
def quantityOfText? (text : String) : Option Nat :=
  let (base, digits) := baseOf text.toList
  Numeral.foldDigits? base 0 (digits.filter (· != '_'))

/-- A quantity of at most `bits` bits. -/
def quantity? (bits : Nat) (d : Json) : Option Nat :=
  let n? :=
    match d with
    | .number _ => Json.unsigned? d
    | .string written => (Json.unescape? written).bind quantityOfText?
    | _ => none
  n?.filter (· < 2 ^ bits)

/-- A quantity of 64 bits. -/
def word? (d : Json) : Option UInt64 :=
  (quantity? 64 d).map UInt64.ofNat

/-- A quantity of 256 bits. -/
def word256? (d : Json) : Option Word256 :=
  (quantity? 256 d).bind fun n => if h : n < 2 ^ 256 then some ⟨n, h⟩ else none

/-- A byte written as a number. -/
def byte? (d : Json) : Option UInt8 :=
  ((Json.unsigned? d).filter (· < 256)).map (·.toUInt8)

def bytesOfItems? (items : List Json) : Option ByteArray :=
  (items.mapM byte?).map fun bytes => ByteArray.mk bytes.toArray

/-- A byte string of any length. -/
def bytes? : Json → Option ByteArray
  | .string written => (Json.unescape? written).bind Hex.decode?
  | .array items => bytesOfItems? items
  | _ => none

/-- Whether an item behind the bytes of an array is passed over. No byte is,
and where the array is not looked at as a whole, no collection either. -/
def isPassedOver (asWhole : Bool) (d : Json) : Bool :=
  (byte? d).isNone &&
    (asWhole || match d with
      | .array _ | .object _ => false
      | .string written => (Json.unescape? written).isSome
      | _ => true)

/-- A byte string of length `n`. An array may have one item behind its bytes
that is passed over. -/
def fixedBytes? (asWhole : Bool) (n : Nat) : Json → Option (FixedBytes n)
  | .string written => (Json.unescape? written).bind (Hex.decodeFixed? n)
  | .array items =>
    match items.drop n with
    | [] => (bytesOfItems? items).bind (FixedBytes.ofBytes? n)
    | [extra] =>
      if isPassedOver asWhole extra then
        (bytesOfItems? (items.take n)).bind (FixedBytes.ofBytes? n)
      else none
    | _ => none
  | _ => none

/-! ## Members of a block -/

/-- The member that bears one of some names, if there is one; there must not
be two. -/
def member? (members : List (String × Json)) (names : List String) : Option (Option Json) :=
  match members.filter fun (key, _) => names.contains key with
  | [] => some none
  | [(_, value)] => some (some value)
  | _ => none

def required? {α : Type} (members : List (String × Json)) (names : List String)
    (read : Json → Option α) : Option α :=
  (member? members names).bind fun value => value.bind read

/-- The member that may lack or be null. -/
def later? {α : Type} (members : List (String × Json)) (name : String)
    (read : Json → Option α) : Option (Option α) :=
  match member? members [name] with
  | none => none
  | some none | some (some .null) => some none
  | some (some value) => (read value).map some

/-- The header among the members of a block. -/
def header? (members : List (String × Json)) : Option ExecutionHeader := do
  let root := fixedBytes? true 32
  pure {
    parentHash := ← required? members ["parentHash"] root
    ommersHash := ← required? members ["sha3Uncles", "ommersHash"] root
    beneficiary := ← required? members ["miner", "beneficiary"] (fixedBytes? true _)
    stateRoot := ← required? members ["stateRoot"] root
    transactionsRoot := ← required? members ["transactionsRoot"] root
    receiptsRoot := ← required? members ["receiptsRoot"] root
    logsBloom := ← required? members ["logsBloom"] (fixedBytes? true _)
    difficulty := ← required? members ["difficulty"] word256?
    number := ← required? members ["number"] word?
    gasLimit := ← required? members ["gasLimit"] word?
    gasUsed := ← required? members ["gasUsed"] word?
    timestamp := ← required? members ["timestamp"] word?
    extraData := ← required? members ["extraData"] bytes?
    mixHash := ← required? members ["mixHash"] root
    nonce := ← required? members ["nonce"] (fixedBytes? true 8)
    baseFeePerGas := ← later? members "baseFeePerGas" word?
    withdrawalsRoot := ← later? members "withdrawalsRoot" root
    blobGasUsed := ← later? members "blobGasUsed" word?
    excessBlobGas := ← later? members "excessBlobGas" word?
    parentBeaconBlockRoot := ← later? members "parentBeaconBlockRoot" root
    requestsHash := ← later? members "requestsHash" root }

def withdrawalNames : List String := ["index", "validatorIndex", "address", "amount"]

def withdrawal? (d : Json) : Option Withdrawal :=
  match Structured.fields? withdrawalNames d with
  | some [index, validator, address, amount] => do
    pure ⟨← word? index, ← word? validator, ← fixedBytes? false _ address, ← word? amount⟩
  | _ => none

/-- The items of an array, each of them read. -/
def items? {α : Type} (read : Json → Option α) : Json → Option (List α)
  | .array items => items.mapM read
  | _ => none

/-- The two members of a block that are no part of its header. -/
def listNames : List String := ["transactions", "withdrawals"]

end BlockText

open BlockText in
def ExecutionBlock.ofText? (text : String) : Option ExecutionBlock :=
  match Json.parse? text with
  | some (.object members) => do
    let members ← Json.named? members
    let rest := members.filter fun (key, _) => !listNames.contains key
    if !rest.all fun (_, value) => isProper 126 value then none
    let transactions ← member? members ["transactions"]
    pure {
      transactions := ← transactions.elim (some []) (items? bytes?)
      withdrawals := ← later? members "withdrawals" (items? withdrawal?)
      header := ← header? rest }
  | _ => none

end GenesisForge
