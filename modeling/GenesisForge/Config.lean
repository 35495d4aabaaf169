import GenesisForge.Text.Blank
import GenesisForge.Text.Hex
import GenesisForge.Text.Numeral
import GenesisForge.Yaml.Value

/-!
# Network configuration

A configuration gives values to names. A value is a number or a text, and the
reader of a parameter decides what it denotes: integers may be written as
numbers, in decimal digits or in hexadecimal digits behind `0x`, and byte
strings in hexadecimal digits or, if short, as a big-endian number.
-/

namespace GenesisForge

inductive ConfigValue where
  | number (n : UInt64)
  | text (s : String)
deriving DecidableEq

/-- The value as messages quote it. -/
def ConfigValue.show : ConfigValue → String
  | .number n => toString n.toNat
  | .text s => s

/-- What a parameter should have been. -/
inductive Expectation where
  | unsignedInteger
  | hexString
  | fixedBytes
  | votingPeriod
  | roundCount
  | treeDepth
deriving DecidableEq, Repr

def Expectation.text : Expectation → String
  | unsignedInteger => "an unsigned integer"
  | hexString => "a 0x-prefixed hex string"
  | fixedBytes => "a fixed-size byte string"
  | votingPeriod => "a voting period of at most usize::MAX slots"
  | roundCount => "a round count below 256"
  | treeDepth => "a tree depth"

/-- Why a configuration is refused. -/
inductive ConfigError where
  /-- The file cannot be read. -/
  | unreadable
  /-- The text is no mapping of names to values. -/
  | malformed
  /-- A parameter has a value that it cannot have. -/
  | invalidValue (key : String) (expected : Expectation) (value : String)
deriving DecidableEq

def ConfigError.message : ConfigError → String
  | unreadable => "Failed to read the configuration"
  | malformed => "Malformed configuration"
  | invalidValue key expected value =>
    "Invalid value of " ++ key ++ ": expected " ++ expected.text ++ ", got " ++ value

/-- A configuration: values by name, the latest one of a name first. -/
structure Config where
  entries : List (String × ConfigValue)

namespace Config

/-- The configuration without values. -/
def empty : Config := ⟨[]⟩

def get? (config : Config) (key : String) : Option ConfigValue :=
  config.entries.lookup key

/-- Gives a value to a name. -/
def set (config : Config) (key : String) (value : ConfigValue) : Config :=
  ⟨(key, value) :: config.entries⟩

/-! ## Reading a configuration -/

/-- The value that a scalar gives; null gives none. -/
def valueOfAtom? : Yaml.Atom → Option ConfigValue
  | .null => none
  | .boolean b => some (.text (if b then "true" else "false"))
  | .integer n =>
    some (if 0 ≤ n then .number (UInt64.ofNat n.toNat) else .text ("-" ++ toString n.natAbs))
  | .floating x =>
    some (.text (if x.isNaN then ".nan" else if x.isInf then if x < 0 then "-.inf" else ".inf"
      else Decimal.format x))
  | .text s => some (.text s)

/-- The value of a member of a configuration; collections and tagged values
give none. -/
def valueOf? : Yaml.Value → Option ConfigValue
  | .atom a => valueOfAtom? a
  | _ => none

/-- Reads the members of a configuration one by one, the later of them first
in the result. -/
def readMembers (d : Yaml.Document) (fuel : Nat) :
    List (Yaml.Node × Yaml.Node) → List (String × Option ConfigValue) →
      Yaml.Following (List (String × Option ConfigValue))
  | [], read => pure read
  | (key, node) :: rest, read => do
    let key ←
      match key with
      | .alias anchor => Yaml.follow d anchor
      | key => pure key
    match key with
    | .scalar s =>
      let v ← Yaml.value d fuel 127 false node
      readMembers d fuel rest ((s.text, valueOf? v) :: read)
    | _ => failure

/-- The members of a configuration that give a value. A name given again is
given its last value, or none. -/
def ofMembers (read : List (String × Option ConfigValue)) : Config :=
  ⟨((read.foldl
      (fun (seen, kept) (key, value) =>
        if seen.contains key then (seen, kept) else (key :: seen, (key, value) :: kept))
      (([] : List String), ([] : List (String × Option ConfigValue)))).2).filterMap
    fun (key, value) => value.map (key, ·)⟩

/-- The configuration that a text holds. A blank text holds the empty one. -/
def ofText? (text : String) : Option Config :=
  if (Text.trim text).isEmpty then some empty
  else
    (Yaml.Document.ofText? text).bind fun d =>
      match d.root with
      | none => some empty
      | some (.scalar s) => if s.style == .plain && s.text.isEmpty then some empty else none
      | some (.mapping properties members) =>
        let marks := (Yaml.Node.mapping properties members).markCount
        ((readMembers d (130 * (marks + 4)) members []).run (100 * marks)).map fun (read, _) =>
          ofMembers read
      | some _ => none

/-- The configuration that a text holds. -/
def ofText (text : String) : Except ConfigError Config :=
  match ofText? text with
  | some config => .ok config
  | none => .error .malformed

/-! ## Reading parameters -/

/-- The word that a text denotes, in hexadecimal digits behind `0x` and in
decimal digits otherwise. Blanks around it do not count. -/
def wordOfText? (text : String) : Option UInt64 :=
  match Text.trimChars text.toList with
  | '0' :: 'x' :: digits => Numeral.word? 16 digits
  | digits => Numeral.word? 10 digits

def wordOf? : ConfigValue → Option UInt64
  | .number n => some n
  | .text s => wordOfText? s

def refuse {α : Type} (key : String) (expected : Expectation) (value : ConfigValue) :
    Except ConfigError α :=
  .error (.invalidValue key expected value.show)

/-- The word of a parameter, if it has a value. -/
def word (config : Config) (key : String) : Except ConfigError (Option UInt64) :=
  match config.get? key with
  | none => .ok none
  | some value =>
    match wordOf? value with
    | some n => .ok (some n)
    | none => refuse key .unsignedInteger value

def wordOr (config : Config) (key : String) (default : UInt64) : Except ConfigError UInt64 :=
  (config.word key).map (·.getD default)

/-- The text of a parameter, if it has a value. -/
def text? (config : Config) (key : String) : Option String :=
  (config.get? key).map (·.show)

/-- The bytes that a text denotes. Blanks around it do not count. -/
def bytesOfText? (text : String) : Option ByteArray :=
  Hex.decodeDigits? (Hex.unmarked (Text.trimChars text.toList))

/-- The bytes of a parameter, if it has a value. -/
def bytes (config : Config) (key : String) : Except ConfigError (Option ByteArray) :=
  match config.get? key with
  | none => .ok none
  | some (.number n) => refuse key .hexString (.number n)
  | some (.text s) =>
    match bytesOfText? s with
    | some data => .ok (some data)
    | none => refuse key .hexString (.text s)

/-- The `n` bytes of a parameter, or a default. A number below `256 ^ n` stands
for its big-endian bytes, up to a length of eight. -/
def fixedBytesOr (n : Nat) (config : Config) (key : String) (default : FixedBytes n) :
    Except ConfigError (FixedBytes n) :=
  match config.get? key with
  | none => .ok default
  | some (.number value) =>
    if n ≤ 8 ∧ value.toNat < 256 ^ n then .ok (.bigEndian n value.toNat)
    else refuse key .fixedBytes (.number value)
  | some (.text s) =>
    match bytesOfText? s with
    | none => refuse key .hexString (.text s)
    | some data =>
      match FixedBytes.ofBytes? n data with
      | some bytes => .ok bytes
      | none => refuse key .fixedBytes (.text s)

end Config

end GenesisForge
