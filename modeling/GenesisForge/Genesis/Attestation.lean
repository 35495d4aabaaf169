import GenesisForge.Chain.Header
import GenesisForge.Genesis.Error
import GenesisForge.Genesis.Notice
import GenesisForge.Text.Quoted

/-!
# Attestation of the genesis proposer

The configuration names the vendor of the proposer's trusted environment, by
name or by tag; the first source that applies is used. The quote is always the
same placeholder, which attests nothing.
-/

namespace GenesisForge

/-- A vendor of trusted environments. -/
inductive TeeVendor where
  | sev
  | tdx
  | cca
deriving DecidableEq, Repr

namespace TeeVendor

/-- All vendors in the order of their tags. -/
def all : List TeeVendor := [sev, tdx, cca]

def tag : TeeVendor → UInt8
  | sev => 0
  | tdx => 1
  | cca => 2

def name : TeeVendor → String
  | sev => "sev"
  | tdx => "tdx"
  | cca => "cca"

/-- The vendor of a name, in whatever case and with blanks around it. -/
def ofName? (name : String) : Option TeeVendor :=
  all.find? (·.name == Text.lowerAscii (Text.trim name))

def ofTag? (tag : UInt64) : Option TeeVendor :=
  all.find? (·.tag.toUInt64 == tag)

/-- The greatest tag of a vendor. -/
def maxTag : UInt64 := 2

theorem ofTag?_tag (vendor : TeeVendor) : ofTag? vendor.tag.toUInt64 = some vendor := by
  cases vendor <;> decide

end TeeVendor

/-- The text that the placeholder quote repeats: "PoTE-genesis-TEE". -/
def quoteMarker : Array UInt8 := #[
  0x50, 0x6f, 0x54, 0x45, 0x2d, 0x67, 0x65, 0x6e, 0x65, 0x73, 0x69, 0x73, 0x2d, 0x54, 0x45, 0x45]

/-- The placeholder quote. -/
def defaultQuote : Quote :=
  .ofFn _ fun i => quoteMarker.getD (i % quoteMarker.size) 0

/-- A quote as shown to a reader, by its first bytes. -/
def Quote.inspect (quote : Quote) : String :=
  "TeeQuote(0x" ++ Hex.digits (quote.bytes.extract 0 8) ++ "..)"

/-- What is attested of the proposer. -/
structure ProposerTee where
  vendor : TeeVendor
  quote : Quote

namespace ProposerTee

/-- The vendor with the placeholder quote. -/
def ofVendor (vendor : TeeVendor) : ProposerTee := ⟨vendor, defaultQuote⟩

/-- What is attested where nothing is configured. -/
def default : ProposerTee := ofVendor .sev

/-- The parameter that names the vendor. -/
def nameKey : String := "TEE_VENDOR_FROM_MNEMONICS"

/-- The parameter that gives the tag of the vendor of all validators. -/
def vendorKey : String := "TEE_VENDOR"

/-- The parameter that gives the tag of the vendor of the proposer. -/
def proposerKey : String := "TEE_PROPOSER_VENDOR"

/-- The parameter that would give a quote and is not used. -/
def attestationKey : String := "TEE_PROPOSER_ATTESTATION"

/-- The vendor that a parameter gives by its tag, or a default. -/
def vendorOr (config : Config) (key : String) (default : TeeVendor) :
    Except GenesisError TeeVendor := do
  let tag ← (config.wordOr key default.tag.toUInt64).mapError .config
  match TeeVendor.ofTag? tag with
  | some vendor => pure vendor
  | none => throw (.outOfRange key tag 0 TeeVendor.maxTag)

def named? (config : Config) : Option TeeVendor :=
  (config.text? nameKey).bind TeeVendor.ofName?

/-- What the configuration attests of the proposer: the vendor it names, or
that of the proposer's tag, or that of the tag for all validators. -/
def resolve (config : Config) : Except GenesisError ProposerTee :=
  match named? config with
  | some vendor => .ok (ofVendor vendor)
  | none => do
    let common ← vendorOr config vendorKey .sev
    let vendor ← vendorOr config proposerKey common
    pure (ofVendor vendor)

/-- What is told of the sources of the vendor. -/
def notices (config : Config) : List Notice :=
  (if (config.get? attestationKey).isSome then
    [.warning (attestationKey ++
      " is ignored, the genesis header carries the default quote")] else []) ++
  (match config.text? nameKey with
    | none => []
    | some name =>
      match TeeVendor.ofName? name with
      | some vendor => [.info ("Proposer TEE vendor from mnemonics: " ++ vendor.name)]
      | none =>
        [.warning ("Ignoring unknown TEE vendor " ++ Text.quoted name ++ " from mnemonics")])

end ProposerTee

section

variable {H : Type} [KeepsAttestation H]

def attest (vendor : TeeVendor) (quote : ByteArray) (header : H) : H :=
  KeepsAttestation.writeQuote quote (KeepsAttestation.writeTag vendor.tag header)

/-- Writes what is attested where nothing is configured into a header. -/
def attestDefault (header : H) : H :=
  attest ProposerTee.default.vendor ProposerTee.default.quote.bytes header

/-- Writes what the configuration attests into a header. -/
def attestFrom (config : Config) (header : H) : Except GenesisError (H × ProposerTee) := do
  let tee ← ProposerTee.resolve config
  pure (attest tee.vendor tee.quote.bytes header, tee)

end

end GenesisForge
