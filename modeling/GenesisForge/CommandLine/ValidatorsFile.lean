import GenesisForge.Genesis.Validators

/-!
# Files of validators

A file lists the validators of a genesis and may name the vendor of their
trusted environments. Both may lack.
-/

namespace GenesisForge.CommandLine

open Structured

structure ValidatorsFile where
  /-- The name of a vendor, as it was given. -/
  vendor : Option String
  validators : List GenesisValidator

namespace ValidatorsFile

/-- The file that holds nothing. -/
def empty : ValidatorsFile := ⟨none, []⟩

def fieldNames : List String := ["tee_vendor", "validators"]

variable {D : Type} [Structured D]

/-- The name of the vendor; null names none. -/
def readVendor? (d : D) : Option (Option String) :=
  match present? d with
  | none => none
  | some none => some none
  | some (some d) => (text? d).map some

/-- What a document holds. -/
def read? (d : D) : Option ValidatorsFile :=
  match members? fieldNames d with
  | some [vendor, validators] => do
    pure ⟨← vendor.elim (some none) readVendor?,
      ← validators.elim (some []) GenesisValidator.readAll?⟩
  | _ => none

end ValidatorsFile

end GenesisForge.CommandLine
