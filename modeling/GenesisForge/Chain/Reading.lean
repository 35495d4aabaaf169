import GenesisForge.Chain.Header
import GenesisForge.Structured

/-!
# Reading records

Records that documents may hold. Their integers are strings of decimal digits,
their byte strings and roots strings of hexadecimal digits, and every field
must be there.
-/

namespace GenesisForge

open Structured

variable {D : Type} [Structured D]

def Ssz.Schema.fieldNames (schema : Ssz.Schema) : List String :=
  schema.fields.map (·.name)

namespace Fork

/-- The record that a document holds. -/
def read? (d : D) : Option Fork :=
  match fields? Schemas.fork.fieldNames d with
  | some [a, b, c] => do pure ⟨← bytes? _ a, ← bytes? _ b, ← quotedWord? c⟩
  | _ => none

end Fork

namespace Checkpoint

/-- The record that a document holds. -/
def read? (d : D) : Option Checkpoint :=
  match fields? Schemas.checkpoint.fieldNames d with
  | some [a, b] => do pure ⟨← quotedWord? a, ← root? b⟩
  | _ => none

end Checkpoint

namespace Eth1Data

/-- The record that a document holds. -/
def read? (d : D) : Option Eth1Data :=
  match fields? Schemas.eth1Data.fieldNames d with
  | some [a, b, c] => do pure ⟨← root? a, ← quotedWord? b, ← root? c⟩
  | _ => none

end Eth1Data

namespace Withdrawal

/-- The record that a document holds. -/
def read? (d : D) : Option Withdrawal :=
  match fields? Schemas.withdrawal.fieldNames d with
  | some [a, b, c, e] => do
    pure ⟨← quotedWord? a, ← quotedWord? b, ← bytes? _ c, ← quotedWord? e⟩
  | _ => none

end Withdrawal

namespace BlockHeader

/-- The record that a document holds. -/
def read? (d : D) : Option BlockHeader :=
  match fields? Schemas.blockHeader.fieldNames d with
  | some [a, b, c, e, f] => do
    pure ⟨← quotedWord? a, ← quotedWord? b, ← root? c, ← root? e, ← root? f⟩
  | _ => none

end BlockHeader

end GenesisForge
