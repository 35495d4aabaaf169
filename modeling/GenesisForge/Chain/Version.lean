/-!
# Forks of the chain

The forks in their order. Each has a version of four bytes in the
configuration, and the containers of the last two are known here.
-/

namespace GenesisForge

/-- A fork of the chain, the earlier ones first. -/
inductive ForkName where
  | phase0
  | altair
  | bellatrix
  | capella
  | deneb
  | electra
deriving DecidableEq, Repr

namespace ForkName

/-- All forks in their order. -/
def all : List ForkName := [phase0, altair, bellatrix, capella, deneb, electra]

def name : ForkName → String
  | phase0 => "phase0"
  | altair => "altair"
  | bellatrix => "bellatrix"
  | capella => "capella"
  | deneb => "deneb"
  | electra => "electra"

def ofName? (name : String) : Option ForkName :=
  all.find? (·.name == name)

/-- The place of a fork in the order. -/
def rank : ForkName → Nat
  | phase0 => 0
  | altair => 1
  | bellatrix => 2
  | capella => 3
  | deneb => 4
  | electra => 5

/-- The fork before a fork; the first one comes before itself. -/
def previous : ForkName → ForkName
  | phase0 | altair => phase0
  | bellatrix => altair
  | capella => bellatrix
  | deneb => capella
  | electra => deneb

instance : Ord ForkName := ⟨fun a b => compare a.rank b.rank⟩

end ForkName

end GenesisForge
