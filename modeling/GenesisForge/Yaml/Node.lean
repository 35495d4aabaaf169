import GenesisForge.Yaml.Token

/-!
# Nodes of a YAML document

A document is a tree of scalars, sequences and mappings. An alias refers to an
anchor by number. Anchors are numbered by how many names were known before
them; where two nodes bear one number, the later of them counts, for aliases in
front of it too.
-/

namespace GenesisForge.Yaml

/-- What may stand in front of a node. -/
structure Properties where
  /-- The number of the anchor. -/
  anchor : Option Nat
  tag : Option ByteArray

namespace Properties

/-- No anchor and no tag. -/
def none : Properties := ⟨Option.none, Option.none⟩

end Properties

structure Scalar where
  properties : Properties
  style : Style
  text : String
  /-- Whether the text stands in the source just as it is. -/
  isVerbatim : Bool

inductive Node where
  | scalar (s : Scalar)
  | sequence (properties : Properties) (items : List Node)
  | mapping (properties : Properties) (members : List (Node × Node))
  | alias (anchor : Nat)

instance : Inhabited Node := ⟨.alias 0⟩

mutual

/-- The number of marks that the node consists of: one for a scalar or an
alias, and one for either end of a collection. -/
def Node.markCount : Node → Nat
  | .scalar _ | .alias _ => 1
  | .sequence _ items => markCountOfItems 2 items
  | .mapping _ members => markCountOfMembers 2 members

/-- The marks of the items on top of `total`. -/
def markCountOfItems (total : Nat) : List Node → Nat
  | [] => total
  | item :: rest => markCountOfItems (total + item.markCount) rest

/-- The marks of the members on top of `total`. -/
def markCountOfMembers (total : Nat) : List (Node × Node) → Nat
  | [] => total
  | (key, value) :: rest => markCountOfMembers (total + key.markCount + value.markCount) rest

end

mutual

/-- Adds the anchored nodes of the tree in front of `found`, the last of them
first. -/
def Node.addAnchored (node : Node) (found : List (Nat × Node)) : List (Nat × Node) :=
  match node with
  | .scalar s => addIfAnchored s.properties (.scalar s) found
  | .sequence properties items =>
    addAnchoredItems items (addIfAnchored properties (.sequence properties items) found)
  | .mapping properties members =>
    addAnchoredMembers members (addIfAnchored properties (.mapping properties members) found)
  | .alias _ => found

def addAnchoredItems : List Node → List (Nat × Node) → List (Nat × Node)
  | [], found => found
  | item :: rest, found => addAnchoredItems rest (item.addAnchored found)

def addAnchoredMembers : List (Node × Node) → List (Nat × Node) → List (Nat × Node)
  | [], found => found
  | (key, value) :: rest, found =>
    addAnchoredMembers rest (value.addAnchored (key.addAnchored found))

def addIfAnchored (properties : Properties) (node : Node) (found : List (Nat × Node)) :
    List (Nat × Node) :=
  match properties.anchor with
  | some n => (n, node) :: found
  | none => found

end

/-- A document: its root, unless the text holds no document at all, and the
anchored nodes, the last of them first. -/
structure Document where
  root : Option Node
  anchored : List (Nat × Node)

namespace Document

def ofRoot (root : Node) : Document :=
  ⟨some root, root.addAnchored []⟩

def find? (d : Document) (anchor : Nat) : Option Node :=
  d.anchored.lookup anchor

end Document

end GenesisForge.Yaml
