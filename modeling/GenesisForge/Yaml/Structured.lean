import GenesisForge.Structured
import GenesisForge.Yaml.Node.Parse
import GenesisForge.Yaml.Resolve

/-!
# YAML as structured documents

Aliases are followed where a reader looks. The empty plain scalar and the
missing document count as an empty collection. A number must be plain, or a
literal block that is tagged as an integer.
-/

namespace GenesisForge.Yaml

/-- A node, or none at all, inside a document. -/
structure Place where
  document : Document
  node : Option Node

namespace Place

/-- The root of the document that a text holds. -/
def ofText? (text : String) : Option Place :=
  (Document.ofText? text).map fun d => ⟨d, d.root⟩

/-- The node that is no alias. -/
def target (p : Place) : Option Node :=
  match p.node with
  | some (.alias anchor) => p.document.find? anchor
  | node => node

/-- Another node of the same document. -/
def beside (p : Place) (node : Node) : Place :=
  ⟨p.document, some node⟩

def scalar? (p : Place) : Option Scalar :=
  match p.target with
  | some (.scalar s) => some s
  | _ => none

def isLeftOut (p : Place) : Bool :=
  match p.target with
  | none => true
  | some (.scalar s) => s.style == .plain && s.text.isEmpty
  | _ => false

/-- The number of a scalar, below 2^64. -/
def unsigned? (p : Place) : Option Nat :=
  p.scalar?.bind fun s =>
    if s.style = .plain ∨ (s.style = .literal ∧ s.properties.tag = some (coreTag "int")) then
      Yaml.unsigned? (2 ^ 64) s.text.toList
    else none

/-- The place itself, or `some none` if it stands for null. A scalar that is
tagged as null must be one. -/
def present? (p : Place) : Option (Option Place) :=
  match p.target with
  | none => some none
  | some (.scalar s) =>
    if s.style ≠ .plain then some (some p)
    else
      match s.properties.tag with
      | some tag =>
        if tag == coreTag "null" then if isNull s.text then some none else none else some (some p)
      | none => some (if s.text.isEmpty || isNull s.text then none else some p)
  | some _ => some (some p)

def items? (p : Place) : Option (List Place) :=
  if p.isLeftOut then some []
  else
    match p.target with
    | some (.sequence _ items) => some (items.map p.beside)
    | _ => none

/-- The members of a mapping, whose keys are all scalars. -/
def named? (p : Place) : Option (List (String × Place)) :=
  if p.isLeftOut then some []
  else
    match p.target with
    | some (.mapping _ members) =>
      members.mapM fun (key, value) => (p.beside key).scalar?.map fun s => (s.text, p.beside value)
    | _ => none

end Place

instance : Structured Place where
  text? p := p.scalar?.map (·.text)
  verbatim? p := (p.scalar?.filter (·.isVerbatim)).map (·.text)
  unsigned? := Place.unsigned?
  present? := Place.present?
  items? := Place.items?
  members? names p := p.named?.bind (Structured.select? names)

end GenesisForge.Yaml
