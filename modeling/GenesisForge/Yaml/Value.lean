import GenesisForge.Yaml.Node.Parse
import GenesisForge.Yaml.Resolve

/-!
# Values of YAML documents

The value of a node has its aliases followed. Collections may be nested 128
deep, a mapping must not repeat a key, and aliases may be followed at most a
hundred times for each mark of the document.
-/

namespace GenesisForge.Yaml

inductive Value where
  | atom (a : Atom)
  | sequence (items : List Value)
  | mapping (members : List (Value × Value))
  | tagged (name : String) (content : Value)

instance : Inhabited Value := ⟨.sequence []⟩

/-- Whether two scalars are the same key. An undefined number equals itself. -/
def Atom.agrees : Atom → Atom → Bool
  | .null, .null => true
  | .boolean a, .boolean b => a == b
  | .integer a, .integer b => a == b
  | .floating a, .floating b => a == b || (a.isNaN && b.isNaN)
  | .text a, .text b => a == b
  | _, _ => false

mutual

/-- Whether two values are the same key, the order in mappings left aside. -/
def Value.agrees : Value → Value → Bool
  | .atom a, .atom b => a.agrees b
  | .sequence a, .sequence b => agreeAll a b
  | .mapping a, .mapping b => a.length == b.length && membersIn a b
  | .tagged m a, .tagged n b => m == n && a.agrees b
  | _, _ => false

/-- Whether two sequences agree item by item. -/
def agreeAll : List Value → List Value → Bool
  | [], [] => true
  | a :: as, b :: bs => a.agrees b && agreeAll as bs
  | _, _ => false

/-- Whether every member of the first mapping is one of the second. -/
def membersIn : List (Value × Value) → List (Value × Value) → Bool
  | [], _ => true
  | (key, value) :: rest, others =>
    others.any (fun (k, v) => key.agrees k && value.agrees v) && membersIn rest others

end

/-- A reading that may fail and that may follow aliases a number of times. -/
abbrev Following := StateT Nat Option

def follow (d : Document) (anchor : Nat) : Following Node := do
  match ← get with
  | 0 => failure
  | left + 1 =>
    set left
    match d.find? anchor with
    | some node => pure node
    | none => failure

/-- Fails unless the integer fits into a signed or an unsigned word. -/
def checkAtom : Atom → Following Value
  | .integer n => if -(2 ^ 63) ≤ n ∧ n < 2 ^ 64 then pure (.atom (.integer n)) else failure
  | a => pure (.atom a)

mutual

/-- The value of a node below which collections may be nested `depth` deep. -/
def value (d : Document) : Nat → Nat → Bool → Node → Following Value
  | 0, _, _, _ => failure
  | fuel + 1, depth, tagSeen, node =>
    match node with
    | .alias anchor => do value d fuel depth tagSeen (← follow d anchor)
    | .scalar s =>
      match if tagSeen then none else localTag? s.properties.tag with
      | some name => do pure (.tagged name (← value d fuel depth true node))
      | none =>
        match s.atom? tagSeen with
        | some a => checkAtom a
        | none => failure
    | .sequence properties items =>
      match if tagSeen then none else localTag? properties.tag with
      | some name => do pure (.tagged name (← value d fuel depth true node))
      | none =>
        if depth = 0 then failure
        else do pure (.sequence (← valuesOfItems d fuel (depth - 1) [] items))
    | .mapping properties members =>
      match if tagSeen then none else localTag? properties.tag with
      | some name => do pure (.tagged name (← value d fuel depth true node))
      | none =>
        if depth = 0 then failure
        else do pure (.mapping (← valuesOfMembers d fuel (depth - 1) [] members))

/-- The values of the items behind those of `before` in reverse. -/
def valuesOfItems (d : Document) : Nat → Nat → List Value → List Node → Following (List Value)
  | 0, _, _, _ => failure
  | _ + 1, _, before, [] => pure before.reverse
  | fuel + 1, depth, before, item :: rest => do
    valuesOfItems d fuel depth ((← value d fuel depth false item) :: before) rest

/-- The values of the members behind those of `before` in reverse, which must
not hold their keys. -/
def valuesOfMembers (d : Document) : Nat → Nat → List (Value × Value) → List (Node × Node) →
    Following (List (Value × Value))
  | 0, _, _, _ => failure
  | _ + 1, _, before, [] => pure before.reverse
  | fuel + 1, depth, before, (key, content) :: rest => do
    let key ← value d fuel depth false key
    if before.any fun (k, _) => key.agrees k then failure
    valuesOfMembers d fuel depth ((key, ← value d fuel depth false content) :: before) rest

end

end GenesisForge.Yaml
