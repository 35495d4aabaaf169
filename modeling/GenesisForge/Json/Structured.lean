import GenesisForge.Json.Parse
import GenesisForge.Structured

/-!
# JSON as structured documents

A number counts as unsigned only if it is written in digits alone. The members
of a record may also be given as an array of exactly their values in order.
-/

namespace GenesisForge.Json

def text? : Json → Option String
  | .string written => unescape? written
  | _ => none

/-- The text of a string that is written without escapes. -/
def verbatim? : Json → Option String
  | .string written => if written.contains '\\' then none else some written
  | _ => none

/-- The value of a number written in digits alone, below 2^64. -/
def unsigned? : Json → Option Nat
  | .number text => (Numeral.natural? 10 text.toList).filter (· < 2 ^ 64)
  | _ => none

/-- The members of an object with their names unescaped. -/
def named? (members : List (String × Json)) : Option (List (String × Json)) :=
  members.mapM fun (key, value) => (unescape? key).map (·, value)

/-- The values of some names in an object, or all the items of an array of as
many items. -/
def members? (names : List String) : Json → Option (List (Option Json))
  | .object members => (named? members).bind (Structured.select? names)
  | .array items => if items.length = names.length then some (items.map some) else none
  | _ => none

instance : Structured Json where
  text? := text?
  verbatim? := verbatim?
  unsigned? := unsigned?
  present?
    | .null => some none
    | document => some (some document)
  items?
    | .array items => some items
    | _ => none
  members? := members?

end GenesisForge.Json
