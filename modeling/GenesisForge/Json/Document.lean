/-!
# JSON documents

A document keeps numbers and strings as they are written: a number by its
text, a string by the characters between its quotes with their escapes. So
reading keeps what a later look may need, and writing copies.
-/

namespace GenesisForge

inductive Json where
  | null
  | boolean (b : Bool)
  /-- A number by its text. -/
  | number (text : String)
  /-- A string by the characters between its quotes. -/
  | string (written : String)
  | array (items : List Json)
  | object (members : List (String × Json))

instance : Inhabited Json := ⟨.null⟩

namespace Json

mutual

/-- Appends the text of a document, without any blanks. -/
def appendTo : Json → String → String
  | .null, out => out ++ "null"
  | .boolean b, out => out ++ (if b then "true" else "false")
  | .number text, out => out ++ text
  | .string written, out => (out.push '"' ++ written).push '"'
  | .array items, out => (appendItems true items (out.push '[')).push ']'
  | .object members, out => (appendMembers true members (out.push '\x7b')).push '\x7d'

/-- Appends the items of an array, a comma before each but the first. -/
def appendItems (isFirst : Bool) : List Json → String → String
  | [], out => out
  | item :: rest, out =>
    appendItems false rest (item.appendTo (if isFirst then out else out.push ','))

/-- Appends the members of an object, a comma before each but the first. -/
def appendMembers (isFirst : Bool) : List (String × Json) → String → String
  | [], out => out
  | (key, value) :: rest, out =>
    let out := if isFirst then out else out.push ','
    appendMembers false rest (value.appendTo (((out.push '"' ++ key).push '"').push ':'))

end

/-- The text of a document, without any blanks. -/
def render (document : Json) : String :=
  document.appendTo ""

end Json

end GenesisForge
