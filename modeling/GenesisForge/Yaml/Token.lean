import GenesisForge.Bytes
import GenesisForge.Yaml.Cursor

/-!
# Tokens of a YAML text

The token stream makes the structure of the text explicit: indentation turns
into tokens that open and close collections, and a key without its mark `?` is
given one. Tags are byte strings, since their escapes may denote any bytes.
-/

namespace GenesisForge.Yaml

/-- How a scalar is written. -/
inductive Style where
  | plain
  | singleQuoted
  | doubleQuoted
  | literal
  | folded
deriving DecidableEq, Repr

/-- What a token is. -/
inductive TokenKind where
  | streamEnd
  /-- A directive that names a version, and whether that version can be read. -/
  | versionDirective (supported : Bool)
  | tagDirective (handle : String) (meaning : ByteArray)
  | documentStart
  | documentEnd
  | blockSequenceStart
  | blockMappingStart
  | blockEnd
  | flowSequenceStart
  | flowSequenceEnd
  | flowMappingStart
  | flowMappingEnd
  | blockEntry
  | flowEntry
  | key
  | value
  | alias (name : String)
  | anchor (name : String)
  | tag (handle : String) (suffix : ByteArray)
  | scalar (style : Style) (text : String)

/-- A token and the places where it starts and stops. -/
structure Token where
  kind : TokenKind
  start : Mark
  stop : Mark

end GenesisForge.Yaml
