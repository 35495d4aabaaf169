import GenesisForge.Text.Hex
import GenesisForge.Text.Visible

/-!
# Quoted text

A text between double quotes, as messages show it. A quote and a backslash
are preceded by a backslash, four control characters have a letter, and every
other character that does not show is written by its number.
-/

namespace GenesisForge.Text

/-- The written form of one character inside quotes. -/
def quotedChar (c : Char) : String :=
  if c = '"' then "\\\""
  else if c = '\\' then "\\\\"
  else if c = '\n' then "\\n"
  else if c = '\r' then "\\r"
  else if c = '\t' then "\\t"
  else if c.toNat = 0 then "\\0"
  else if isVisible c then c.toString
  else "\\u\x7b" ++ String.ofList (Nat.toDigits 16 c.toNat) ++ "\x7d"

/-- The text between double quotes. -/
def quoted (text : String) : String :=
  text.toList.foldl (fun out c => out ++ quotedChar c) "\"" ++ "\""

end GenesisForge.Text
