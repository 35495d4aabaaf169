import GenesisForge.Text.Hex

/-!
# Strings as JSON writes them

The characters between the quotes of a JSON string, and the text that they
stand for. A character outside the basic plane may be written as a pair of
`\u` escapes; an escape that is one half of such a pair alone stands for
nothing.
-/

namespace GenesisForge.Json

/-- The unit that four hexadecimal digits denote. -/
def unit? (a b c d : Char) : Option Nat := do
  let a ← Hex.digitValue? a
  let b ← Hex.digitValue? b
  let c ← Hex.digitValue? c
  let d ← Hex.digitValue? d
  pure (4096 * a + 256 * b + 16 * c + d)

/-- The character that a letter after a backslash stands for. -/
def escaped? : Char → Option Char
  | '"' => some '"'
  | '\\' => some '\\'
  | '/' => some '/'
  | 'b' => some '\x08'
  | 'f' => some '\x0c'
  | 'n' => some '\n'
  | 'r' => some '\r'
  | 't' => some '\t'
  | _ => none

/-- Puts in front of `out`, which is in reverse, the text of the written characters. -/
def unescapeOnto : List Char → List Char → Option (List Char)
  | out, [] => some out.reverse
  | out, '\\' :: 'u' :: a :: b :: c :: d :: rest =>
    match unit? a b c d with
    | none => none
    | some high =>
      if high < 0xD800 ∨ 0xDFFF < high then unescapeOnto (Char.ofNat high :: out) rest
      else if 0xDC00 ≤ high then none
      else
        match rest with
        | '\\' :: 'u' :: e :: f :: g :: h :: rest =>
          match unit? e f g h with
          | none => none
          | some low =>
            if 0xDC00 ≤ low ∧ low ≤ 0xDFFF then
              unescapeOnto
                (Char.ofNat (0x10000 + 1024 * (high - 0xD800) + (low - 0xDC00)) :: out) rest
            else none
        | _ => none
  | out, '\\' :: c :: rest =>
    match escaped? c with
    | none => none
    | some e => unescapeOnto (e :: out) rest
  | out, c :: rest => unescapeOnto (c :: out) rest

/-- The text that the written characters of a string stand for. -/
def unescape? (written : String) : Option String :=
  (unescapeOnto [] written.toList).map String.ofList

end GenesisForge.Json
