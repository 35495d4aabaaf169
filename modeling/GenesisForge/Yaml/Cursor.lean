/-!
# Places in a YAML text

A cursor is the text that is left and the place where it starts. Offsets count
bytes, columns count characters. A line ends with a line feed, a carriage
return, both, or one of the three line separators of Unicode.
-/

namespace GenesisForge.Yaml

/-- A place in the text. -/
structure Mark where
  /-- Bytes before the place. -/
  offset : Nat
  line : Nat
  /-- Characters before the place on its line. -/
  column : Nat
deriving Repr

/-- The text that is left and the place where it starts. -/
structure Cursor where
  rest : List Char
  mark : Mark

/-- A space or a tab. -/
def isBlank (c : Char) : Bool :=
  c == ' ' || c == '\t'

/-- A character that ends a line. -/
def isBreak (c : Char) : Bool :=
  c == '\r' || c == '\n' || c.toNat == 0x85 || c.toNat == 0x2028 || c.toNat == 0x2029

/-- A blank, a line break or, as `none`, the end of the text. -/
def isGap : Option Char → Bool
  | none => true
  | some c => isBlank c || isBreak c

/-- A line break or the end of the text. -/
def isLineEnd : Option Char → Bool
  | none => true
  | some c => isBreak c

/-- A letter, a digit, a hyphen or an underscore, all of them ASCII. -/
def isWordChar (c : Char) : Bool :=
  c.isAlphanum || c == '_' || c == '-'

/-- Whether a text may hold the character at all. -/
def isAllowed (c : Char) : Bool :=
  let n := c.toNat
  n == 0x09 || n == 0x0A || n == 0x0D || (0x20 ≤ n && n ≤ 0x7E) || n == 0x85 ||
    (0xA0 ≤ n && n ≤ 0xFFFD) || 0x10000 ≤ n

/-- The place behind a character that does not end the line. -/
def Mark.past (m : Mark) (c : Char) : Mark :=
  ⟨m.offset + c.utf8Size, m.line, m.column + 1⟩

namespace Cursor

def next? (c : Cursor) : Option Char :=
  c.rest.head?

/-- The character `i` places ahead. -/
def ahead? (c : Cursor) (i : Nat) : Option Char :=
  c.rest[i]?

/-- Whether the next character is `ch`. -/
def sees (c : Cursor) (ch : Char) : Bool :=
  c.next? == some ch

/-- The cursor behind the next character. -/
def skip (c : Cursor) : Cursor :=
  match c.rest with
  | [] => c
  | ch :: rest => ⟨rest, c.mark.past ch⟩

/-- The cursor behind the next `count` characters. -/
def skipMany : Nat → Cursor → Cursor
  | 0, c => c
  | count + 1, c => skipMany count c.skip

/-- The cursor behind the characters that satisfy `p`. -/
def skipWhile (p : Char → Bool) (c : Cursor) : Cursor :=
  loop c.rest c.mark
where
  loop : List Char → Mark → Cursor
    | [], mark => ⟨[], mark⟩
    | ch :: rest, mark => if p ch then loop rest (mark.past ch) else ⟨ch :: rest, mark⟩

/-- The characters that satisfy `p` and the cursor behind them. -/
def takeWhile (p : Char → Bool) (c : Cursor) : List Char × Cursor :=
  (c.rest.takeWhile p, c.skipWhile p)

/-- Takes one line break and answers what it counts for: a line feed, or itself
if it is a line or paragraph separator. -/
def takeBreak (c : Cursor) : List Char × Cursor :=
  match c.rest with
  | '\r' :: '\n' :: rest => (['\n'], ⟨rest, ⟨c.mark.offset + 2, c.mark.line + 1, 0⟩⟩)
  | ch :: rest =>
    if isBreak ch then
      ([if ch.toNat == 0x2028 || ch.toNat == 0x2029 then ch else '\n'],
        ⟨rest, ⟨c.mark.offset + ch.utf8Size, c.mark.line + 1, 0⟩⟩)
    else ([], c)
  | [] => ([], c)

/-- The cursor behind blanks, a comment and the line break, if nothing else
stands on the line. -/
def skipLineRest? (c : Cursor) : Option Cursor :=
  let c := c.skipWhile isBlank
  let c := if c.sees '#' then c.skipWhile (!isBreak ·) else c
  if isLineEnd c.next? then some c.takeBreak.2 else none

/-- Whether a line starts here with a mark between documents. -/
def atDocumentMark (c : Cursor) : Bool :=
  c.mark.column == 0 &&
    (match c.rest with
      | '-' :: '-' :: '-' :: rest => isGap rest.head?
      | '.' :: '.' :: '.' :: rest => isGap rest.head?
      | _ => false)

end Cursor

end GenesisForge.Yaml
