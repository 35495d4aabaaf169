import GenesisForge.Text.Hex
import GenesisForge.Yaml.Token

/-!
# Reading scalars

A scalar may span lines. Between two of its pieces stands a gap, the blanks and
line breaks that separate them: without a line break a gap stands for its
blanks, one line break stands for a space, and more of them for all but the
first. The content of a block scalar is what is indented below its header.

Each function is given a bound of its rounds. A bound above the number of
characters left is enough, since every round but the last takes one at least.
-/

namespace GenesisForge.Yaml

/-- What separates two pieces of a scalar. -/
structure Gap where
  /-- The blanks, if there is no line break. -/
  blanks : List Char
  /-- Whether there is a line break. -/
  broken : Bool
  /-- What the first line break counts for; nothing if it is escaped. -/
  first : List Char
  /-- What the further line breaks count for. -/
  more : List Char

namespace Gap

/-- Nothing between two pieces. -/
def none : Gap := ⟨[], false, [], []⟩

/-- A line break that is escaped. -/
def escapedBreak : Gap := ⟨[], true, [], []⟩

/-- The characters that the gap stands for. -/
def text (g : Gap) : List Char :=
  if g.broken then
    if g.first = ['\n'] then
      if g.more = [] then [' '] else g.more
    else g.first ++ g.more
  else g.blanks

/-- Takes the blanks and line breaks at the cursor. `tabsFrom` is the column
from which on a line of the gap may hold tabs. -/
def take (tabsFrom : Nat) : Nat → Gap → Cursor → Option (Gap × Cursor)
  | 0, g, c => some (g, c)
  | rounds + 1, g, c =>
    match c.next? with
    | Option.none => some (g, c)
    | some ch =>
      if isBlank ch then
        if g.broken && c.mark.column < tabsFrom && ch == '\t' then Option.none
        else
          take tabsFrom rounds
            (if g.broken then g else { g with blanks := g.blanks ++ [ch] }) c.skip
      else if isBreak ch then
        let (meaning, c) := c.takeBreak
        take tabsFrom rounds
          (if g.broken then { g with more := g.more ++ meaning }
            else ⟨[], true, meaning, []⟩) c
      else some (g, c)

end Gap

/-! ## Quoted scalars -/

/-- The character that a letter after a backslash stands for. -/
def escapedChar? : Char → Option Char
  | '0' => some '\x00'
  | 'a' => some '\x07'
  | 'b' => some '\x08'
  | 't' | '\t' => some '\t'
  | 'n' => some '\n'
  | 'v' => some '\x0b'
  | 'f' => some '\x0c'
  | 'r' => some '\r'
  | 'e' => some '\x1b'
  | ' ' => some ' '
  | '"' => some '"'
  | '/' => some '/'
  | '\\' => some '\\'
  | 'N' => some '\x85'
  | '_' => some '\xa0'
  | 'L' => some '\u2028'
  | 'P' => some '\u2029'
  | _ => none

/-- How many digits follow a letter that writes a character by its number. -/
def escapeDigits? : Char → Option Nat
  | 'x' => some 2
  | 'u' => some 4
  | 'U' => some 8
  | _ => none

/-- The number that hexadecimal digits denote. -/
def hexValue? (digits : List Char) : Option Nat :=
  digits.foldlM (fun n c => (Hex.digitValue? c).map (16 * n + ·)) 0

/-- The escape at the cursor, which is behind the backslash. -/
def takeEscape (c : Cursor) : Option (Char × Cursor) := do
  let letter ← c.next?
  match escapeDigits? letter with
  | some count =>
    let digits := (c.rest.drop 1).take count
    let n ← hexValue? digits
    if digits.length = count ∧ n ≤ 0x10FFFF ∧ ¬(0xD800 ≤ n ∧ n ≤ 0xDFFF) then
      pure (Char.ofNat n, c.skipMany (count + 1))
    else none
  | none => (escapedChar? letter).map (·, c.skip)

/-- Takes a piece of a quoted scalar up to a gap or its closing quote. The
characters of the scalar stand in `out` in reverse; the answer tells whether
the piece ends in an escaped line break. -/
def takeQuotedPiece (single : Bool) : Nat → List Char → Cursor →
    Option (List Char × Bool × Cursor)
  | 0, out, c => some (out, false, c)
  | rounds + 1, out, c =>
    match c.next? with
    | none => some (out, false, c)
    | some ch =>
      if isBlank ch || isBreak ch then some (out, false, c)
      else if single then
        if ch == '\'' then
          if c.ahead? 1 == some '\'' then takeQuotedPiece single rounds ('\'' :: out) (c.skipMany 2)
          else some (out, false, c)
        else takeQuotedPiece single rounds (ch :: out) c.skip
      else if ch == '"' then some (out, false, c)
      else if ch == '\\' then
        if (c.ahead? 1).any isBreak then some (out, true, c.skip.takeBreak.2)
        else
          match takeEscape c.skip with
          | none => none
          | some (escaped, c) => takeQuotedPiece single rounds (escaped :: out) c
      else takeQuotedPiece single rounds (ch :: out) c.skip

/-- Takes the pieces of a quoted scalar and its closing quote. -/
def takeQuotedPieces (single : Bool) : Nat → List Char → Cursor → Option (List Char × Cursor)
  | 0, _, _ => none
  | rounds + 1, out, c =>
    if c.atDocumentMark then none
    else
      match takeQuotedPiece single rounds out c with
      | none => none
      | some (out, escaped, c) =>
        match c.next? with
        | none => none
        | some ch =>
          if ch == (if single then '\'' else '"') then some (out.reverse, c.skip)
          else
            match Gap.take 0 (rounds + 1) (if escaped then Gap.escapedBreak else Gap.none) c with
            | none => none
            | some (gap, c) => takeQuotedPieces single rounds (gap.text.reverse ++ out) c

def takeQuoted (single : Bool) (bound : Nat) (c : Cursor) : Option (Token × Cursor) :=
  (takeQuotedPieces single bound [] c.skip).map fun (text, after) =>
    (⟨.scalar (if single then .singleQuoted else .doubleQuoted) (String.ofList text), c.mark,
      after.mark⟩, after)

/-! ## Plain scalars -/

/-- The brackets and the comma, which end a plain scalar inside brackets. -/
def isFlowMark (c : Char) : Bool :=
  c == ',' || c == '[' || c == ']' || c == '\x7b' || c == '\x7d'

/-- Takes a piece of a plain scalar up to a gap or a mark that ends the scalar.
The characters of the scalar stand in `out` in reverse. -/
def takePlainPiece (inFlow : Bool) : Nat → List Char → Cursor → Option (List Char × Cursor)
  | 0, out, c => some (out, c)
  | rounds + 1, out, c =>
    match c.next? with
    | none => some (out, c)
    | some ch =>
      let following := c.ahead? 1
      if isBlank ch || isBreak ch then some (out, c)
      else if inFlow && ch == ':' && following.any (fun d => isFlowMark d || d == '?') then none
      else if (ch == ':' && isGap following) || (inFlow && isFlowMark ch) then some (out, c)
      else takePlainPiece inFlow rounds (ch :: out) c.skip

/-- What a plain scalar consists of and where it ends. -/
structure PlainScalar where
  /-- The characters in reverse. -/
  reversed : List Char
  /-- The place behind the last piece. -/
  stop : Mark
  /-- Whether a line break follows the last piece. -/
  broken : Bool
  /-- The cursor behind the last gap. -/
  after : Cursor

/-- Takes the pieces of a plain scalar. `indent` is the least column of its
further lines outside brackets. -/
def takePlainPieces (inFlow : Bool) (indent : Nat) : Nat → List Char → Mark → Gap → Cursor →
    Option PlainScalar
  | 0, _, _, _, _ => none
  | rounds + 1, out, stop, gap, c =>
    if c.atDocumentMark || c.sees '#' then some ⟨out, stop, gap.broken, c⟩
    else
      match takePlainPiece inFlow rounds [] c with
      | none => none
      | some ([], c) => some ⟨out, stop, gap.broken, c⟩
      | some (piece, c) =>
        let out := piece ++ gap.text.reverse ++ out
        let stop := c.mark
        if c.next?.all fun ch => !(isBlank ch || isBreak ch) then some ⟨out, stop, false, c⟩
        else
          match Gap.take indent (rounds + 1) Gap.none c with
          | none => none
          | some (gap, c) =>
            if !inFlow && c.mark.column < indent then some ⟨out, stop, gap.broken, c⟩
            else takePlainPieces inFlow indent rounds out stop gap c

/-- The plain scalar at the cursor, and whether a line break follows it. -/
def takePlain (inFlow : Bool) (indent bound : Nat) (c : Cursor) :
    Option (Token × Bool × Cursor) :=
  (takePlainPieces inFlow indent bound [] c.mark Gap.none c).map fun s =>
    (⟨.scalar .plain (String.ofList s.reversed.reverse), c.mark, s.stop⟩, s.broken, s.after)

/-! ## Block scalars -/

/-- Which line breaks at the end of a block scalar belong to it. -/
inductive Chomping where
  | strip
  | clip
  | keep
deriving DecidableEq

def takeChomping (c : Cursor) : Option Chomping × Cursor :=
  if c.sees '+' then (some .keep, c.skip)
  else if c.sees '-' then (some .strip, c.skip)
  else (none, c)

/-- The indicator of indentation at the cursor, which may not be zero. -/
def takeIncrement (c : Cursor) : Option (Option Nat × Cursor) :=
  match c.next? with
  | some ch =>
    if ch == '0' then none
    else if ch.isDigit then some (some (ch.toNat - 48), c.skip)
    else some (none, c)
  | none => some (none, c)

/-- The indicators of a block scalar, in either order. -/
def takeIndicators (c : Cursor) : Option (Chomping × Option Nat × Cursor) :=
  match takeChomping c with
  | (some chomping, c) => (takeIncrement c).map fun (increment, c) => (chomping, increment, c)
  | (none, c) =>
    match takeIncrement c with
    | none => none
    | some (none, c) => some (.clip, none, c)
    | some (some increment, c) =>
      let (chomping, c) := takeChomping c
      some (chomping.getD .clip, some increment, c)

/-- The empty lines in front of a line of a block scalar. -/
structure EmptyLines where
  /-- What their line breaks count for. -/
  breaks : List Char
  /-- The place behind the last of them. -/
  stop : Mark
  /-- The greatest column reached. -/
  widest : Nat
  after : Cursor

/-- Takes empty lines. `indent` is the indentation of the content, zero while
it is not known; no tab may stand in front of that column. -/
def takeEmptyLines (indent : Nat) : Nat → EmptyLines → Option EmptyLines
  | 0, lines => some lines
  | rounds + 1, lines =>
    let c := skipIndent (rounds + 1) lines.after
    let widest := max lines.widest c.mark.column
    if (indent == 0 || c.mark.column < indent) && c.sees '\t' then none
    else if c.next?.any isBreak then
      let (meaning, after) := c.takeBreak
      takeEmptyLines indent rounds ⟨lines.breaks ++ meaning, after.mark, widest, after⟩
    else some { lines with widest := widest, after := c }
where
  skipIndent : Nat → Cursor → Cursor
    | 0, c => c
    | bound + 1, c =>
      if (indent == 0 || c.mark.column < indent) && c.sees ' ' then skipIndent bound c.skip else c

/-- The lines of a block scalar that are taken so far. -/
structure BlockLines where
  /-- The characters in reverse. -/
  reversed : List Char
  /-- What the break behind the last line counts for. -/
  lineBreak : List Char
  /-- What the breaks of the empty lines behind it count for. -/
  emptyBreaks : List Char
  /-- Whether the last line starts with a blank. -/
  blankStart : Bool
  stop : Mark
  after : Cursor

/-- Takes the lines that stand at `indent`. A line break between two lines of a
folded scalar that do not start with blanks counts for a space, or for nothing
if empty lines follow it. -/
def takeBlockLines (isLiteral : Bool) (indent : Nat) : Nat → BlockLines → Option BlockLines
  | 0, lines => some lines
  | rounds + 1, lines =>
    let c := lines.after
    if c.mark.column != indent || c.rest.isEmpty then some lines
    else
      let blankStart := c.next?.any isBlank
      let joint :=
        if !isLiteral && lines.lineBreak = ['\n'] && !lines.blankStart && !blankStart then
          (if lines.emptyBreaks = [] then [' '] else []) ++ lines.emptyBreaks
        else lines.lineBreak ++ lines.emptyBreaks
      let (content, c) := c.takeWhile (!isBreak ·)
      let (meaning, c) := c.takeBreak
      match takeEmptyLines indent (rounds + 1) ⟨[], c.mark, 0, c⟩ with
      | none => none
      | some empty =>
        takeBlockLines isLiteral indent rounds
          ⟨content.reverse ++ joint.reverse ++ lines.reversed, meaning, empty.breaks, blankStart,
            empty.stop, empty.after⟩

/-- The block scalar at the cursor, inside a block indented by `parent`, which
is `none` outside all blocks. -/
def takeBlock (isLiteral : Bool) (parent : Option Nat) (bound : Nat) (c : Cursor) :
    Option (Token × Cursor) := do
  let (chomping, increment, body) ← takeIndicators c.skip
  let body ← body.skipLineRest?
  let given := (increment.map (parent.getD 0 + ·)).getD 0
  let empty ← takeEmptyLines given bound ⟨[], body.mark, 0, body⟩
  let least := (parent.map (· + 1)).getD 0
  let indent := if given = 0 then max 1 (max least empty.widest) else given
  let lines ← takeBlockLines isLiteral indent bound
    ⟨[], [], empty.breaks, false, empty.stop, empty.after⟩
  let tail :=
    (if chomping = .strip then [] else lines.lineBreak) ++
      (if chomping = .keep then lines.emptyBreaks else [])
  pure (⟨.scalar (if isLiteral then .literal else .folded)
    (String.ofList (lines.reversed.reverse ++ tail)), c.mark, lines.stop⟩, lines.after)

end GenesisForge.Yaml
