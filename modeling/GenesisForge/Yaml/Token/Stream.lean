import GenesisForge.Yaml.Token.Properties
import GenesisForge.Yaml.Token.Scalars

/-!
# The token stream of a text

A word becomes a key only when a colon follows it on the same line, so its
place among the tokens is remembered until then, one place for every open
bracket and one for the blocks around them. When the colon comes, the token
that opens a key is put in at that place, and if the word stands deeper than
the block around it, the token that opens a mapping before it.

The reading fails on a text that no token sequence describes.
-/

namespace GenesisForge.Yaml

/-- A place where a key may have started. -/
structure PossibleKey where
  /-- Whether only a key may stand there. -/
  isRequired : Bool
  /-- The number of tokens in front of it. -/
  position : Nat
  mark : Mark

/-- The state between two tokens. -/
structure Scan where
  cursor : Cursor
  tokens : Array Token
  /-- The columns of the open blocks, the innermost first. -/
  blocks : List Nat
  /-- Whether a key may start at the cursor. -/
  keyAllowed : Bool
  /-- The possible keys inside the open brackets, the innermost first. -/
  inner : List (Option PossibleKey)
  /-- The possible key outside all brackets. -/
  outer : Option PossibleKey

namespace Scan

/-- Whether a bracket is open. -/
def inFlow (s : Scan) : Bool :=
  !s.inner.isEmpty

/-- The column of the innermost block. -/
def indent? (s : Scan) : Option Nat :=
  s.blocks.head?

def add (s : Scan) (t : Token) : Scan :=
  { s with tokens := s.tokens.push t }

/-- Adds a token for the next `count` characters and takes them. -/
def addMark (s : Scan) (kind : TokenKind) (count : Nat) : Scan :=
  let after := s.cursor.skipMany count
  { s.add ⟨kind, s.cursor.mark, after.mark⟩ with cursor := after }

/-- The possible key of the innermost bracket. -/
def key (s : Scan) : Option PossibleKey :=
  match s.inner with
  | k :: _ => k
  | [] => s.outer

/-- Replaces the possible key of the innermost bracket. -/
def setKey (s : Scan) (k : Option PossibleKey) : Scan :=
  match s.inner with
  | _ :: rest => { s with inner := k :: rest }
  | [] => { s with outer := k }

/-- Gives up the possible key, which must not be required. -/
def dropKey? (s : Scan) : Option Scan :=
  if s.key.any (·.isRequired) then none else some (s.setKey none)

/-- Remembers that a key may start at the cursor. -/
def saveKey? (s : Scan) : Option Scan :=
  if s.keyAllowed then
    let isRequired := !s.inFlow && s.indent? == some s.cursor.mark.column
    s.dropKey?.map (·.setKey (some ⟨isRequired, s.tokens.size, s.cursor.mark⟩))
  else some s

/-- A key stays possible on its own line and for 1024 bytes. -/
def keepKey? (here : Mark) : Option PossibleKey → Option (Option PossibleKey)
  | some k =>
    if k.mark.line < here.line || k.mark.offset + 1024 < here.offset then
      if k.isRequired then none else some none
    else some (some k)
  | none => some none

/-- Gives up the keys that are no longer possible at the cursor. -/
def dropStaleKeys? (s : Scan) : Option Scan := do
  let inner ← s.inner.mapM (keepKey? s.cursor.mark)
  let outer ← keepKey? s.cursor.mark s.outer
  pure { s with inner := inner, outer := outer }

/-- Opens a block at a column right of the innermost one, its token standing at
`position`. -/
def openBlock (s : Scan) (column : Nat) (kind : TokenKind) (position : Nat) (mark : Mark) : Scan :=
  if s.inFlow || s.indent?.any (column ≤ ·) then s
  else
    { s with
      blocks := column :: s.blocks
      tokens := s.tokens.insertIdxIfInBounds position ⟨kind, mark, mark⟩ }

/-- Closes the blocks right of a column, `none` closing all of them. -/
def closeBlocks (s : Scan) (column : Option Nat) : Scan :=
  if s.inFlow then s
  else
    let closed := s.blocks.takeWhile fun block => column.all (· < block)
    { s with
      blocks := s.blocks.drop closed.length
      tokens := s.tokens ++ closed.toArray.map fun _ => ⟨.blockEnd, s.cursor.mark, s.cursor.mark⟩ }

/-- Goes over blanks, comments and line breaks. Tabs count as blanks only where
no key may start or inside brackets. -/
def skipGap : Nat → Scan → Scan
  | 0, s => s
  | rounds + 1, s =>
    let c := s.cursor
    let c := if c.mark.offset == 0 && c.sees '\ufeff' then c.skip else c
    let tabs := s.inFlow || !s.keyAllowed
    let c := c.skipWhile fun ch => ch == ' ' || (tabs && ch == '\t')
    let c := if c.sees '#' then c.skipWhile (!isBreak ·) else c
    if c.next?.any isBreak then
      skipGap rounds { s with cursor := c.takeBreak.2, keyAllowed := s.keyAllowed || !s.inFlow }
    else { s with cursor := c }

/-- Adds a token that a reader of its own takes. -/
def addTaken (s : Scan) (taken : Option (Token × Cursor)) (keyAllowed : Bool) : Option Scan :=
  taken.map fun (t, after) => { s.add t with cursor := after, keyAllowed := keyAllowed }

/-- A mark between documents closes all blocks. -/
def addDocumentMark (s : Scan) (kind : TokenKind) : Option Scan :=
  (s.closeBlocks none).dropKey?.map fun s => { s.addMark kind 3 with keyAllowed := false }

def addOpening (s : Scan) (kind : TokenKind) : Option Scan :=
  s.saveKey?.map fun s => { s.addMark kind 1 with keyAllowed := true, inner := none :: s.inner }

def addClosing (s : Scan) (kind : TokenKind) : Option Scan :=
  s.dropKey?.map fun s => { s.addMark kind 1 with keyAllowed := false, inner := s.inner.drop 1 }

/-- The mark of a sequence entry. -/
def addBlockEntry (s : Scan) : Option Scan :=
  if s.inFlow || s.keyAllowed then
    let s := s.openBlock s.cursor.mark.column .blockSequenceStart s.tokens.size s.cursor.mark
    s.dropKey?.map fun s => { s.addMark .blockEntry 1 with keyAllowed := true }
  else none

/-- The mark of a key. -/
def addKeyMark (s : Scan) : Option Scan :=
  if s.inFlow || s.keyAllowed then
    let s := s.openBlock s.cursor.mark.column .blockMappingStart s.tokens.size s.cursor.mark
    s.dropKey?.map fun s => { s.addMark .key 1 with keyAllowed := !s.inFlow }
  else none

/-- The mark of a value, which turns a possible key into one. -/
def addValueMark (s : Scan) : Option Scan :=
  match s.key with
  | some k =>
    let s := { s with tokens := s.tokens.insertIdxIfInBounds k.position ⟨.key, k.mark, k.mark⟩ }
    let s := s.openBlock k.mark.column .blockMappingStart k.position k.mark
    some { (s.setKey none).addMark .value 1 with keyAllowed := false }
  | none =>
    if s.inFlow || s.keyAllowed then
      let s := s.openBlock s.cursor.mark.column .blockMappingStart s.tokens.size s.cursor.mark
      some { s.addMark .value 1 with keyAllowed := !s.inFlow }
    else none

/-- The end of the text closes all blocks. -/
def addEnd (s : Scan) : Option Scan :=
  (s.closeBlocks none).dropKey?.map fun s => s.addMark .streamEnd 0

/-- Whether a plain scalar may start with the character, given the next one. -/
def startsPlain (inFlow : Bool) (ch : Char) (following : Option Char) : Bool :=
  if ch == '-' then !following.any isBlank
  else if ch == '?' || ch == ':' then !inFlow && !isGap following
  else !(isBlank ch || isBreak ch || isFlowMark ch || "#&*!|>'\"%@".contains ch || ch.toNat == 0x60)

/-- Adds the token that starts with `ch` at the cursor. `bound` is above the
number of characters left. -/
def addTokenAt (s : Scan) (bound : Nat) (ch : Char) : Option Scan :=
  let following := s.cursor.ahead? 1
  let column := s.cursor.mark.column
  if column == 0 && ch == '%' then
    (s.closeBlocks none).dropKey?.bind fun s => s.addTaken (takeDirective s.cursor) false
  else if s.cursor.atDocumentMark then
    s.addDocumentMark (if ch == '-' then .documentStart else .documentEnd)
  else if ch == '[' then s.addOpening .flowSequenceStart
  else if ch == '\x7b' then s.addOpening .flowMappingStart
  else if ch == ']' then s.addClosing .flowSequenceEnd
  else if ch == '\x7d' then s.addClosing .flowMappingEnd
  else if ch == ',' then
    s.dropKey?.map fun s => { s.addMark .flowEntry 1 with keyAllowed := true }
  else if ch == '-' && isGap following then s.addBlockEntry
  else if ch == '?' && (s.inFlow || isGap following) then s.addKeyMark
  else if ch == ':' && (s.inFlow || isGap following) then s.addValueMark
  else if ch == '*' then s.saveKey?.bind fun s => s.addTaken (takeName true s.cursor) false
  else if ch == '&' then s.saveKey?.bind fun s => s.addTaken (takeName false s.cursor) false
  else if ch == '!' then s.saveKey?.bind fun s => s.addTaken (takeTag s.inFlow s.cursor) false
  else if (ch == '|' || ch == '>') && !s.inFlow then
    s.dropKey?.bind fun s => s.addTaken (takeBlock (ch == '|') s.indent? bound s.cursor) true
  else if ch == '\'' || ch == '"' then
    s.saveKey?.bind fun s => s.addTaken (takeQuoted (ch == '\'') bound s.cursor) false
  else if startsPlain s.inFlow ch following then
    s.saveKey?.bind fun s =>
      let indent := (s.indent?.map (· + 1)).getD 0
      (takePlain s.inFlow indent bound s.cursor).bind fun (t, broken, after) =>
        s.addTaken (some (t, after)) broken
  else none

/-- Adds the tokens up to the end of the text. Every round but the last takes a
character, so the rounds stay above the number of characters left. -/
def finish : Nat → Scan → Option (Array Token)
  | 0, _ => none
  | rounds + 1, s =>
    match (s.skipGap (rounds + 1)).dropStaleKeys? with
    | none => none
    | some s =>
      let s := s.closeBlocks (some s.cursor.mark.column)
      match s.cursor.next? with
      | none => s.addEnd.map (·.tokens)
      | some ch =>
        match s.addTokenAt (rounds + 1) ch with
        | none => none
        | some s => finish rounds s

end Scan

/-- The text without the mark of its byte order. -/
def withoutOrderMark : List Char → List Char
  | '\ufeff' :: rest => rest
  | chars => chars

/-- The tokens of a text, the last of them the end of the stream. -/
def tokens? (text : String) : Option (Array Token) :=
  let chars := withoutOrderMark text.toList
  if chars.all isAllowed then
    Scan.finish (chars.length + 1) ⟨⟨chars, ⟨0, 0, 0⟩⟩, #[], [], true, [], none⟩
  else none

end GenesisForge.Yaml
