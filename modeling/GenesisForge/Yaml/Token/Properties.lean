import GenesisForge.Text.Hex
import GenesisForge.Yaml.Token

/-!
# Reading anchors, tags and directives

An anchor or an alias is a name behind its mark. A tag is a handle and a
suffix; it may be written in full between angle brackets, and its suffix may
hold bytes written as a percent sign and two hexadecimal digits, which together
must form characters.
-/

namespace GenesisForge.Yaml

def takeName (isAlias : Bool) (c : Cursor) : Option (Token × Cursor) :=
  let (name, after) := c.skip.takeWhile isWordChar
  let ends := isGap after.next? ||
    after.next?.any fun ch =>
      ch == '?' || ch == ':' || ch == ',' || ch == ']' || ch == '\x7d' || ch == '%' || ch == '@' ||
        ch.toNat == 0x60
  if name.isEmpty || !ends then none
  else
    let name := String.ofList name
    some (⟨if isAlias then .alias name else .anchor name, c.mark, after.mark⟩, after)

/-! ## Tags -/

/-- Whether a suffix may hold the character. -/
def isTagChar (isVerbatim : Bool) (c : Char) : Bool :=
  isWordChar c || ";/?:@&=+$.%!~*'()".contains c ||
    (isVerbatim && (c == ',' || c == '[' || c == ']'))

/-- The byte written at the cursor by a percent sign and two digits. -/
def takeEscapedByte (c : Cursor) : Option (UInt8 × Cursor) :=
  match c.rest with
  | '%' :: high :: low :: _ => do
    let high ← Hex.digitValue? high
    let low ← Hex.digitValue? low
    pure ((16 * high + low).toUInt8, c.skipMany 3)
  | _ => none

/-- How many bytes follow the first byte of a character. -/
def continuationCount? (byte : UInt8) : Option Nat :=
  if byte &&& 0x80 == 0 then some 0
  else if byte &&& 0xE0 == 0xC0 then some 1
  else if byte &&& 0xF0 == 0xE0 then some 2
  else if byte &&& 0xF8 == 0xF0 then some 3
  else none

/-- Takes `count` escaped bytes that continue a character. -/
def takeContinuation : Nat → ByteArray → Cursor → Option (ByteArray × Cursor)
  | 0, out, c => some (out, c)
  | count + 1, out, c =>
    match takeEscapedByte c with
    | none => none
    | some (byte, c) =>
      if byte &&& 0xC0 == 0x80 then takeContinuation count (out.push byte) c else none

/-- Takes the bytes of one character written in escapes. -/
def takeEscapedChar (out : ByteArray) (c : Cursor) : Option (ByteArray × Cursor) := do
  let (byte, c) ← takeEscapedByte c
  let count ← continuationCount? byte
  takeContinuation count (out.push byte) c

/-- Takes the characters of a suffix; `out` holds its bytes so far. -/
def takeSuffixBytes (isVerbatim : Bool) : Nat → ByteArray → Cursor → Option (ByteArray × Cursor)
  | 0, out, c => some (out, c)
  | rounds + 1, out, c =>
    match c.next? with
    | none => some (out, c)
    | some ch =>
      if !isTagChar isVerbatim ch then some (out, c)
      else if ch == '%' then
        match takeEscapedChar out c with
        | none => none
        | some (out, c) => takeSuffixBytes isVerbatim rounds out c
      else takeSuffixBytes isVerbatim rounds (out.push ch.toNat.toUInt8) c.skip

/-- The suffix at the cursor behind the bytes of `start`. A byte of zero and
what follows it do not count. -/
def takeSuffix (isVerbatim : Bool) (start : ByteArray) (c : Cursor) :
    Option (ByteArray × Cursor) :=
  (takeSuffixBytes isVerbatim (c.rest.length) start c).map fun (bytes, c) =>
    (ByteArray.mk (bytes.data.takeWhile (· != 0)), c)

/-- The suffix at the cursor, of at least one character. -/
def takeSomeSuffix (isVerbatim : Bool) (c : Cursor) : Option (ByteArray × Cursor) :=
  if c.next?.any (isTagChar isVerbatim) then takeSuffix isVerbatim ByteArray.empty c else none

/-- The exclamation mark at the cursor with the word behind it, and whether
another exclamation mark closes it to a handle. -/
def takeHandle (c : Cursor) : Option (String × Bool × Cursor) :=
  if c.sees '!' then
    let (word, after) := c.skip.takeWhile isWordChar
    if after.sees '!' then some (String.ofList ('!' :: word ++ ['!']), true, after.skip)
    else some (String.ofList ('!' :: word), false, after)
  else none

/-- The tag at the cursor. -/
def takeTag (inFlow : Bool) (c : Cursor) : Option (Token × Cursor) := do
  let (handle, suffix, after) ←
    if c.ahead? 1 == some '<' then do
      let (suffix, after) ← takeSomeSuffix true (c.skipMany 2)
      if after.sees '>' then pure ("", suffix, after.skip) else none
    else do
      let (handle, isClosed, after) ← takeHandle c
      if isClosed then do
        let (suffix, after) ← takeSomeSuffix false after
        pure (handle, suffix, after)
      else do
        let (suffix, after) ← takeSuffix false (handle.drop 1).toString.toUTF8 after
        pure (if suffix.isEmpty then ("", "!".toUTF8, after) else ("!", suffix, after))
  if isGap after.next? || (inFlow && after.sees ',') then
    pure (⟨.tag handle suffix, c.mark, after.mark⟩, after)
  else none

/-! ## Directives -/

/-- The decimal number at the cursor, of at most nine digits. -/
def takeVersionNumber (c : Cursor) : Option (Nat × Cursor) :=
  let (digits, after) := c.takeWhile Char.isDigit
  if digits.isEmpty || 9 < digits.length then none
  else some (digits.foldl (fun n d => 10 * n + (d.toNat - 48)) 0, after)

/-- The version of a directive: 1.1 and 1.2 are supported. -/
def takeVersion (c : Cursor) : Option (TokenKind × Cursor) := do
  let (major, c) ← takeVersionNumber (c.skipWhile isBlank)
  if !c.sees '.' then none
  let (minor, c) ← takeVersionNumber c.skip
  pure (.versionDirective (major == 1 && (minor == 1 || minor == 2)), c)

/-- The handle of a directive and what it stands for. -/
def takeTagMeaning (c : Cursor) : Option (TokenKind × Cursor) := do
  let (handle, isClosed, c) ← takeHandle (c.skipWhile isBlank)
  if !isClosed && handle != "!" then none
  if !c.next?.any isBlank then none
  let (meaning, c) ← takeSomeSuffix true (c.skipWhile isBlank)
  if !isGap c.next? then none
  pure (.tagDirective handle meaning, c)

/-- The directive at the cursor and the rest of its line. -/
def takeDirective (c : Cursor) : Option (Token × Cursor) := do
  let (name, body) := c.skip.takeWhile isWordChar
  if !isGap body.next? then none
  let (kind, body) ←
    if name = "YAML".toList then takeVersion body
    else if name = "TAG".toList then takeTagMeaning body
    else none
  let after ← body.skipLineRest?
  pure (⟨kind, c.mark, body.mark⟩, after)

end GenesisForge.Yaml
