import GenesisForge.Json.Document
import GenesisForge.Json.Text

/-!
# Reading JSON

The reader takes characters off the front of the text. It checks the grammar
of numbers and of escapes and leaves their meaning to the later look at the
document. Every call that is not on the last character of its text takes one
away, so twice the length of the text bounds the depth of the calls.
-/

namespace GenesisForge.Json

/-- The text after the blanks at its front. -/
def skipBlanks : List Char → List Char
  | ' ' :: rest | '\n' :: rest | '\t' :: rest | '\r' :: rest => skipBlanks rest
  | chars => chars

/-- Whether a character is a decimal digit. -/
def isDigit (c : Char) : Bool := '0' ≤ c && c ≤ '9'

/-- The characters up to the closing quote and those after it. `taken` holds
the characters so far in reverse. -/
def takeString : List Char → List Char → Option (String × List Char)
  | _, [] => none
  | taken, '"' :: rest => some (String.ofList taken.reverse, rest)
  | taken, '\\' :: 'u' :: a :: b :: c :: d :: rest =>
    if (unit? a b c d).isSome then takeString (d :: c :: b :: a :: 'u' :: '\\' :: taken) rest
    else none
  | taken, '\\' :: c :: rest =>
    if (escaped? c).isSome then takeString (c :: '\\' :: taken) rest else none
  | taken, c :: rest =>
    if c.toNat < 0x20 ∨ c = '\\' then none else takeString (c :: taken) rest

/-- A leading zero stands alone, and an integer has at least one digit. -/
def takeInteger : List Char → Option (List Char × List Char)
  | '0' :: rest =>
    match rest with
    | c :: _ => if isDigit c then none else some (['0'], rest)
    | [] => some (['0'], [])
  | chars =>
    let (digits, rest) := chars.span isDigit
    if digits.isEmpty then none else some (digits, rest)

/-- The fraction at the front, which may lack. -/
def takeFraction : List Char → Option (List Char × List Char)
  | '.' :: rest =>
    let (digits, rest) := rest.span isDigit
    if digits.isEmpty then none else some ('.' :: digits, rest)
  | chars => some ([], chars)

/-- The digits of an exponent behind its optional sign. -/
def takeExponentDigits (mark : List Char) : List Char → Option (List Char × List Char)
  | '+' :: rest =>
    let (digits, rest) := rest.span isDigit
    if digits.isEmpty then none else some (mark ++ '+' :: digits, rest)
  | '-' :: rest =>
    let (digits, rest) := rest.span isDigit
    if digits.isEmpty then none else some (mark ++ '-' :: digits, rest)
  | chars =>
    let (digits, rest) := chars.span isDigit
    if digits.isEmpty then none else some (mark ++ digits, rest)

/-- The exponent at the front, which may lack. -/
def takeExponent : List Char → Option (List Char × List Char)
  | 'e' :: rest => takeExponentDigits ['e'] rest
  | 'E' :: rest => takeExponentDigits ['E'] rest
  | chars => some ([], chars)

def takeNumber (chars : List Char) : Option (String × List Char) := do
  let (sign, chars) :=
    match chars with
    | '-' :: rest => (['-'], rest)
    | _ => ([], chars)
  let (whole, chars) ← takeInteger chars
  let (fraction, chars) ← takeFraction chars
  let (exponent, chars) ← takeExponent chars
  pure (String.ofList (sign ++ whole ++ fraction ++ exponent), chars)

mutual

/-- The value at the front, behind blanks. -/
def takeValue : Nat → List Char → Option (Json × List Char)
  | 0, _ => none
  | fuel + 1, chars =>
    match skipBlanks chars with
    | 'n' :: 'u' :: 'l' :: 'l' :: rest => some (.null, rest)
    | 't' :: 'r' :: 'u' :: 'e' :: rest => some (.boolean true, rest)
    | 'f' :: 'a' :: 'l' :: 's' :: 'e' :: rest => some (.boolean false, rest)
    | '"' :: rest => (takeString [] rest).map fun (written, rest) => (.string written, rest)
    | '[' :: rest =>
      match skipBlanks rest with
      | ']' :: rest => some (.array [], rest)
      | rest => (takeItems fuel [] rest).map fun (items, rest) => (.array items, rest)
    | '\x7b' :: rest =>
      match skipBlanks rest with
      | '\x7d' :: rest => some (.object [], rest)
      | rest => (takeMembers fuel [] rest).map fun (members, rest) => (.object members, rest)
    | chars => (takeNumber chars).map fun (text, rest) => (.number text, rest)

/-- The items of an array up to its closing bracket, behind the items of
`before` in reverse. -/
def takeItems : Nat → List Json → List Char → Option (List Json × List Char)
  | 0, _, _ => none
  | fuel + 1, before, chars =>
    match takeValue fuel chars with
    | none => none
    | some (item, rest) =>
      match skipBlanks rest with
      | ',' :: rest => takeItems fuel (item :: before) rest
      | ']' :: rest => some ((item :: before).reverse, rest)
      | _ => none

/-- The members of an object up to its closing brace, behind the members of
`before` in reverse. -/
def takeMembers : Nat → List (String × Json) → List Char → Option (List (String × Json) × List Char)
  | 0, _, _ => none
  | fuel + 1, before, chars =>
    match skipBlanks chars with
    | '"' :: rest =>
      match takeString [] rest with
      | none => none
      | some (key, rest) =>
        match skipBlanks rest with
        | ':' :: rest =>
          match takeValue fuel rest with
          | none => none
          | some (value, rest) =>
            match skipBlanks rest with
            | ',' :: rest => takeMembers fuel ((key, value) :: before) rest
            | '\x7d' :: rest => some (((key, value) :: before).reverse, rest)
            | _ => none
        | _ => none
    | _ => none

end

/-- The document that a text is, blanks around it left out. -/
def parse? (text : String) : Option Json :=
  let chars := text.toList
  match takeValue (2 * chars.length + 2) chars with
  | some (document, rest) => if (skipBlanks rest).isEmpty then some document else none
  | none => none

end GenesisForge.Json
