import GenesisForge.Yaml.Node
import GenesisForge.Yaml.Token.Stream

/-!
# Documents from tokens

A node that the tokens leave out is an empty plain scalar. A text holds one
document at most: after it only marks that end documents may follow.

The fuel bounds the depth of the calls; every call takes a token or hands over
to one that does, so three times the number of tokens is enough.
-/

namespace GenesisForge.Yaml

/-- What is known between two tokens. -/
structure Reader where
  /-- The bytes of the whole text. -/
  source : ByteArray
  tokens : List Token
  /-- The meanings of the handles of tags. -/
  handles : List (String × ByteArray)
  /-- The numbers of the anchors by name. -/
  anchors : List (String × Nat)

/-- A reading that may fail. -/
abbrev Reading := StateT Reader Option

namespace Reading

/-- The next token. -/
def next : Reading Token := do
  match (← get).tokens with
  | token :: _ => pure token
  | [] => failure

/-- Goes past the next token. -/
def advance : Reading Unit :=
  modify fun r => { r with tokens := r.tokens.drop 1 }

/-- Gives an anchor its number. -/
def nameAnchor (name : String) : Reading Nat := do
  let anchors := (← get).anchors
  let number := anchors.length
  modify fun r => { r with anchors := (name, number) :: anchors.filter (·.1 != name) }
  pure number

/-- The anchor at the next token, if there is one, and where it ends. -/
def takeAnchor : Reading (Option (String × Token)) := do
  let token ← next
  match token.kind with
  | .anchor name => advance; pure (some (name, token))
  | _ => pure none

/-- The tag at the next token, if there is one, and where it ends. -/
def takeTagToken : Reading (Option (ByteArray × Token)) := do
  let token ← next
  match token.kind with
  | .tag handle suffix =>
    advance
    if handle.isEmpty then pure (some (suffix, token))
    else
      match (← get).handles.lookup handle with
      | some meaning => pure (some (meaning ++ suffix, token))
      | none => failure
  | _ => pure none

/-- The anchor and the tag at the next token, in either order, and the first
and the last token of them. -/
def takeProperties : Reading (Option String × Option ByteArray × Option (Token × Token)) := do
  match ← takeAnchor with
  | some (name, first) =>
    match ← takeTagToken with
    | some (tag, last) => pure (some name, some tag, some (first, last))
    | none => pure (some name, none, some (first, first))
  | none =>
    match ← takeTagToken with
    | some (tag, first) =>
      match ← takeAnchor with
      | some (name, last) => pure (some name, some tag, some (first, last))
      | none => pure (none, some tag, some (first, first))
    | none => pure (none, none, none)

/-- Whether the text of a scalar ends the part of the source that it was read
from, but for its closing quote. -/
def standsInSource (source : ByteArray) (start stop : Mark) (style : Style) (text : String) :
    Bool :=
  let part := source.extract start.offset stop.offset
  let bytes := text.toUTF8
  let closing :=
    match style with
    | .plain => some 0
    | .singleQuoted | .doubleQuoted => some 1
    | .literal | .folded => none
  closing.any fun closing =>
    bytes.size + closing ≤ part.size &&
      part.extract (part.size - closing - bytes.size) (part.size - closing) == bytes

def emptyScalar (properties : Properties) : Node :=
  .scalar ⟨properties, .plain, "", true⟩

/-- The token is not one of those that leave out a node in a block. -/
def startsBlockNode (kind : TokenKind) : Bool :=
  match kind with
  | .key | .value | .blockEnd => false
  | _ => true

/-- The token is not one of those that leave out a node in a flow mapping. -/
def startsFlowNode (kind : TokenKind) : Bool :=
  match kind with
  | .value | .flowEntry | .flowMappingEnd => false
  | _ => true

/-- The token is not one of those that leave out a node in a pair that stands
for itself in a flow sequence. -/
def startsPairNode (kind : TokenKind) : Bool :=
  match kind with
  | .value | .flowEntry | .flowSequenceEnd => false
  | _ => true

mutual

/-- The node at the next token. `inBlock` allows block collections, and
`indentless` a sequence whose entries stand at the column of the mapping. -/
def node : Nat → Bool → Bool → Reading Node
  | 0, _, _ => failure
  | fuel + 1, inBlock, indentless => do
    let token ← next
    match token.kind with
    | .alias name =>
      match (← get).anchors.lookup name with
      | some number => advance; pure (.alias number)
      | none => failure
    | _ =>
      let (name, tag, marks) ← takeProperties
      let token ← next
      let anchor ← name.mapM nameAnchor
      let properties : Properties := ⟨anchor, tag⟩
      match token.kind, inBlock, indentless with
      | .blockEntry, _, true => pure (.sequence properties (← indentlessItems fuel []))
      | .scalar style text, _, _ =>
        advance
        let start := (marks.map (·.1.start)).getD token.start
        let tag := if tag.any (· == "!".toUTF8) then none else tag
        pure (.scalar ⟨⟨anchor, tag⟩, style, text,
          standsInSource (← get).source start token.stop style text⟩)
      | .flowSequenceStart, _, _ => advance; pure (.sequence properties (← flowItems fuel true []))
      | .flowMappingStart, _, _ => advance; pure (.mapping properties (← flowMembers fuel true []))
      | .blockSequenceStart, true, _ => advance; pure (.sequence properties (← blockItems fuel []))
      | .blockMappingStart, true, _ => advance; pure (.mapping properties (← blockMembers fuel []))
      | _, _, _ => if marks.isSome then pure (emptyScalar properties) else failure

/-- The entries of a block sequence behind those of `before` in reverse. -/
def blockItems : Nat → List Node → Reading (List Node)
  | 0, _ => failure
  | fuel + 1, before => do
    match (← next).kind with
    | .blockEntry =>
      advance
      match (← next).kind with
      | .blockEntry | .blockEnd => blockItems fuel (emptyScalar .none :: before)
      | _ => blockItems fuel ((← node fuel true false) :: before)
    | .blockEnd => advance; pure before.reverse
    | _ => failure

/-- The entries of a sequence at the column of its mapping. -/
def indentlessItems : Nat → List Node → Reading (List Node)
  | 0, _ => failure
  | fuel + 1, before => do
    match (← next).kind with
    | .blockEntry =>
      advance
      match (← next).kind with
      | .blockEntry | .key | .value | .blockEnd =>
        indentlessItems fuel (emptyScalar .none :: before)
      | _ => indentlessItems fuel ((← node fuel true false) :: before)
    | _ => pure before.reverse

/-- The members of a block mapping behind those of `before` in reverse. -/
def blockMembers : Nat → List (Node × Node) → Reading (List (Node × Node))
  | 0, _ => failure
  | fuel + 1, before => do
    match (← next).kind with
    | .key =>
      advance
      let key ←
        if startsBlockNode (← next).kind then node fuel true true else pure (emptyScalar .none)
      let value ←
        match (← next).kind with
        | .value => do
          advance
          if startsBlockNode (← next).kind then node fuel true true else pure (emptyScalar .none)
        | _ => pure (emptyScalar .none)
      blockMembers fuel ((key, value) :: before)
    | .blockEnd => advance; pure before.reverse
    | _ => failure

/-- The items of a flow sequence behind those of `before` in reverse. -/
def flowItems : Nat → Bool → List Node → Reading (List Node)
  | 0, _, _ => failure
  | fuel + 1, isFirst, before => do
    match (← next).kind with
    | .flowSequenceEnd => advance; pure before.reverse
    | kind =>
      if !isFirst then
        match kind with
        | .flowEntry => advance
        | _ => failure
      match (← next).kind with
      | .flowSequenceEnd => advance; pure before.reverse
      | .key => advance; flowItems fuel false ((← flowPair fuel) :: before)
      | _ => flowItems fuel false ((← node fuel false false) :: before)

/-- A pair that stands for itself in a flow sequence. Where the key is left
out, the token that follows its mark is taken in its place. -/
def flowPair : Nat → Reading Node
  | 0 => failure
  | fuel + 1 => do
    let key ←
      if startsPairNode (← next).kind then node fuel false false
      else do
        advance
        pure (emptyScalar .none)
    let value ←
      match (← next).kind with
      | .value => do
        advance
        match (← next).kind with
        | .flowEntry | .flowSequenceEnd => pure (emptyScalar .none)
        | _ => node fuel false false
      | _ => pure (emptyScalar .none)
    pure (.mapping .none [(key, value)])

/-- The members of a flow mapping behind those of `before` in reverse. -/
def flowMembers : Nat → Bool → List (Node × Node) → Reading (List (Node × Node))
  | 0, _, _ => failure
  | fuel + 1, isFirst, before => do
    match (← next).kind with
    | .flowMappingEnd => advance; pure before.reverse
    | kind =>
      if !isFirst then
        match kind with
        | .flowEntry => advance
        | _ => failure
      match (← next).kind with
      | .flowMappingEnd => advance; pure before.reverse
      | .key =>
        advance
        let key ←
          if startsFlowNode (← next).kind then node fuel false false else pure (emptyScalar .none)
        let value ←
          match (← next).kind with
          | .value => do
            advance
            match (← next).kind with
            | .flowEntry | .flowMappingEnd => pure (emptyScalar .none)
            | _ => node fuel false false
          | _ => pure (emptyScalar .none)
        flowMembers fuel false ((key, value) :: before)
      | _ => flowMembers fuel false ((← node fuel false false, emptyScalar .none) :: before)

end

/-- The meanings that handles have without directives. -/
def commonHandles : List (String × ByteArray) :=
  [("!", "!".toUTF8), ("!!", "tag:yaml.org,2002:".toUTF8)]

/-- The directives at the next token. No handle may be given a meaning twice,
and there is one version at most. -/
def directives : Nat → Bool → List (String × ByteArray) → Reading (List (String × ByteArray))
  | 0, _, _ => failure
  | fuel + 1, hasVersion, handles => do
    match (← next).kind with
    | .versionDirective supported =>
      if hasVersion || !supported then failure
      advance
      directives fuel true handles
    | .tagDirective handle meaning =>
      if (handles.lookup handle).isSome then failure
      advance
      directives fuel hasVersion ((handle, meaning) :: handles)
    | _ => pure handles

/-- The root of an explicit document, whose content may be left out. -/
def content (fuel : Nat) : Reading Node := do
  match (← next).kind with
  | .versionDirective _ | .tagDirective .. | .documentStart | .documentEnd | .streamEnd =>
    pure (emptyScalar .none)
  | _ => node fuel true false

/-- Fails unless only marks that end documents are left. -/
def noFurther : Nat → Reading Unit
  | 0 => failure
  | fuel + 1 => do
    match (← next).kind with
    | .documentEnd => advance; noFurther fuel
    | .streamEnd => pure ()
    | _ => failure

/-- The document that the tokens make. -/
def document (fuel : Nat) : Reading Document := do
  match (← next).kind with
  | .streamEnd => pure ⟨none, []⟩
  | .versionDirective _ | .tagDirective .. | .documentStart =>
    let handles ← directives fuel false []
    modify fun r => { r with handles := handles ++ commonHandles }
    match (← next).kind with
    | .documentStart => advance
    | _ => failure
    let root ← content fuel
    noFurther fuel
    pure (.ofRoot root)
  | _ =>
    let root ← node fuel true false
    noFurther fuel
    pure (.ofRoot root)

end Reading

def Document.ofText? (text : String) : Option Document := do
  let tokens ← tokens? text
  let (document, _) ← (Reading.document (3 * tokens.size + 8)).run
    ⟨text.toUTF8, tokens.toList, Reading.commonHandles, []⟩
  pure document

end GenesisForge.Yaml
