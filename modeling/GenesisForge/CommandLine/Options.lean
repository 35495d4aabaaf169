/-!
# Arguments of the command line

The program has one command, `build`, whose arguments are options with a value
and one switch. Arguments are read from left to right, so a request for
information counts only if nothing in front of it is wrong.
-/

namespace GenesisForge.CommandLine

inductive PathOption where
  | config
  | block
  | shadowBlock
  | validators
  | sszOutput
  | jsonOutput
deriving DecidableEq, Repr

namespace PathOption

def all : List PathOption := [config, block, shadowBlock, validators, sszOutput, jsonOutput]

/-- The name of an option behind its dashes. -/
def name : PathOption → String
  | config => "config"
  | block => "eth1-block"
  | shadowBlock => "shadow-fork-block"
  | validators => "validators"
  | sszOutput => "ssz-output"
  | jsonOutput => "json-output"

end PathOption

/-- The name of the switch for headers without attestation. -/
def standardHeaderName : String := "standard-header"

/-- What the command `build` is asked to do. -/
structure Options where
  config : String
  block : String
  shadowBlock : Option String
  validators : Option String
  sszOutput : Option String
  jsonOutput : Option String
  /-- Whether headers have no attestation. -/
  standardHeader : Bool
deriving DecidableEq, Repr

/-- What a command line asks for. -/
inductive Request where
  | build (options : Options)
  /-- How to use the program, or its version. -/
  | information
deriving DecidableEq, Repr

/-! ## Single arguments -/

/-- What an argument is, looked at alone. -/
inductive Argument where
  /-- The marker behind which no argument is an option. -/
  | endOfOptions
  | information
  | switch
  /-- An option whose value is the next argument. -/
  | named (option : PathOption)
  /-- An option with its value behind an equals sign. -/
  | assigned (option : PathOption) (value : String)
  | unknown
  /-- An argument that is no option. -/
  | word
deriving DecidableEq, Repr

namespace Argument

def ofName (name : String) (value : Option String) : Argument :=
  match value, PathOption.all.find? (·.name == name) with
  | some value, some option => assigned option value
  | none, some option => named option
  | none, none =>
    if name = standardHeaderName then switch
    else if name = "help" ∨ name = "version" then information
    else unknown
  | some _, none => unknown

/-- Splits the characters behind the dashes at the first equals sign. -/
def ofLong (chars : List Char) : Argument :=
  match chars.span (· != '=') with
  | (name, []) => ofName (String.ofList name) none
  | (name, _ :: value) => ofName (String.ofList name) (some (String.ofList value))

def ofText (text : String) : Argument :=
  match text.toList with
  | ['-', '-'] => endOfOptions
  | '-' :: '-' :: chars => ofLong chars
  | '-' :: c :: _ => if c = 'h' ∨ c = 'V' then information else unknown
  | _ => word

end Argument

/-- Whether an argument can be the value of the option in front of it: the
empty one cannot, and a leading dash is a value alone only. -/
def isValue (text : String) : Bool :=
  Argument.ofText text == .word && !text.isEmpty

/-! ## The command `build` -/

/-- The arguments of `build` that were read. -/
structure Given where
  paths : List (PathOption × String)
  standardHeader : Bool
deriving DecidableEq, Repr

namespace Given

def empty : Given := ⟨[], false⟩

def path? (given : Given) (option : PathOption) : Option String :=
  given.paths.lookup option

/-- Adds the path of an option, which is not empty and given once. -/
def add? (given : Given) (option : PathOption) (path : String) : Option Given :=
  if path.isEmpty ∨ (given.path? option).isSome then none
  else some { given with paths := (option, path) :: given.paths }

/-- Turns the switch on, which is given once. -/
def switchOn? (given : Given) : Option Given :=
  if given.standardHeader then none else some { given with standardHeader := true }

/-- The options, if the configuration and the block are among them. -/
def options? (given : Given) : Option Options := do
  pure {
    config := ← given.path? .config
    block := ← given.path? .block
    shadowBlock := given.path? .shadowBlock
    validators := given.path? .validators
    sszOutput := given.path? .sszOutput
    jsonOutput := given.path? .jsonOutput
    standardHeader := given.standardHeader }

end Given

/-- Reads the arguments of `build` behind those that were read. -/
def readBuild? (given : Given) : List String → Option Request
  | [] => given.options?.map .build
  | argument :: rest =>
    match Argument.ofText argument with
    | .endOfOptions => if rest.isEmpty then given.options?.map .build else none
    | .information => some .information
    | .switch => given.switchOn?.bind fun given => readBuild? given rest
    | .assigned option value => (given.add? option value).bind fun given => readBuild? given rest
    | .named option =>
      match rest with
      | value :: rest =>
        if isValue value then (given.add? option value).bind fun given => readBuild? given rest
        else none
      | [] => none
    | .unknown | .word => none

/-! ## Whole command lines -/

def buildNames : List String := ["build", "b"]

/-- The command that asks for information. -/
def helpName : String := "help"

/-- What a command line asks for, unless it is wrong. -/
def request? : List String → Option Request
  | [] => none
  | first :: rest =>
    if first ∈ buildNames then readBuild? .empty rest
    else if first = helpName then
      match rest with
      | [] => some .information
      | [command] => if command ∈ helpName :: buildNames then some .information else none
      | _ => none
    else if Argument.ofText first = .information then some .information
    else none

/-- How the program is used. -/
def usage : String :=
  "Usage: genesis-forge build --config <PATH> --eth1-block <PATH> [OPTIONS]\n" ++
  "\n" ++
  "Builds the genesis state of a beacon chain and writes it out.\n" ++
  "\n" ++
  "Options:\n" ++
  "  --config <PATH>             configuration of the consensus layer\n" ++
  "  --eth1-block <PATH>         genesis block of the execution layer\n" ++
  "  --shadow-fork-block <PATH>  block to anchor the state to instead\n" ++
  "  --validators <PATH>         genesis validators and their vendor\n" ++
  "  --ssz-output <PATH>         where to write the binary state\n" ++
  "  --json-output <PATH>        where to write the state as JSON\n" ++
  "  --standard-header           headers without attestation"

end GenesisForge.CommandLine
