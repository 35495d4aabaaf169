import GenesisForge.CommandLine.Options
import GenesisForge.CommandLine.ValidatorsFile
import GenesisForge.Execution.BlockText
import GenesisForge.Genesis.Build
import GenesisForge.Yaml.Structured

/-!
# Runs of the command line

A run reads the files that its options name, builds a state and writes its
artifacts. What the files hold and which paths can be written is all that a run
knows of its surroundings. Nothing is written before the state is built.
-/

namespace GenesisForge.CommandLine

/-- Why a run fails. -/
inductive Failure where
  /-- The configuration cannot be read or is malformed. -/
  | unloadable (path : String)
  | unreadableBlock (path : String)
  | undecodableBlock (path : String)
  | unreadableValidators (path : String)
  | undecodableValidators (path : String)
  /-- No state of the configured fork can be built. -/
  | unsupported (cause : GenesisError)
  /-- The state cannot be built. -/
  | unbuildable (cause : GenesisError)
  | unwritable (path : String)
deriving DecidableEq

namespace Failure

def message : Failure → String
  | unloadable path => "Failed to load " ++ path
  | unreadableBlock path => "Failed to read execution block " ++ path
  | undecodableBlock path => "Failed to decode execution block " ++ path
  | unreadableValidators path => "Failed to read validators " ++ path
  | undecodableValidators path => "Failed to decode validators " ++ path
  | unsupported cause => cause.message
  | unbuildable _ => "Failed to build genesis state"
  | unwritable path => "Failed to write " ++ path

/-- The text of what the failure comes from, where a build failed. -/
def cause? : Failure → Option String
  | unbuildable cause => some cause.message
  | _ => none

/-- The exit code of a run that failed. A tree that is too deep stops the run
short. -/
def exitCode : Failure → Nat
  | unbuildable .treeTooDeep => 101
  | _ => 1

end Failure

/-- What a run knows of the files around it. -/
structure Surroundings where
  /-- The text of the file of a path. -/
  read : String → Option String
  canWrite : String → Bool

/-- A file to be written. -/
structure Artifact where
  path : String
  bytes : ByteArray
deriving DecidableEq

/-! ## Reading -/

def loadConfig (read : String → Option String) (path : String) : Except Failure Config :=
  match (read path).map Config.ofText with
  | some (.ok config) => .ok config
  | _ => .error (.unloadable path)

def readBlock (read : String → Option String) (path : String) : Except Failure ExecutionBlock :=
  match read path with
  | none => .error (.unreadableBlock path)
  | some text =>
    match ExecutionBlock.ofText? text with
    | some block => .ok block
    | none => .error (.undecodableBlock path)

/-- The validators of a path, or none without a path. -/
def readValidators (read : String → Option String) : Option String → Except Failure ValidatorsFile
  | none => .ok .empty
  | some path =>
    match read path with
    | none => .error (.unreadableValidators path)
    | some text =>
      match (Yaml.Place.ofText? text).bind ValidatorsFile.read? with
      | some file => .ok file
      | none => .error (.undecodableValidators path)

/-- The paths of the files that a run may read. -/
def Options.inputs (options : Options) : List String :=
  [options.config, options.block] ++ options.validators.toList ++ options.shadowBlock.toList

/-- The configuration together with the vendor that a file of validators names. -/
def withVendor (config : Config) (file : ValidatorsFile) : Config :=
  match file.vendor with
  | some vendor => config.set ProposerTee.nameKey (.text vendor)
  | none => config

/-! ## Building -/

/-- The forms in which a state is to be written, and where. -/
def Options.outputs (options : Options) : List (String × ContentType) :=
  (options.sszOutput.map (·, ContentType.ssz)).toList ++
    (options.jsonOutput.map (·, ContentType.json)).toList

/-- What the options and the files together ask to build. -/
structure Order where
  config : Config
  block : ExecutionBlock
  validators : List GenesisValidator

/-- Reads what is to be built, except for the shadow block. -/
def readOrder (read : String → Option String) (options : Options) : Except Failure Order := do
  let config ← loadConfig read options.config
  let block ← readBlock read options.block
  let file ← readValidators read options.validators
  pure ⟨withVendor config file, block, file.validators⟩

/-- Reads the shadow block, if there is one, and adds it to the inputs. -/
def addShadowBlock (read : String → Option String) (options : Options) (inputs : GenesisInputs) :
    Except Failure GenesisInputs :=
  match options.shadowBlock with
  | none => .ok inputs
  | some path => (readBlock read path).map inputs.setShadowBlock

def buildOrder (H : Type) [HeaderBuild H] (read : String → Option String) (options : Options)
    (order : Order) : Except Failure (List Artifact) := do
  let (fork, inputs) ← (openGenesis order.config order.block).mapError .unsupported
  let inputs ← addShadowBlock read options inputs
  let inputs := inputs.addValidators order.validators
  let state ← (buildState (H := H) fork inputs).mapError .unbuildable
  pure (options.outputs.map fun (path, form) => ⟨path, artifact state form⟩)

/-- The files that a run has to write. -/
def artifacts (read : String → Option String) (options : Options) :
    Except Failure (List Artifact) := do
  let order ← readOrder read options
  if options.standardHeader then buildOrder BlockHeader read options order
  else buildOrder TeeBlockHeader read options order

/-! ## Writing -/

/-- What a run leaves behind. -/
structure Outcome where
  exitCode : Nat
  /-- The files that were written, in their order. -/
  written : List Artifact
  failure : Option Failure

namespace Outcome

/-- The outcome of a run that wrote some files and then failed. -/
def failed (written : List Artifact) (failure : Failure) : Outcome :=
  ⟨failure.exitCode, written, some failure⟩

/-- The outcome of a run that did all it had to. -/
def succeeded (written : List Artifact) : Outcome :=
  ⟨0, written, none⟩

/-- The outcome of a command line that is wrong. -/
def misused : Outcome :=
  ⟨2, [], none⟩

end Outcome

/-- Writes files one after the other, up to the first that cannot be written. -/
def write (canWrite : String → Bool) (files : List Artifact) : Outcome :=
  let written := files.takeWhile fun file => canWrite file.path
  match files.find? fun file => !canWrite file.path with
  | none => .succeeded written
  | some file => .failed written (.unwritable file.path)

def runBuild (around : Surroundings) (options : Options) : Outcome :=
  match artifacts around.read options with
  | .ok files => write around.canWrite files
  | .error failure => .failed [] failure

/-- Runs a command line. -/
def run (around : Surroundings) (arguments : List String) : Outcome :=
  match request? arguments with
  | none => .misused
  | some .information => .succeeded []
  | some (.build options) => runBuild around options

end GenesisForge.CommandLine
