import GenesisForge.CommandLine.Run

/-!
# The program

Reads the files that a run may look at, computes the run and writes its files.
-/

namespace GenesisForge.CommandLine

/-- The text of a file, if there is one and it can be read. -/
def readText (path : String) : IO (Option String) :=
  try some <$> IO.FS.readFile path catch _ => pure none

/-- The texts of the files that a run may read. -/
def readInputs (options : Options) : IO (String → Option String) := do
  let texts ← options.inputs.mapM fun path => do pure (path, ← readText path)
  pure fun path => (texts.lookup path).join

/-- Writes the files in their order, up to the first that cannot be written. -/
def writeArtifacts : List Artifact → IO (Option Failure)
  | [] => pure none
  | file :: rest => do
    let written ← try IO.FS.writeBinFile file.path file.bytes; pure true catch _ => pure false
    if written then writeArtifacts rest else pure (some (.unwritable file.path))

/-- Tells why a run failed, and gives its exit code. -/
def report (failure : Failure) : IO UInt32 := do
  IO.eprintln ("Error: " ++ failure.message)
  match failure.cause? with
  | some cause => IO.eprintln ("\nCaused by:\n    " ++ cause)
  | none => pure ()
  pure failure.exitCode.toUInt32

/-- Runs the command `build` on the files around. -/
def execute (options : Options) : IO UInt32 := do
  match artifacts (← readInputs options) options with
  | .error failure => report failure
  | .ok files =>
    match ← writeArtifacts files with
    | some failure => report failure
    | none => pure 0

end GenesisForge.CommandLine

open GenesisForge.CommandLine

/-- Runs a command line. -/
def main (arguments : List String) : IO UInt32 :=
  match request? arguments with
  | some (.build options) => execute options
  | some .information => do
    IO.println usage
    pure 0
  | none => do
    IO.eprintln usage
    pure 2
