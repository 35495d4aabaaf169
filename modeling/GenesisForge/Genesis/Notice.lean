/-!
# Notices

What a run tells its operator besides its result: facts and warnings, one line
each.
-/

namespace GenesisForge

/-- How much a notice matters. -/
inductive NoticeLevel where
  | info
  | warning
deriving DecidableEq, Repr

/-- A line for the operator. -/
structure Notice where
  level : NoticeLevel
  text : String
deriving DecidableEq, Repr

namespace Notice

def info (text : String) : Notice := ⟨.info, text⟩

def warning (text : String) : Notice := ⟨.warning, text⟩

def line (n : Notice) : String :=
  (match n.level with
    | .info => "INFO "
    | .warning => "WARN ") ++ n.text

end Notice

end GenesisForge
