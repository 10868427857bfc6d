import LineGauge.Invocation
import LineGauge.Settings.Load

/-! A whole run on a file tree, from the arguments to the exit code. -/
namespace LineGauge

/-- Why a run ends without a result. -/
inductive RunError where
  | settings (e : Settings.LoadError)
  | check (e : CheckError)
  | output (e : Report.OutputError)

namespace RunError

def message : RunError → Text
  | .settings e => e.message
  | .check e => e.message
  | .output e => e.message

/-- The exit code: one for what the check found, two for what kept it from running. -/
def exitCode : RunError → Nat
  | .check (.missingRoot _) => 1
  | .check (.overlong _) => 1
  | _ => 2

end RunError

/-- What a user is told beside the result. -/
inductive Warning where
  /-- A root that is excluded or no source file. -/
  | skippedRoot (root : Path)
  /-- A project file that is passed over. -/
  | ignoredSettings (e : Settings.LoadError)

def Warning.message : Warning → Text
  | .skippedRoot root =>
    "skipping '".toList ++ root.display ++ "': excluded or not a recognized source file".toList
  | .ignoredSettings e => "ignoring pyproject.toml: ".toList ++ e.message

/-- What a run leaves behind. -/
structure Outcome where
  exitCode : Nat
  output : Text := []
  errors : List RunError := []
  warnings : List Warning := []

namespace Outcome

/-- The outcome of a run that an error ends. -/
def ofError (warnings : List Warning) (e : RunError) : Outcome :=
  { exitCode := e.exitCode, errors := [e], warnings := warnings }

/-- The outcome of a check with a report: it is written, missing roots are named, and the exit
code tells whether the run is a failure. -/
def ofReport (warnings : List Warning) (format : Report.Format) (coloured failed : Bool)
    (r : Report) : Outcome :=
  match r.output format coloured with
  | .error e => ofError warnings (.output e)
  | .ok text =>
    { exitCode := if failed || !r.missing.isEmpty then 1 else 0
      output := text
      errors := r.missing.map fun root => .check (.missingRoot root)
      warnings := warnings }

end Outcome

/-- Checks what an invocation asks for. Overlong lines in strict mode are reported like others. -/
def Invocation.run (i : Invocation) (coloured : Bool) (s : Snapshot) (cwd : Path)
    (warnings : List Warning) : Outcome :=
  let warnings := warnings ++ (skippedRoots i.config s cwd i.roots).map .skippedRoot
  match check i.config s cwd i.roots with
  | .ok r => .ofReport warnings i.format coloured false r
  | .error (.overlong r) => .ofReport warnings i.format coloured true r
  | .error e => .ofError warnings (.check e)

/-- A run with the arguments of a command line; a report as text may be coloured. -/
def run (coloured : Bool) (s : Snapshot) (cwd : Path) (a : Arguments) : Outcome :=
  let warnings :=
    match a.config with
    | some _ => []
    | none => ((Settings.loadProject s cwd).2.map Warning.ignoredSettings).toList
  match Settings.load s cwd a.config with
  | .error e => .ofError warnings (.settings e)
  | .ok settings =>
    match Invocation.resolve cwd a settings with
    | .error e => .ofError warnings (.check e)
    | .ok i => i.run coloured s cwd warnings

end LineGauge
