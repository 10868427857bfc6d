import LineGauge.Settings.Decode
import LineGauge.Tree.Locate

/-! Settings from a file: from the one that is named, or else from the project file of the working
directory, if it is there. A named file has to be good; a bad project file is passed over. -/
namespace LineGauge.Settings

/-- The project file. -/
def projectFile : Path := .ofText "pyproject.toml".toList

/-- What is wrong with a settings file. -/
inductive Reason where
  | unreadable (fault : AccessFault)
  | notUtf8
  | malformed
  | mistyped (e : TypeError)

def Reason.message : Reason → Text
  | .unreadable fault => fault.message
  | .notUtf8 => "stream did not contain valid UTF-8".toList
  | .malformed => "not a TOML document".toList
  | .mistyped e => e.message

/-- A settings file that cannot be used. -/
structure LoadError where
  path : Path
  reason : Reason

/-- The kind of error and the file. -/
def LoadError.heading (e : LoadError) : Text :=
  "ConfigurationError: '".toList ++ e.path.display ++ "'".toList

/-- The heading and, after it, the reason. -/
def LoadError.message (e : LoadError) : Text :=
  e.heading ++ ": ".toList ++ e.reason.message

/-- The settings in a file. -/
def read (s : Snapshot) (cwd file : Path) : Except LoadError Settings :=
  match s.readGiven cwd file with
  | .error fault => .error ⟨file, .unreadable fault⟩
  | .ok content =>
    match Utf8.decode? content with
    | none => .error ⟨file, .notUtf8⟩
    | some t =>
      match parse t with
      | .ok settings => .ok settings
      | .error .malformed => .error ⟨file, .malformed⟩
      | .error (.mistyped e) => .error ⟨file, .mistyped e⟩

/-- The settings in a file that is named, with its paths taken from the directory of the file. -/
def loadNamed (s : Snapshot) (cwd file : Path) : Except LoadError Settings :=
  match read s cwd file with
  | .error e => .error e
  | .ok settings => .ok (settings.rebase (file.parent?.getD ⟨[]⟩))

/-- The settings in the project file, and what is wrong with it if it is passed over. -/
def loadProject (s : Snapshot) (cwd : Path) : Settings × Option LoadError :=
  if s.isFile cwd projectFile then
    match read s cwd projectFile with
    | .ok settings => (settings, none)
    | .error e => ({}, some e)
  else ({}, none)

/-- The settings for a run. -/
def load (s : Snapshot) (cwd : Path) (named : Option Path) : Except LoadError Settings :=
  match named with
  | some file => loadNamed s cwd file
  | none => .ok (loadProject s cwd).1

end LineGauge.Settings
