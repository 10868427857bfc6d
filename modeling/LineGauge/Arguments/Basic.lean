import LineGauge.Number.Argument
import LineGauge.Report.Output

/-! The command line as a record, and why one is refused. -/
namespace LineGauge

/-- What a command line says. Lists are empty and numbers are absent where it says nothing. -/
structure Arguments where
  paths : List Path := []
  exclude : List Path := []
  extend : Option Nat := none
  codeLength : Option Nat := none
  docsLength : Option Nat := none
  strict : Bool := false
  noStrict : Bool := false
  config : Option Path := none
  extensions : List Text := []
  format : Report.Format := .text
  jobs : Option Nat := none
  follow : Bool := false
  maxDepth : Option Nat := none
  gitignore : Bool := false
  deriving DecidableEq, Repr

namespace Arguments

/-- Why a command line gives no record. Asking for help or for the version ends the reading too. -/
inductive UsageError where
  /-- A value is missing, empty where it may not be, or none of the choices. -/
  | invalidValue
  /-- No option has this name. -/
  | unknownArgument
  /-- An option that may stand once stands twice. -/
  | repeated
  /-- A value is attached to an option that takes none. -/
  | tooManyValues
  /-- A value that has to be text is not UTF-8. -/
  | notUtf8
  | refused (refusal : Number.Refusal)
  | helpWanted
  | versionWanted
  deriving DecidableEq, Repr

/-- What a user is told about a command line that is refused. -/
def UsageError.message : UsageError → Text
  | .invalidValue => "a value is missing or not allowed".toList
  | .unknownArgument => "unexpected argument".toList
  | .repeated => "an option is given twice".toList
  | .tooManyValues => "a value for an option that takes none".toList
  | .notUtf8 => "a value is not valid UTF-8".toList
  | .refused refusal => refusal.message
  | .helpWanted => []
  | .versionWanted => []

/-- An option with a value. -/
inductive Valued where
  | exclude
  | extend
  | codeLength
  | docsLength
  | config
  | extensions
  | format
  | jobs
  | maxDepth
  deriving DecidableEq, Repr

/-- An option without a value. -/
inductive Switch where
  | strict
  | noStrict
  | follow
  | gitignore
  | help
  | version
  deriving DecidableEq, Repr

inductive Key where
  | valued (option : Valued)
  | switch (option : Switch)
  deriving DecidableEq, Repr

/-- The long name of an option. -/
def Key.name : Key → Text
  | .valued .exclude => "exclude".toList
  | .valued .extend => "extend".toList
  | .valued .codeLength => "code-length".toList
  | .valued .docsLength => "docs-length".toList
  | .valued .config => "config".toList
  | .valued .extensions => "ext".toList
  | .valued .format => "format".toList
  | .valued .jobs => "jobs".toList
  | .valued .maxDepth => "max-depth".toList
  | .switch .strict => "strict".toList
  | .switch .noStrict => "no-strict".toList
  | .switch .follow => "follow".toList
  | .switch .gitignore => "gitignore".toList
  | .switch .help => "help".toList
  | .switch .version => "version".toList

/-- All options. -/
def keys : List Key :=
  [.valued .exclude, .valued .extend, .valued .codeLength, .valued .docsLength, .switch .strict,
    .switch .noStrict, .valued .config, .valued .extensions, .valued .format, .valued .jobs,
    .switch .follow, .valued .maxDepth, .switch .gitignore, .switch .help, .switch .version]

/-- The option of a long name. -/
def longKey? (name : Text) : Option Key := keys.find? (·.name == name)

/-- How to call the program. -/
def helpText : Text :=
  "A utility for keeping line lengths within PEP 8 standards\n\nOptions:\n".toList ++
    keys.flatMap fun key =>
      "  --".toList ++ key.name ++
        (match key with
          | .valued _ => " <VALUE>\n".toList
          | .switch _ => "\n".toList)

/-- The name and the version of the program. -/
def versionText : Text := "len8 0.3.0\n".toList

/-- The option of a short name. -/
def shortKey? (name : Char) : Option Key :=
  match name with
  | 'x' => some (.valued .exclude)
  | 'l' => some (.valued .extend)
  | 'c' => some (.valued .config)
  | 'j' => some (.valued .jobs)
  | 's' => some (.switch .strict)
  | 'h' => some (.switch .help)
  | 'V' => some (.switch .version)
  | _ => none

end Arguments

end LineGauge
