import LineGauge.Path.Basic

/-! The settings a project keeps in its TOML file, in a table of their own below `tool`. -/
namespace LineGauge

/-- What a settings file says. Lists are empty and values are absent where it says nothing. -/
structure Settings where
  /-- The roots to check when the command line names none. -/
  roots : List Path := []
  exclude : List Path := []
  codeLength : Option Nat := none
  docsLength : Option Nat := none
  extend : Option Nat := none
  strict : Option Bool := none
  extensions : List Text := []
  deriving DecidableEq, Repr

namespace Settings

/-- The settings with their relative paths taken from a base. -/
def rebase (s : Settings) (base : Path) : Settings :=
  { s with roots := s.roots.map base.join, exclude := s.exclude.map base.join }

end Settings

end LineGauge
