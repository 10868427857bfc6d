import LineGauge.Line.Scan
import LineGauge.Path.Basic

/-! What a check found: the overlong lines with their files, how many files were measured, and
the roots that do not exist. -/
namespace LineGauge

/-- An overlong line of a file. -/
structure Problem extends Overlong where
  path : Path
  deriving DecidableEq, Repr

/-- The result of a check, in the order of the visit. -/
structure Report where
  problems : List Problem := []
  filesChecked : Nat := 0
  missing : List Path := []
  deriving DecidableEq, Repr

namespace Report

/-- Whether no line is overlong. Missing roots do not count. -/
def isClean (r : Report) : Bool := r.problems.isEmpty

/-- The problems of one file, under the spelling of its path that came first. -/
structure Group where
  path : Path
  problems : List Problem
  deriving DecidableEq, Repr

/-- Puts a problem in front of the groups of the later ones. -/
def addFirst (p : Problem) : List Group → List Group
  | [] => [⟨p.path, [p]⟩]
  | g :: gs =>
    if p.path.sameAs g.path then ⟨p.path, p :: g.problems⟩ :: gs
    else ⟨p.path, [p]⟩ :: g :: gs

/-- Neighbouring problems of one file together. -/
def groupsOf (problems : List Problem) : List Group := problems.foldr addFirst []

/-- The problems grouped by file, in the order of the visit. -/
def groups (r : Report) : List Group := groupsOf r.problems

end Report

end LineGauge
