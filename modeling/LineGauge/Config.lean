import LineGauge.Exclusion
import LineGauge.Limits
import LineGauge.Line.Markers

/-! What a check is told: the limits, what to leave out, which files count as source files, and
how to walk directories. -/
namespace LineGauge

/-- How directories are walked. -/
structure WalkOptions where
  /-- Links below a root are followed instead of skipped. -/
  followLinks : Bool := false
  /-- How many levels below a root are visited; all if not given. -/
  maxDepth : Option Nat := none
  /-- Files that ignore rules take out are skipped. -/
  respectIgnoreFiles : Bool := false
  /-- How many workers measure files, if the caller says so. It is carried here for the caller;
  `check` measures one file after another and never starts a worker. -/
  threads : Option Nat := none
  deriving DecidableEq, Repr

/-- The extensions that count unless the caller says otherwise. -/
def standardExtensions : List Text := ["py", "pyw"].map String.toList

structure Config where
  limits : Limits := {}
  exclusions : Exclusions
  extensions : List Text := standardExtensions
  markers : Markers := {}
  walk : WalkOptions := {}
  /-- A missing root or an overlong line is an error. -/
  strict : Bool := false
  deriving DecidableEq, Repr

namespace Config

/-- The configuration of a working directory without any wishes. -/
def standard (cwd : Path) : Config := { exclusions := .standard cwd [] }

/-- Whether the path has one of the extensions. They may be given with leading dots. -/
def recognises (extensions : List Text) (p : Path) : Bool :=
  match p.extension?.bind Utf8.decode? with
  | some found => extensions.any fun e => e.dropWhile (· == '.') == found
  | none => false

/-- Whether a file at this absolute path is measured. -/
def isEligible (c : Config) (p : Path) : Bool :=
  recognises c.extensions p && !c.exclusions.excludes p

end Config

end LineGauge
