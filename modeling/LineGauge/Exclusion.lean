import LineGauge.Path.Resolve

/-! Exclusion entries. An entry excludes itself and what lies below it, and every directory of
its name below its own parent with what lies below that. A file entry therefore needs an exact
match, and an entry has no effect outside its parent. -/
namespace LineGauge

namespace Path

/-- Whether `entry` excludes the candidate; both are read by their components. -/
def excludedBy (candidate entry : Path) : Bool :=
  entry.components.isPrefixOf candidate.components ||
    match entry.components.getLast? with
    | some (.name n) =>
      match after? entry.components.dropLast candidate.components with
      | some below => below.dropLast.any (· == .name n)
      | none => false
    | _ => false

end Path

/-- Exclusion entries in the order they were given, each an absolute folded path. -/
structure Exclusions where
  entries : List Path := []
  deriving DecidableEq, Repr

namespace Exclusions

/-- Adds an entry, resolved against the working directory. -/
def push (cwd : Path) (es : Exclusions) (entry : Path) : Exclusions :=
  ⟨es.entries ++ [cwd.resolve entry]⟩

/-- Adds entries in order. -/
def extend (cwd : Path) (es : Exclusions) (more : List Path) : Exclusions :=
  more.foldl (push cwd) es

/-- The directories that are excluded unless the caller says otherwise. -/
def standardNames : List Path := [".nox", ".venv", "venv"].map (Path.ofText ·.toList)

/-- The standard entries and then `more`. -/
def standard (cwd : Path) (more : List Path) : Exclusions :=
  extend cwd (extend cwd {} standardNames) more

/-- Whether some entry excludes the candidate. -/
def excludes (es : Exclusions) (candidate : Path) : Bool :=
  es.entries.any (candidate.excludedBy ·)

end Exclusions

end LineGauge
