import LineGauge.Path.Basic

/-! Absolute paths without detours. `resolve` makes a path absolute and folds `.` and `..` by
their spelling alone, without looking at links: every spelling of a location becomes one path,
a slash before each name. -/
namespace LineGauge

/-- A place in the tree: the names from the root down. -/
abbrev Location := List Name

namespace Path

/-- The path of a location: a slash before each name, or a single slash for the root. -/
def ofLocation : Location → Path
  | [] => ⟨[slash]⟩
  | n :: ns => ⟨(n :: ns).flatMap (slash :: ·)⟩

/-- One component further; `..` at the root stays there. -/
def walkTo (here : Location) : Component → Location
  | .root => []
  | .here => here
  | .up => here.dropLast
  | .name n => here ++ [n]

/-- Where the components lead from the root, by their spelling. -/
def fold (cs : List Component) : Location := cs.foldl walkTo []

/-- The location a path names from a working directory, by its spelling. -/
def locationIn (cwd p : Path) : Location := fold (cwd.join p).components

/-- The path made absolute and folded. -/
def resolve (cwd p : Path) : Path := ofLocation (locationIn cwd p)

end Path

end LineGauge
