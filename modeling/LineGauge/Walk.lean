import LineGauge.Config
import LineGauge.Ignore.Rule
import LineGauge.Tree.Locate

/-! Walking a directory. Entries are visited in the order of their names, and what is below a
directory comes in its place. Directories that an exclusion entry or an ignore rule takes out are
not entered. Links are skipped, or followed to what they lead to; a link to a directory that is
being walked is skipped, so no walk is endless: every link that is followed opens a directory
that was not open. A path of the walk is taken at any length. -/
namespace LineGauge

/-- The directory a walk is in. -/
structure Visit where
  /-- The names it was reached by; they may lead through links. -/
  shown : Location
  /-- Where it really is. -/
  real : Location
  /-- How many levels may be visited below it; all if not given. -/
  room : Option Nat
  /-- The directories on the way from the root to it, where they really are. -/
  opened : List Location
  /-- The ignore rules on the way, innermost first, each with the length of their location. -/
  rules : List (Nat × List Rule)

namespace Visit

/-- The path of an entry. -/
def pathOf (v : Visit) (name : Name) : Path := .ofLocation (v.shown ++ [name])

/-- What the ignore rules say about an entry: the innermost file that says anything decides. -/
def verdict? (v : Visit) (name : Name) (isDirectory : Bool) : Option Verdict :=
  v.rules.findSome? fun (depth, rules) =>
    Rule.verdictOf rules isDirectory (Path.joinNames ((v.shown ++ [name]).drop depth))

/-- Whether the walk takes an entry: no ignore rule and no exclusion is against it. -/
def admits (c : Config) (v : Visit) (name : Name) (isDirectory : Bool) : Bool :=
  v.verdict? name isDirectory != some .ignore && !c.exclusions.excludes (v.pathOf name)

/-- The name of a file with ignore rules. -/
def ignoreFile : Name := Utf8.encode ".gitignore".toList

/-- The path of the root directory. -/
def rootPath : Path := .ofLocation []

/-- The ignore rules of the directory shown at a location. -/
def rulesAt (c : Config) (s : Snapshot) (shown : Location) : List (Nat × List Rule) :=
  if c.walk.respectIgnoreFiles then
    match s.read rootPath (.ofLocation (shown ++ [ignoreFile])) with
    | .ok content => [(shown.length, Rule.ofFile content)]
    | .error _ => []
  else []

/-- The directory below this one that an entry leads to. -/
def enter (c : Config) (s : Snapshot) (v : Visit) (name : Name) (real : Location) : Visit where
  shown := v.shown ++ [name]
  real := real
  room := v.room.map (· - 1)
  opened := real :: v.opened
  rules := rulesAt c s (v.shown ++ [name]) ++ v.rules

/-- The directory a walk starts in. -/
def start (c : Config) (s : Snapshot) (shown real : Location) : Visit where
  shown := shown
  real := real
  room := c.walk.maxDepth
  opened := [real]
  rules := rulesAt c s shown

/-- The path of a file, if the walk takes it. -/
def fileAt (c : Config) (v : Visit) (name : Name) : List Path :=
  if v.admits c name false && c.isEligible (v.pathOf name) then [v.pathOf name] else []

end Visit

mutual

/-- The files below a directory with these entries; a directory behind a link is left to
`onLinked`. -/
def walkEntries (c : Config) (s : Snapshot) (onLinked : Visit → Entries → List Path) (v : Visit) :
    List (Name × Node) → List Path
  | [] => []
  | (name, node) :: rest =>
    walkNode c s onLinked v name node ++ walkEntries c s onLinked v rest

/-- The files that one entry leads to. -/
def walkNode (c : Config) (s : Snapshot) (onLinked : Visit → Entries → List Path) (v : Visit)
    (name : Name) : Node → List Path
  | .file _ => v.fileAt c name
  | .directory es =>
    if v.admits c name true && v.room != some 1 then
      walkEntries c s onLinked (v.enter c s name (v.real ++ [name])) es
    else []
  | .link _ =>
    if !c.walk.followLinks then []
    else match s.locate Visit.rootPath (v.pathOf name) with
      | .error _ => []
      | .ok real =>
        match s.nodeAt? real with
        | some (.file _) => v.fileAt c name
        | some (.directory es) =>
          if v.opened.contains real then []
          else if v.admits c name true && v.room != some 1 then
            onLinked (v.enter c s name real) es
          else []
        | _ => []

end

/-- The files below a directory, through at most `links` links on the way to each. -/
def walkThrough (c : Config) (s : Snapshot) : Nat → Visit → Entries → List Path
  | 0 => walkEntries c s fun _ _ => []
  | links + 1 => walkEntries c s (walkThrough c s links)

/-- The files below a root directory, in the order of the visit. No way passes more links than
there are directories. -/
def walk (c : Config) (s : Snapshot) (root : Location) : List Path :=
  match s.locate Visit.rootPath (.ofLocation root) with
  | .error _ => []
  | .ok real =>
    match s.nodeAt? real with
    | some (.directory es) =>
      if c.walk.maxDepth == some 0 then []
      else walkThrough c s s.root.directories (.start c s root real) es
    | _ => []

end LineGauge
