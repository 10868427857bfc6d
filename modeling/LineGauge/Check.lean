import LineGauge.Walk
import LineGauge.Report.Listing

/-! Checking roots: the files they lead to are collected, and each is measured by itself. -/
namespace LineGauge

/-- Why there is no report. Two faults of the machine are not among the reasons: that the workers a
configuration asks for cannot be started, and that the pattern of opening lines is too large to be
compiled. A check is taken to have its workers and its pattern. -/
inductive CheckError where
  | missingRoot (root : Path)
  | overlong (report : Report)
  | noLevel (level : Nat)
  | unusableMarkers
  deriving DecidableEq, Repr

def CheckError.message : CheckError → Text
  | .missingRoot root => "'".toList ++ root.display ++ "' is not a valid path".toList
  | .overlong report => report.display
  | .noLevel _ => Limits.noLevelMessage
  | .unusableMarkers =>
    "Invalid configuration: comment marker and documentation delimiter must not be empty".toList

/-- What a root leads to. -/
inductive RootFinding where
  | missing
  /-- A file that is excluded or no source file. -/
  | skipped
  | files (paths : List Path)
  deriving DecidableEq, Repr

/-- What was collected, in the order of the roots. -/
structure Collected where
  files : List Path := []
  missing : List Path := []
  deriving DecidableEq, Repr

/-- Looks at a root. That it exists is asked of the path as it is given; the file or the directory
is then taken under its absolute, folded path, however long that is. -/
def findRoot (c : Config) (s : Snapshot) (cwd root : Path) : RootFinding :=
  if !s.pathExists cwd root then .missing
  else
    let absolute := cwd.resolve root
    if s.isFile cwd absolute then
      if c.isEligible absolute then .files [absolute] else .skipped
    else .files (walk c s (cwd.locationIn root))

/-- Collects the files of the roots, one root after another. In strict mode the first missing root
ends it with an error. -/
def collect (c : Config) (s : Snapshot) (cwd : Path) : List Path → Except CheckError Collected
  | [] => .ok {}
  | root :: roots =>
    match findRoot c s cwd root with
    | .missing =>
      if c.strict then .error (.missingRoot root)
      else (collect c s cwd roots).map fun later => { later with missing := root :: later.missing }
    | .skipped => collect c s cwd roots
    | .files paths =>
      (collect c s cwd roots).map fun later => { later with files := paths ++ later.files }

/-- The roots that are looked at and left out. In strict mode none after a missing one is looked
at. -/
def skippedRoots (c : Config) (s : Snapshot) (cwd : Path) (roots : List Path) : List Path :=
  let seen := if c.strict then roots.takeWhile (s.pathExists cwd ·) else roots
  seen.filter fun root => findRoot c s cwd root == .skipped

/-- The problems of one file. A file that cannot be read or is not UTF-8 has none. -/
def problemsOf (c : Config) (s : Snapshot) (cwd file : Path) : List Problem :=
  match s.read cwd file with
  | .error _ => []
  | .ok content =>
    match Utf8.decode? content with
    | none => []
    | some text =>
      (Line.scanText c.limits c.markers text).map fun o => { o with path := file }

/-- The report on collected files. -/
def reportOn (c : Config) (s : Snapshot) (cwd : Path) (found : Collected) : Report where
  problems := found.files.flatMap (problemsOf c s cwd)
  filesChecked := found.files.length
  missing := found.missing

/-- Checks the files of the roots. In strict mode overlong lines are an error. -/
def check (c : Config) (s : Snapshot) (cwd : Path) (roots : List Path) :
    Except CheckError Report :=
  if !c.markers.isUsable then .error .unusableMarkers
  else match collect c s cwd roots with
    | .error e => .error e
    | .ok found =>
      let report := reportOn c s cwd found
      if c.strict && !report.isClean then .error (.overlong report) else .ok report

end LineGauge
