import LineGauge.Arguments.Parse
import LineGauge.Run
import LineGauge.Tree.Edit

/-! The program. It looks at the part of the file system that a run can ask about, and the run
itself is `run`. -/
namespace LineGauge.Program

/-- What of a tree is looked at. -/
structure Scope where
  /-- Whether a directory is entered. -/
  enters : Path → Bool
  /-- Whether the content of a file is read. -/
  reads : Path → Bool
  /-- Whether what a link leads to is looked at too. -/
  followLinks : Bool

/-- A tree being looked at, and the directories already seen through links. -/
structure Observation where
  tree : Snapshot := {}
  seen : List String := []

def pathOf (s : String) : Path := .ofText s.toList

def fileOf (s : String) := (IO.FS.DirEntry.mk "/" s).path

/-- What a path is, itself and not what it leads to. -/
def kindOf (s : String) : IO (Option IO.FS.FileType) := do
  try return some (← (fileOf s).symlinkMetadata).type
  catch _ => return none

def place (o : IO.Ref Observation) (s : String) (item : Snapshot.Item) : IO Unit :=
  o.modify fun o => { o with tree := o.tree.place Visit.rootPath (pathOf s) item }

def contentOf (s : String) : IO Bytes := do
  try return (← IO.FS.readBinFile s).toList
  catch _ => return []

mutual

/-- Looks at one path, and below it if it is a directory and `deep` is set. -/
partial def look (scope : Scope) (o : IO.Ref Observation) (deep : Bool) (s : String) :
    IO Unit := do
  match ← kindOf s with
  | some .dir =>
    place o s .directory
    if deep then lookBelow scope o s
  | some .file =>
    place o s (.file (← if scope.reads (pathOf s) then contentOf s else pure []))
  | some .symlink =>
    try
      let target ← IO.FS.realPath s
      if !deep || !(← o.get).seen.contains target.toString then
        if deep then o.modify fun o => { o with seen := target.toString :: o.seen }
        let all := { scope with enters := fun _ => true, reads := fun _ => true }
        lookAlong all o deep target.toString
      place o s (.link (pathOf target.toString))
    catch _ => place o s (.link (pathOf (s ++ ".missing")))
  | _ => return

/-- Looks at the entries of a directory. -/
partial def lookBelow (scope : Scope) (o : IO.Ref Observation) (s : String) : IO Unit := do
  try
    for e in ← (fileOf s).readDir do
      let child := (if s == "/" then "" else s) ++ "/" ++ e.fileName
      match ← kindOf child with
      | some .dir => if scope.enters (pathOf child) then look scope o true child
      | some .symlink => if scope.followLinks then look scope o true child
      | _ => look scope o false child
  catch _ => return

/-- Looks at every directory on the way to a path and then at the path. -/
partial def lookAlong (scope : Scope) (o : IO.Ref Observation) (deep : Bool) (s : String) :
    IO Unit := do
  let parts := (s.splitOn "/").filter (!·.isEmpty)
  for i in [0:parts.length] do
    look scope o (deep && i + 1 == parts.length) ("/" ++ "/".intercalate (parts.take (i + 1)))

end

/-- Looks at what a run with these arguments asks about: the settings file, and then the roots. -/
def observe (cwd : Path) (a : Arguments) : IO Snapshot := do
  let o ← IO.mkRef {}
  let shown (p : Path) : String := String.ofList p.display
  let all : Scope := ⟨fun _ => true, fun _ => true, false⟩
  lookAlong all o false (shown (cwd.join (a.config.getD Settings.projectFile)))
  let settings := (Settings.load (← o.get).tree cwd a.config).toOption
  if let some i := settings.bind fun s => (Invocation.resolve cwd a s).toOption then
    let follow := i.config.walk.followLinks
    let scope : Scope := {
      enters := fun p => follow || !i.config.exclusions.excludes p
      reads := fun p => follow || i.config.isEligible p || p.fileName? == some Visit.ignoreFile
      followLinks := follow }
    for root in i.roots do
      lookAlong scope o false (shown (cwd.join root))
      lookAlong scope o true (shown (cwd.resolve root))
  return (← o.get).tree

/-- Runs with arguments that are understood: the output, then warnings and errors. -/
def execute (cwd : Path) (a : Arguments) : IO UInt32 := do
  let stdout ← IO.getStdout
  let outcome := run (← stdout.isTty) (← observe cwd a) cwd a
  for w in outcome.warnings do
    IO.eprintln ("WARN " ++ String.ofList w.message)
  try
    stdout.putStr (String.ofList outcome.output)
    stdout.flush
    for e in outcome.errors do
      IO.eprintln (String.ofList e.message)
    return UInt32.ofNat outcome.exitCode
  catch _ =>
    let e := RunError.output .brokenPipe
    IO.eprintln (String.ofList e.message)
    return UInt32.ofNat e.exitCode

end LineGauge.Program

open LineGauge in
def main (items : List String) : IO UInt32 := do
  match Arguments.parse (items.map (·.toUTF8.toList)) with
  | .ok a => Program.execute (Program.pathOf (← IO.currentDir).toString) a
  | .error .helpWanted => do IO.print (String.ofList Arguments.helpText); return 0
  | .error .versionWanted => do IO.print (String.ofList Arguments.versionText); return 0
  | .error e => do IO.eprintln ("error: " ++ String.ofList e.message); return 2
