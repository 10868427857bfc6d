import LineGauge.Tree.Basic

/-! Finding what a path names, the way the operating system does: segment by segment from the
root, through links, with `..` as the directory above the one reached. Every name has a longest
length, but a path only has one where it is given. The absolute paths that are made of a given one,
of a root and of all that is walked below it, are taken at any length; an operating system that
holds those to the same limit finds less than is found here. -/
namespace LineGauge

/-- Why a path names nothing, or nothing that can be read. -/
inductive AccessFault where
  | missing
  | notDirectory
  | isDirectory
  | nameTooLong
  | tooManyLinks
  | nulByte
  deriving DecidableEq, Repr

def AccessFault.message : AccessFault → Text
  | .missing => "No such file or directory (os error 2)".toList
  | .notDirectory => "Not a directory (os error 20)".toList
  | .isDirectory => "Is a directory (os error 21)".toList
  | .nameTooLong => "File name too long (os error 36)".toList
  | .tooManyLinks => "Too many levels of symbolic links (os error 40)".toList
  | .nulByte => "file name contained an unexpected NUL byte".toList

namespace Snapshot

/-- The longest name, in bytes. -/
def longestName : Nat := 255

/-- The longest path that can be given, in bytes; only `Path.fault?` asks for it. -/
def longestPath : Nat := 4095

/-- How many links one look-up may pass. -/
def linkLimit : Nat := 40

/-- Follows segments from the directory `here`. A link hands over to `onLink`, with the directory
its target counts from and with the target's segments in front of those that are left. -/
def followWith (s : Snapshot) (onLink : Location → List Name → Except AccessFault Location) :
    Location → List Name → Except AccessFault Location
  | here, [] => .ok here
  | here, segment :: rest =>
    match Path.component? segment with
    | none => followWith s onLink here rest
    | some (.name name) =>
      if longestName < name.length then .error .nameTooLong
      else match s.nodeAt? (here ++ [name]) with
        | none => .error .missing
        | some (.directory _) => followWith s onLink (here ++ [name]) rest
        | some (.file _) => if rest.isEmpty then .ok (here ++ [name]) else .error .notDirectory
        | some (.link target) =>
          onLink (if target.isAbsolute then [] else here) (target.segments ++ rest)
    | some _ => followWith s onLink here.dropLast rest

/-- Follows segments from a directory through at most `links` links. -/
def follow (s : Snapshot) : Nat → Location → List Name → Except AccessFault Location
  | 0 => followWith s fun _ _ => .error .tooManyLinks
  | links + 1 => followWith s (follow s links)

/-- Where a path leads from a working directory, links included. -/
def locate (s : Snapshot) (cwd p : Path) : Except AccessFault Location :=
  s.follow linkLimit [] (cwd.join p).segments

/-- The node a path of any length leads to; never a link. -/
def find? (s : Snapshot) (cwd p : Path) : Option Node :=
  match s.locate cwd p with
  | .ok l => s.nodeAt? l
  | .error _ => none

/-- Whether a path of any length leads to a file. -/
def isFile (s : Snapshot) (cwd p : Path) : Bool :=
  match s.find? cwd p with
  | some (.file _) => true
  | _ => false

/-- The content of the file a path of any length leads to. -/
def read (s : Snapshot) (cwd p : Path) : Except AccessFault Bytes :=
  match s.locate cwd p with
  | .error fault => .error fault
  | .ok l =>
    match s.nodeAt? l with
    | some (.file content) => .ok content
    | some _ => .error .isDirectory
    | none => .error .missing

end Snapshot

/-- What is wrong with a path as it is given, before anything is looked up. The empty path leads
nowhere. -/
def Path.fault? (p : Path) : Option AccessFault :=
  if p.bytes.contains 0 then some .nulByte
  else if p.bytes.isEmpty then some .missing
  else if Snapshot.longestPath < p.bytes.length then some .nameTooLong
  else none

namespace Snapshot

/-- Whether a path as it is given leads to anything. Of one that is too long to be given this is
false, even where `isFile` finds what it names. -/
def pathExists (s : Snapshot) (cwd p : Path) : Bool :=
  p.fault?.isNone && (s.find? cwd p).isSome

/-- The content of the file that a path as it is given leads to. -/
def readGiven (s : Snapshot) (cwd p : Path) : Except AccessFault Bytes :=
  match p.fault? with
  | some fault => .error fault
  | none => s.read cwd p

end Snapshot

end LineGauge
