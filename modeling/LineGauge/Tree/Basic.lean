import LineGauge.Path.Resolve

/-! A file tree: files with their bytes, links with the path they point to, and directories with
named entries. In a well ordered tree the entries of every directory have proper names in
ascending byte order, so no name stands twice. -/
namespace LineGauge

/-- A name that can stand in a directory: not empty, no slash, neither `.` nor `..`. -/
def Name.isProper (n : Name) : Bool :=
  !Path.isSilent n && n != [dot, dot] && !n.contains slash

inductive Node where
  | file (content : Bytes)
  | link (target : Path)
  | directory (entries : List (Name × Node))

/-- The entries of a directory. -/
abbrev Entries := List (Name × Node)

namespace Node

mutual

/-- Every directory in the tree lists proper names in ascending order. -/
def WellOrdered : Node → Prop
  | .file _ => True
  | .link _ => True
  | .directory es => WellOrderedEntries es

/-- The entries have proper names in ascending order, and so do the directories among them. -/
def WellOrderedEntries : List (Name × Node) → Prop
  | [] => True
  | (name, node) :: rest =>
    name.isProper = true ∧ (∀ e ∈ rest, name < e.1) ∧ node.WellOrdered ∧ WellOrderedEntries rest

end

/-- The node at a location below this one; links are not followed. -/
def at? : Node → Location → Option Node
  | node, [] => some node
  | .directory es, name :: names =>
    match es.lookup name with
    | some node => node.at? names
    | none => none
  | _, _ :: _ => none

mutual

/-- How many directories the tree has. -/
def directories : Node → Nat
  | .file _ => 0
  | .link _ => 0
  | .directory es => directoriesAmong es + 1

def directoriesAmong : List (Name × Node) → Nat
  | [] => 0
  | (_, node) :: rest => node.directories + directoriesAmong rest

end

/-- Whether the node is a directory itself. -/
def isDirectory : Node → Bool
  | .directory _ => true
  | _ => false

end Node

/-- The state of a whole file system: the entries of its root. -/
structure Snapshot where
  entries : Entries := []
  ordered : Node.WellOrderedEntries entries := by trivial

namespace Snapshot

/-- The root directory as a node. -/
def root (s : Snapshot) : Node := .directory s.entries

/-- The node at a location; links are not followed. -/
def nodeAt? (s : Snapshot) (l : Location) : Option Node := s.root.at? l

end Snapshot

end LineGauge
