import LineGauge.Text.Utf8

/-! Paths as raw bytes. A path is read by its components: slashes separate them, repeated and
trailing slashes and `.` say nothing (a leading `.` of a relative path is kept), and `..` stays
as it is. Two paths with the same components are the same path in another spelling. -/
namespace LineGauge

/-- The name of a file or directory within its directory. -/
abbrev Name := Bytes

/-- The byte `/`. -/
def slash : UInt8 := 0x2F

/-- The byte `.`. -/
def dot : UInt8 := 0x2E

inductive Component where
  | root
  | here
  | up
  | name (n : Name)
  deriving DecidableEq, Repr

/-- A path in some spelling. -/
structure Path where
  bytes : Bytes
  deriving DecidableEq, Repr

namespace Path

def ofText (t : Text) : Path := ⟨Utf8.encode t⟩

/-- The path as text, with U+FFFD for what is no character. -/
def display (p : Path) : Text := Utf8.decodeLossy p.bytes

/-- The path as text, if it is UTF-8. -/
def text? (p : Path) : Option Text := Utf8.decode? p.bytes

def isAbsolute (p : Path) : Bool := p.bytes.head? == some slash

/-- What stands between the slashes. -/
def segments (p : Path) : List Name := pieces (· == slash) p.bytes

/-- A segment that says nothing beyond the beginning of a path. -/
def isSilent (s : Name) : Bool := s == [] || s == [dot]

/-- The component a segment stands for, if any. -/
def component? (s : Name) : Option Component :=
  if isSilent s then none else if s == [dot, dot] then some .up else some (.name s)

/-- How a path begins: at the root, with a leading `.`, or with its first component. -/
def start (p : Path) : Option Component :=
  if p.isAbsolute then some .root
  else if p.segments.head? == some [dot] then some .here
  else none

/-- The segments after the beginning. -/
def body (p : Path) : List Name := if p.start.isSome then p.segments.tail else p.segments

def components (p : Path) : List Component := p.start.toList ++ p.body.filterMap component?

/-- The last component, if it is an ordinary name. -/
def fileName? (p : Path) : Option Name :=
  match p.components.getLast? with
  | some (.name n) => some n
  | _ => none

/-- What follows the last dot of a name; a name that starts with its only dot has nothing. -/
def extensionOf? (n : Name) : Option Name :=
  match n.reverse.dropWhile (· != dot) with
  | [] => none
  | _ :: stem => if stem.isEmpty then none else some (n.reverse.takeWhile (· != dot)).reverse

def extension? (p : Path) : Option Name := p.fileName?.bind extensionOf?

/-- Whether the other path is a spelling of this one. -/
def sameAs (p q : Path) : Bool := p.components == q.components

/-- What is left of a list after a beginning; `none` if it begins otherwise. -/
def after? {α : Type} [BEq α] : List α → List α → Option (List α)
  | [], as => some as
  | _ :: _, [] => none
  | b :: bs, a :: as => if a == b then after? bs as else none

/-- A path below a base; an absolute path replaces it. The two are joined as they are spelled. -/
def join (base p : Path) : Path :=
  if p.isAbsolute || base.bytes.isEmpty then p
  else if base.bytes.getLast? == some slash then ⟨base.bytes ++ p.bytes⟩
  else ⟨base.bytes ++ slash :: p.bytes⟩

/-- Names with slashes between them. -/
def joinNames : List Name → Bytes
  | [] => []
  | [n] => n
  | n :: m :: ns => n ++ slash :: joinNames (m :: ns)

/-- The list without the silent segments at its end. -/
def dropSilentEnd (ss : List Name) : List Name := (ss.reverse.dropWhile isSilent).reverse

/-- The path without its last component, otherwise in the same spelling. The root and the empty
path have no parent. -/
def parent? (p : Path) : Option Path :=
  match p.start, dropSilentEnd p.body with
  | none, [] => none
  | some .root, [] => none
  | some _, [] => some ⟨[]⟩
  | none, ss => some ⟨joinNames (dropSilentEnd ss.dropLast)⟩
  | some .root, ss => some ⟨slash :: joinNames (dropSilentEnd ss.dropLast)⟩
  | some _, ss => some ⟨joinNames ([dot] :: dropSilentEnd ss.dropLast)⟩

end Path

end LineGauge
