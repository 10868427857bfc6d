import LineGauge.Text.Fold

/-! What a line is recognised by: the comment marker, the documentation delimiter, and the
leaders, short texts that may stand in front of an opening delimiter in any letter case. -/
namespace LineGauge

structure Markers where
  comment : Text := ['#']
  delimiter : Text := ['"', '"', '"']
  leaders : List Text := ["rb", "br", "fr", "rf", "r", "b", "f", "u"].map String.toList
  deriving DecidableEq, Repr

namespace Markers

/-- Neither the comment marker nor the delimiter may be empty: every line would carry it. Nothing is
asked of how long the markers are or of how many leaders there are. -/
def isUsable (m : Markers) : Bool := !m.comment.isEmpty && !m.delimiter.isEmpty

/-- A comment line: the comment marker comes first, blanks apart. -/
def isComment (m : Markers) (line : Text) : Bool := m.comment.isPrefixOf line.trimStart

/-- The text starts with the leader, in any case, and then the delimiter as it is written. -/
def opensWith (m : Markers) (text leader : Text) : Bool :=
  (Text.dropFolded? leader text).any (m.delimiter.isPrefixOf ·)

/-- A line that opens documentation: the delimiter comes first, or one leader and then it. -/
def isOpening (m : Markers) (line : Text) : Bool :=
  m.opensWith line.trimStart [] || m.leaders.any (m.opensWith line.trimStart)

/-- A line that closes documentation: the delimiter comes last, blanks apart. -/
def isClosing (m : Markers) (line : Text) : Bool := m.delimiter.isSuffixOf line.trimEnd

end Markers

end LineGauge
