import LineGauge.Ignore.Pattern

/-! Ignore rules, one to a line. A rule takes paths out of a walk or lets them in again; the last
rule that matches decides. -/
namespace LineGauge

/-- What a rule says about a path it matches. -/
inductive Verdict where
  | ignore
  | keep
  deriving DecidableEq, Repr

/-- A rule for paths relative to the directory of its file. -/
structure Rule where
  glob : Glob
  verdict : Verdict
  onlyDirectories : Bool

namespace Rule

/-- Whether the text ends with another. -/
def endsWith (t : Text) (s : String) : Bool := s.toList.isSuffixOf t

/-- Whether the text starts with another. -/
def startsWith (t : Text) (s : String) : Bool := s.toList.isPrefixOf t

/-- A line without the blanks at its end; an escaped blank there stays, with all before it. -/
def trimLine (line : Text) : Text := if endsWith line "\\ " then line else line.trimEnd

/-- The text of a pattern that may match in every directory, unless it is anchored or has a slash
of its own. A pattern for the inside of a directory does not match the directory itself. -/
def patternText (anchored : Bool) (t : Text) : Text :=
  let t :=
    if anchored || t.contains '/' || startsWith t "**/" || t == "**".toList then t
    else "**/".toList ++ t
  if endsWith t "/**" then t ++ "/*".toList else t

/-- A rule from what is left of a line: a slash at the end asks for a directory, and a backslash
before it goes with it. -/
def ofBody? (verdict : Verdict) (anchored : Bool) (t : Text) : Option Rule :=
  let onlyDirectories := endsWith t "/"
  let body :=
    if !onlyDirectories then t
    else if endsWith t.dropLast "\\" then t.dropLast.dropLast
    else t.dropLast
  (Glob.ofText? (patternText anchored body)).map fun glob =>
    { glob := glob, verdict := verdict, onlyDirectories := onlyDirectories }

/-- A rule from a line without a negation: a slash at its start anchors it. -/
def ofAnchor? (verdict : Verdict) : Text → Option Rule
  | '/' :: t => ofBody? verdict true t
  | t => ofBody? verdict false t

/-- The rule on a line: none for a comment, for an empty line and for a pattern that cannot be. -/
def ofLine? (line : Text) : Option Rule :=
  if startsWith line "#" then none
  else match trimLine line with
    | [] => none
    | '\\' :: '!' :: t => ofBody? .ignore false ('!' :: t)
    | '\\' :: '#' :: t => ofBody? .ignore false ('#' :: t)
    | '!' :: t => ofAnchor? .keep t
    | t => ofAnchor? .ignore t

/-- Whether the rule speaks about a path. -/
def appliesTo (r : Rule) (isDirectory : Bool) (path : Bytes) : Bool :=
  (!r.onlyDirectories || isDirectory) && r.glob.isMatch path

end Rule

/-- The lines of a rule file as bytes: each ends with LF or CR LF, and a last line may lack its
end if it is not empty. -/
def Rule.lines (content : Bytes) : List Bytes :=
  let dropReturn (l : Bytes) : Bytes := if l.getLast? == some 0x0D then l.dropLast else l
  let ps := pieces (· == 0x0A) content
  ps.dropLast.map dropReturn ++ ps.getLast?.toList.filter (!·.isEmpty)

/-- The byte order mark. -/
def Rule.isMark (c : Char) : Bool := c.toNat == 0xFEFF

/-- The text lines of a rule file, up to the first line that is not UTF-8. Byte order marks at the
start of the file do not count. -/
def Rule.textLines (content : Bytes) : List Text :=
  match ((Rule.lines content).map Utf8.decode?).takeWhile (·.isSome) |>.filterMap id with
  | [] => []
  | l :: ls => l.dropWhile Rule.isMark :: ls

/-- The rules of a file, in order. -/
def Rule.ofFile (content : Bytes) : List Rule := (Rule.textLines content).filterMap Rule.ofLine?

/-- What the rules of one file say about a path relative to its directory: the last rule that
applies decides. -/
def Rule.verdictOf (rules : List Rule) (isDirectory : Bool) (path : Bytes) : Option Verdict :=
  (rules.reverse.find? (·.appliesTo isDirectory path)).map (·.verdict)

end LineGauge
