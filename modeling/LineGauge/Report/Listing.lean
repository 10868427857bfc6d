import LineGauge.Report.Basic
import LineGauge.Number.Digits

/-! The report as text for a reader: each file with its overlong lines and an empty line after
them, and the number of problems at the end. In colour the file names are bold and the number is
bold red. -/
namespace LineGauge.Report

/-- What stands around a file name and around the number of problems. -/
structure Style where
  beforeFile : Text := []
  beforeTotal : Text := []
  reset : Text := []

/-- No colour. -/
def Style.plain : Style := {}

/-- An escape sequence that changes how a terminal shows text. -/
def Style.code (n : Text) : Text := ['\x1b', '['] ++ n ++ ['m']

/-- Bold file names and a bold red total. -/
def Style.coloured : Style :=
  { beforeFile := code ['1'], beforeTotal := code ['1'] ++ code ['3', '1'], reset := code ['0'] }

/-- The number of problems in words. -/
def totalLine (count : Nat) : Text :=
  "Found ".toList ++ Number.decimal count ++
    (if count == 1 then " problem" else " problems").toList

/-- One overlong line: its number, its length and its limit. -/
def problemLine (p : Problem) : Text :=
  "  * Line ".toList ++ Number.decimal p.line ++ " (".toList ++ Number.decimal p.observed ++
    "/".toList ++ Number.decimal p.limit ++ ")".toList

/-- A file with its problems, each on a line, and an empty line. -/
def groupText (style : Style) (g : Group) : Text :=
  style.beforeFile ++ g.path.display ++ style.reset ++ ['\n'] ++
    g.problems.flatMap (problemLine · ++ ['\n']) ++ ['\n']

/-- All groups and the total. -/
def listing (style : Style) (r : Report) : Text :=
  r.groups.flatMap (groupText style) ++ style.beforeTotal ++ totalLine r.problems.length ++
    style.reset

/-- The listing without colour; nothing for a clean report. -/
def display (r : Report) : Text := if r.isClean then [] else listing .plain r

/-- The listing for a plain or a coloured display. In colour a clean report has its total. -/
def render (coloured : Bool) (r : Report) : Text :=
  if coloured then listing .coloured r else r.display

/-- The listing, unless there is nothing to report. -/
def summary? (r : Report) : Option Text := if r.isClean then none else some r.display

end LineGauge.Report
