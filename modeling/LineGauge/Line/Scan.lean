import LineGauge.Limits
import LineGauge.Line.Markers
import LineGauge.Line.Terminator

/-! Measuring lines. The comment lines at the top of a file are its header and are not measured.
After them each line is measured without its trailing blanks: against the documentation limit if
it is a comment line or lies in a block from an opening line to the next closing line, both
included, and against the code limit otherwise. -/
namespace LineGauge

/-- A line over its limit. Lines are counted from one. -/
structure Overlong where
  line : Nat
  observed : Nat
  limit : Nat
  deriving DecidableEq, Repr

namespace Line

/-- The length of a line: its characters, trailing blanks apart. -/
def measure (line : Text) : Nat := line.trimEnd.length

/-- What earlier lines leave behind: an open documentation block, a header not yet ended. -/
structure State where
  inDocs : Bool := false
  inHeader : Bool := true
  deriving DecidableEq, Repr

/-- The limit for a line, given whether it lies in documentation. -/
def limitFor (limits : Limits) (markers : Markers) (inDocs : Bool) (line : Text) : Nat :=
  if inDocs || markers.isComment line then limits.docs else limits.code

/-- The overlong lines among `lines`, the first of which has the number `number`. -/
def scanFrom (limits : Limits) (markers : Markers) : State → Nat → List Text → List Overlong
  | _, _, [] => []
  | state, number, line :: rest =>
    if state.inHeader && markers.isComment line then
      scanFrom limits markers state (number + 1) rest
    else
      let inDocs := state.inDocs || markers.isOpening line
      let limit := limitFor limits markers inDocs line
      let later := scanFrom limits markers
        { inDocs := inDocs && !markers.isClosing line, inHeader := false } (number + 1) rest
      if limit < measure line then
        { line := number, observed := measure line, limit := limit } :: later
      else later

/-- The overlong lines of a file given by its lines. -/
def scan (limits : Limits) (markers : Markers) (lines : List Text) : List Overlong :=
  scanFrom limits markers {} 1 lines

/-- The overlong lines of a file given by its text. -/
def scanText (limits : Limits) (markers : Markers) (content : Text) : List Overlong :=
  scan limits markers (ofText content)

end Line

end LineGauge
