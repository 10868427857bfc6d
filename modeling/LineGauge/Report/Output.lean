import LineGauge.Receiver
import LineGauge.Report.Listing
import LineGauge.Report.Document

/-! Writing a report. The output is made in full before the first byte is written, so a report
that has none leaves nothing behind. It is then offered to the receiver in parts. -/
namespace LineGauge.Report

/-- How a report is written. -/
inductive Format where
  | text
  | json
  deriving DecidableEq, Repr

/-- Why a report could not be written. -/
inductive OutputError where
  | unreadablePath
  | brokenPipe
  deriving DecidableEq, Repr

def OutputError.message : OutputError → Text
  | .unreadablePath => "JSON error: path contains invalid UTF-8 characters".toList
  | .brokenPipe => "IO error: broken pipe".toList

/-- The parts of the output: none for a clean report as text, else the rendering and a line end. -/
def parts (format : Format) (coloured : Bool) (r : Report) : Except OutputError (List Text) :=
  match format with
  | .text => .ok (if r.isClean then [] else [render coloured r, ['\n']])
  | .json =>
    match r.document? with
    | some document => .ok [document, ['\n']]
    | none => .error .unreadablePath

/-- The complete output. -/
def output (format : Format) (coloured : Bool) (r : Report) : Except OutputError Text :=
  (r.parts format coloured).map List.flatten

/-- Writes a report to a receiver, and tells whether that failed. -/
def send (format : Format) (coloured : Bool) (w : Receiver) (r : Report) :
    Receiver × Except OutputError Unit :=
  match r.parts format coloured with
  | .error e => (w, .error e)
  | .ok texts =>
    match w.offerAll (texts.map Utf8.encode) with
    | (w, true) => (w, .ok ())
    | (w, false) => (w, .error .brokenPipe)

/-- What arrives at a receiver that takes `room` bytes in total, or all if there is no such
number, and whether the writing failed. -/
def write (format : Format) (coloured : Bool) (room : Option Nat) (r : Report) :
    Bytes × Except OutputError Unit :=
  let (w, result) := r.send format coloured { room }
  (w.taken, result)

end LineGauge.Report
