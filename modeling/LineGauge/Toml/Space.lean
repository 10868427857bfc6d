import LineGauge.Text.Basic

/-! Blanks, comments and line ends between the parts of a TOML document. Each reader gives back
what is left of the text. -/
namespace LineGauge.Toml

/-- A blank within a line. -/
def isSpace (c : Char) : Bool := c == ' ' || c == '\t'

/-- A character that may stand in a comment: anything but control characters, except the tab. -/
def isPlain (c : Char) : Bool := c == '\t' || (0x20 ≤ c.toNat && c.toNat != 0x7F)

def skipSpace (t : Text) : Text := t.dropWhile isSpace

/-- After a line end: LF or CR LF. -/
def newline? : Text → Option Text
  | '\n' :: t => some t
  | '\r' :: '\n' :: t => some t
  | _ => none

/-- After the rest of a line: blanks, a comment, and the end of the line or of the text. -/
def lineRest? (t : Text) : Option Text :=
  let t := match skipSpace t with
    | '#' :: t => t.dropWhile isPlain
    | t => t
  if t.isEmpty then some [] else newline? t

/-- After blanks, line ends and comments, as they may stand in a list. A comment there needs its
line end. -/
def filler? (inComment : Bool) : Text → Option Text
  | [] => if inComment then none else some []
  | '\n' :: t => filler? false t
  | '\r' :: '\n' :: t => filler? false t
  | c :: t =>
    if inComment then (if isPlain c then filler? true t else none)
    else if isSpace c then filler? false t
    else if c == '#' then filler? true t
    else some (c :: t)

end LineGauge.Toml
