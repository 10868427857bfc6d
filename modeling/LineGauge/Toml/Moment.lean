import LineGauge.Text.Basic

/-! TOML dates and times: a date, a time, or a date and a time with or without an offset. Each
reader gives back what is left of the text. -/
namespace LineGauge.Toml

/-- A number of exactly `count` digits. -/
def fixedDigits? (count : Nat) (t : Text) : Option (Nat × Text) :=
  let ds := t.take count
  if ds.length == count && ds.all Char.isDigit then
    some (ds.foldl (fun n d => 10 * n + (d.toNat - '0'.toNat)) 0, t.drop count)
  else none

/-- A number of two digits within bounds. -/
def twoDigits? (least greatest : Nat) (t : Text) : Option (Nat × Text) :=
  match fixedDigits? 2 t with
  | some (n, t) => if least ≤ n && n ≤ greatest then some (n, t) else none
  | none => none

/-- After one character. -/
def after? (c : Char) : Text → Option Text
  | d :: t => if c == d then some t else none
  | [] => none

/-- The length of a month. -/
def daysIn (year month : Nat) : Nat :=
  if month == 2 then
    if year % 4 == 0 && (year % 100 != 0 || year % 400 == 0) then 29 else 28
  else if month == 4 || month == 6 || month == 9 || month == 11 then 30
  else 31

/-- After a date. -/
def date? (t : Text) : Option Text := do
  let (year, t) ← fixedDigits? 4 t
  let (month, t) ← twoDigits? 1 12 (← after? '-' t)
  let (_, t) ← twoDigits? 1 (daysIn year month) (← after? '-' t)
  return t

/-- After the fraction of a second, if there is one. -/
def secondFraction : Text → Text
  | '.' :: c :: t => if c.isDigit then t.dropWhile Char.isDigit else '.' :: c :: t
  | t => t

/-- After a time; the last minute of a day may have a sixty-first second. -/
def time? (t : Text) : Option Text := do
  let (_, t) ← twoDigits? 0 23 t
  let (_, t) ← twoDigits? 0 59 (← after? ':' t)
  let (_, t) ← twoDigits? 0 60 (← after? ':' t)
  return secondFraction t

/-- After hours and minutes. -/
def hourMinute? (t : Text) : Option Text := do
  let (_, t) ← twoDigits? 0 23 t
  let (_, t) ← twoDigits? 0 59 (← after? ':' t)
  return t

/-- After an offset, if there is one. -/
def offset : Text → Text
  | [] => []
  | c :: t =>
    if c == 'Z' || c == 'z' then t
    else if c == '+' || c == '-' then (hourMinute? t).getD (c :: t)
    else c :: t

/-- After the time that may follow a date, with its offset. -/
def timePart : Text → Text
  | [] => []
  | c :: t =>
    if c == 'T' || c == 't' || c == ' ' then ((time? t).map offset).getD (c :: t) else c :: t

/-- After a date, a time or both. -/
def moment? (t : Text) : Option Text :=
  match date? t with
  | some t => some (timePart t)
  | none => time? t

end LineGauge.Toml
