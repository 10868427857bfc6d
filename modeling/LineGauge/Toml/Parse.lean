import LineGauge.Toml.Item
import LineGauge.Toml.Moment
import LineGauge.Toml.Number

/-! Reading a TOML document. A document that is not well formed has no value; where the fault lies
does not matter here. -/
namespace LineGauge.Toml

/-- How deep lists and tables in braces may be nested. -/
def depthLimit : Nat := 79

/-- How many parts a dotted key may have. -/
def partLimit : Nat := 79

/-- A character of a key without quotes. -/
def isBareKey (c : Char) : Bool := c.isAlphanum || c == '_' || c == '-'

/-- One part of a key. -/
def keyPart? (t : Text) : Option (Text × Text) :=
  match t with
  | '"' :: t => basic? 0 t
  | '\'' :: t => literal? t
  | t =>
    let key := t.takeWhile isBareKey
    if key.isEmpty then none else some (key, t.dropWhile isBareKey)

/-- A key of at most `parts` parts, with dots between them and blanks around them. -/
def key? : Nat → Text → Option (List Text × Text)
  | 0, _ => none
  | parts + 1, t =>
    match keyPart? (skipSpace t) with
    | none => none
    | some (part, t) =>
      match skipSpace t with
      | '.' :: t => (key? parts t).map fun (path, t) => (part :: path, t)
      | t => some ([part], t)

/-- A value that is neither a list nor a table. -/
def scalar? (t : Text) : Option (Value × Text) :=
  match t with
  | [] => none
  | c :: r =>
    if c == '"' || c == '\'' then (string? t).map fun (s, t) => (.text s, t)
    else if c == '+' || c == '-' || c.isDigit then
      match moment? t, float? t, integer? t with
      | some t, _, _ => some (.moment, t)
      | none, some (x, t), _ => some (.float x, t)
      | none, none, some (n, t) => some (.integer n, t)
      | none, none, none => none
    else if c == 't' then
      if "rue".toList.isPrefixOf r then some (.boolean true, r.drop 3) else none
    else if c == 'f' then
      if "alse".toList.isPrefixOf r then some (.boolean false, r.drop 4) else none
    else if c == 'i' || c == 'n' then (special? t).map fun (x, t) => (.float x, t)
    else none

/-- The items of a list after the opening bracket or a comma, and what follows the closing
bracket. The last item may have a comma after it. -/
def listItems? (item : Text → Option (Value × Text)) : Nat → Text → Option (List Value × Text)
  | 0, _ => none
  | fuel + 1, t =>
    match filler? false t with
    | none => none
    | some (']' :: t) => some ([], t)
    | some t =>
      match item t with
      | none => none
      | some (v, t) =>
        match filler? false t with
        | some (',' :: t) => (listItems? item fuel t).map fun (vs, t) => (v :: vs, t)
        | some (']' :: t) => some ([v], t)
        | _ => none

/-- A key with its value, and the blanks around both. -/
def pair? (item : Text → Option (Value × Text)) (t : Text) :
    Option ((List Text × Value) × Text) :=
  match key? partLimit t with
  | some (path, '=' :: t) =>
    match item (skipSpace t) with
    | some (v, t) => some ((path, v), skipSpace t)
    | none => none
  | _ => none

/-- The pairs of a table in braces, added to those before, and what follows the closing brace. -/
def tablePairs? (item : Text → Option (Value × Text)) : Nat → Items → Text → Option (Items × Text)
  | 0, _, _ => none
  | fuel + 1, items, t =>
    match pair? item t with
    | none => none
    | some ((path, v), t) =>
      match assign? path v .header items with
      | none => none
      | some items =>
        match t with
        | ',' :: t => tablePairs? item fuel items t
        | '\x7d' :: t => some (items, t)
        | _ => none

/-- A value in which lists and tables are nested at most `depth` deep. -/
def value? : Nat → Text → Option (Value × Text)
  | 0, t => scalar? t
  | depth + 1, t =>
    match t with
    | '[' :: t => (listItems? (value? depth) (t.length + 1) t).map fun (vs, t) => (.list vs, t)
    | '\x7b' :: t =>
      match skipSpace t with
      | '\x7d' :: t => some (.table [], t)
      | _ =>
        (tablePairs? (value? depth) (t.length + 1) [] t).map fun (items, t) =>
          (.table (Item.fieldsOf items), t)
    | t => scalar? t

/-- A document under construction: all tables, and the header that the next keys belong to. -/
structure Draft where
  items : Items := []
  header : List Text := []

namespace Draft

/-- A key with its value in the current table. -/
def assign? (d : Draft) (path : List Text) (v : Value) : Option Draft :=
  (changeAt? false (Toml.assign? path v) .header d.header d.items).map fun items =>
    { d with items := items }

/-- A header, whose last part `start` opens. -/
def open? (start : Text → Items → Option Items) (d : Draft) (path : List Text) : Option Draft :=
  match path.getLast? with
  | none => none
  | some key =>
    (changeAt? false (fun _ inner => start key inner) .header path.dropLast d.items).map
      fun items => { items := items, header := path }

/-- A header with the rest of its line, after its opening brackets. -/
def header? (d : Draft) (start : Text → Items → Option Items) (close : Text) (t : Text) :
    Option (Draft × Text) := do
  let (path, t) ← key? partLimit t
  if close.isPrefixOf t then
    let rest ← lineRest? (t.drop close.length)
    return (← d.open? start path, rest)
  else none

/-- A key with its value and the rest of the line. -/
def keyLine? (d : Draft) (t : Text) : Option (Draft × Text) := do
  let ((path, v), t) ← pair? (value? depthLimit) t
  let rest ← lineRest? t
  return (← d.assign? path v, rest)

/-- One line, or several where a value goes on. -/
def line? (d : Draft) (t : Text) : Option (Draft × Text) :=
  match t with
  | '#' :: _ => (lineRest? t).map (d, ·)
  | '\n' :: _ => (newline? t).map (d, ·)
  | '\r' :: _ => (newline? t).map (d, ·)
  | '[' :: '[' :: t => d.header? openElement? [']', ']'] t
  | '[' :: t => d.header? openTable? [']'] t
  | t => d.keyLine? t

/-- The lines of a text. Every line takes at least one character. -/
def lines? : Nat → Draft → Text → Option Draft
  | 0, _, _ => none
  | fuel + 1, d, t =>
    match skipSpace t with
    | [] => some d
    | t =>
      match d.line? t with
      | none => none
      | some (d, t) => lines? fuel d t

end Draft

/-- The table a document stands for. A byte order mark at its start does not count. -/
def parse? (t : Text) : Option Fields :=
  let t := match t with
    | c :: rest => if c.toNat == 0xFEFF then rest else t
    | [] => t
  (Draft.lines? (t.length + 1) {} t).map fun d => Item.fieldsOf d.items

end LineGauge.Toml
