import LineGauge.Toml.Space

/-! TOML strings: in double quotes with escapes or in single quotes as they are, on one line or,
with three quotes, on several. -/
namespace LineGauge.Toml

/-- The value of a hexadecimal digit. -/
def hexDigit? (c : Char) : Option Nat :=
  if c.isDigit then some (c.toNat - '0'.toNat)
  else if 'a' ≤ c && c ≤ 'f' then some (c.toNat - 'a'.toNat + 10)
  else if 'A' ≤ c && c ≤ 'F' then some (c.toNat - 'A'.toNat + 10)
  else none

/-- The character whose code point is written in exactly `count` hexadecimal digits. -/
def hexChar? (count : Nat) (t : Text) : Option Char :=
  match (t.take count).mapM hexDigit? with
  | none => none
  | some ds =>
    let n := ds.foldl (fun n d => 16 * n + d) 0
    if ds.length == count && n.isValidChar then some (Char.ofNat n) else none

/-- The character an escape stands for, and how many characters after the backslash it takes. -/
def escape? : Text → Option (Char × Nat)
  | 'b' :: _ => some ('\x08', 1)
  | 't' :: _ => some ('\t', 1)
  | 'n' :: _ => some ('\n', 1)
  | 'f' :: _ => some ('\x0c', 1)
  | 'r' :: _ => some ('\r', 1)
  | '"' :: _ => some ('"', 1)
  | '\\' :: _ => some ('\\', 1)
  | 'u' :: t => (hexChar? 4 t).map (·, 5)
  | 'U' :: t => (hexChar? 8 t).map (·, 9)
  | _ => none

/-- A string that goes on after its first character. -/
def consTo (c : Char) (r : Option (Text × Text)) : Option (Text × Text) :=
  r.map fun (s, rest) => (c :: s, rest)

/-- A string in double quotes, after the opening quote and the next `skip` characters. -/
def basic? : Nat → Text → Option (Text × Text)
  | _, [] => none
  | skip + 1, _ :: t => basic? skip t
  | 0, c :: t =>
    if c == '"' then some ([], t)
    else if c == '\\' then
      match escape? t with
      | some (d, taken) => consTo d (basic? taken t)
      | none => none
    else if isPlain c then consTo c (basic? 0 t)
    else none

/-- A string in single quotes, after the opening quote. -/
def literal? : Text → Option (Text × Text)
  | [] => none
  | c :: t =>
    if c == '\'' then some ([], t)
    else if isPlain c then consTo c (literal? t)
    else none

/-- How a run of at least three quotes ends a string: the last three close it, and up to two in
front of them belong to it. -/
def closing (quote : Char) (t : Text) : Text × Text :=
  let inside := min ((t.takeWhile (· == quote)).length - 3) 2
  (List.replicate inside quote, t.drop (inside + 3))

/-- Whether a text starts with three quotes. -/
def startsTriple (quote : Char) (t : Text) : Bool := [quote, quote, quote].isPrefixOf t

/-- How many characters after a backslash are a line end with the blanks before it and all blanks
and line ends after it; none if there is no line end. -/
def lineSplice (t : Text) : Nat :=
  match newline? (skipSpace t) with
  | none => 0
  | some r =>
    let rec drop : Text → Text
      | '\n' :: t => drop t
      | '\r' :: '\n' :: t => drop t
      | c :: t => if isSpace c then drop t else c :: t
      | [] => []
    t.length - (drop r).length

/-- A string in three double quotes, after the opening and the next `skip` characters. -/
def multiBasic? : Nat → Text → Option (Text × Text)
  | _, [] => none
  | skip + 1, _ :: t => multiBasic? skip t
  | 0, c :: t =>
    if c == '"' then
      if startsTriple '"' (c :: t) then some (closing '"' (c :: t)) else consTo c (multiBasic? 0 t)
    else if c == '\\' then
      if lineSplice t != 0 then multiBasic? (lineSplice t) t
      else match escape? t with
        | some (d, taken) => consTo d (multiBasic? taken t)
        | none => none
    else if c == '\r' then
      if t.head? == some '\n' then multiBasic? 0 t else none
    else if c == '\n' || isPlain c then consTo c (multiBasic? 0 t)
    else none

/-- A string in three single quotes, after the opening. -/
def multiLiteral? : Text → Option (Text × Text)
  | [] => none
  | c :: t =>
    if c == '\'' && startsTriple '\'' (c :: t) then some (closing '\'' (c :: t))
    else if c == '\r' then
      if t.head? == some '\n' then multiLiteral? t else none
    else if c == '\n' || isPlain c then consTo c (multiLiteral? t)
    else none

/-- A line end right after three opening quotes does not count. -/
def dropNewline (t : Text) : Text := (newline? t).getD t

/-- A string of any of the four kinds. -/
def string? (t : Text) : Option (Text × Text) :=
  if startsTriple '"' t then multiBasic? 0 (dropNewline (t.drop 3))
  else if startsTriple '\'' t then multiLiteral? (dropNewline (t.drop 3))
  else match t with
    | '"' :: t => basic? 0 t
    | '\'' :: t => literal? t
    | _ => none

end LineGauge.Toml
