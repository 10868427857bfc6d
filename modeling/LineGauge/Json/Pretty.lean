import LineGauge.Json.Value

/-! JSON text with one item or field on a line, two blanks deeper than the bracket around it; an
empty list or object stays on its line. -/
namespace LineGauge.Json

/-- Two hexadecimal digits. -/
def twoHex (n : Nat) : Text := [Nat.digitChar (n / 16), Nat.digitChar (n % 16)]

/-- The escape of a character inside a text: quotes, backslashes and the controls below the
space, some of which have short forms. -/
def escapeChar (c : Char) : Text :=
  if c == '"' || c == '\\' then ['\\', c]
  else if c.toNat < 0x20 then
    match c.toNat with
    | 0x08 => ['\\', 'b']
    | 0x09 => ['\\', 't']
    | 0x0A => ['\\', 'n']
    | 0x0C => ['\\', 'f']
    | 0x0D => ['\\', 'r']
    | n => ['\\', 'u', '0', '0'] ++ twoHex n
  else [c]

/-- A text in quotes. -/
def quoted (t : Text) : Text := '"' :: t.flatMap escapeChar ++ ['"']

/-- A line break and the blanks of a level. -/
def newLine (level : Nat) : Text := '\n' :: List.replicate (2 * level) ' '

mutual

/-- A value whose closing bracket stands at the given level. -/
def prettyAt (level : Nat) : Json → Text
  | .text t => quoted t
  | .number n => Number.decimal n
  | .list [] => ['[', ']']
  | .list (item :: items) =>
    '[' :: newLine (level + 1) ++ prettyAt (level + 1) item ++ prettyItems (level + 1) items ++
      newLine level ++ [']']
  | .object [] => ['\x7b', '\x7d']
  | .object ((key, value) :: fields) =>
    '\x7b' :: newLine (level + 1) ++ quoted key ++ [':', ' '] ++ prettyAt (level + 1) value ++
      prettyFields (level + 1) fields ++ newLine level ++ ['\x7d']

/-- The items after the first. -/
def prettyItems (level : Nat) : List Json → Text
  | [] => []
  | item :: items => ',' :: newLine level ++ prettyAt level item ++ prettyItems level items

/-- The fields after the first. -/
def prettyFields (level : Nat) : List (Text × Json) → Text
  | [] => []
  | (key, value) :: fields =>
    ',' :: newLine level ++ quoted key ++ [':', ' '] ++ prettyAt level value ++
      prettyFields level fields

end

/-- The text of a value. -/
def pretty (value : Json) : Text := prettyAt 0 value

end LineGauge.Json
