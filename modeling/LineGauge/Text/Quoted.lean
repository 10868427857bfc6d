import LineGauge.Text.Invisible
import LineGauge.Text.Basic

/-! Texts in double quotes, for messages that show what was found. Line breaks, tabs and NUL have
short escapes; every other character that shows nothing by itself is written by its code. -/
namespace LineGauge.Text

/-- A code point as `\u` with the hexadecimal number in braces. -/
def codeEscape (c : Char) : Text :=
  ['\\', 'u', '\x7b'] ++ Nat.toDigits 16 c.toNat ++ ['\x7d']

def quoteChar (c : Char) : Text :=
  if c == '"' || c == '\\' then ['\\', c]
  else if c == '\n' then ['\\', 'n']
  else if c == '\r' then ['\\', 'r']
  else if c == '\t' then ['\\', 't']
  else if c.toNat == 0 then ['\\', '0']
  else if isInvisible c then codeEscape c
  else [c]

/-- The text in double quotes. -/
def quote (t : Text) : Text := '"' :: t.flatMap quoteChar ++ ['"']

end LineGauge.Text
