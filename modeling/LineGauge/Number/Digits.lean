import LineGauge.Text.Basic

/-! Natural numbers in decimal, as they are written and as they are read. Reading has a greatest
value: the first character that is no digit, or that leads past the greatest value, decides the
fault. -/
namespace LineGauge.Number

/-- Why a text is no number. -/
inductive Fault where
  | empty
  | badDigit
  | tooLarge
  deriving DecidableEq, Repr

/-- A natural number in decimal. -/
def decimal (n : Nat) : Text := Nat.toDigits 10 n

/-- The value of a decimal digit. -/
def digit? (c : Char) : Option Nat := if c.isDigit then some (c.toNat - '0'.toNat) else none

/-- Reads digits after a value `n` already read. -/
def readFrom (greatest : Nat) : Nat → Text → Except Fault Nat
  | n, [] => .ok n
  | n, c :: t =>
    match digit? c with
    | none => .error .badDigit
    | some d =>
      if greatest < 10 * n + d then .error .tooLarge else readFrom greatest (10 * n + d) t

/-- Reads a number up to the greatest value: a plus sign or none, and then digits. A sign by
itself counts as a bad digit. -/
def read (greatest : Nat) : Text → Except Fault Nat
  | [] => .error .empty
  | '+' :: c :: t => readFrom greatest 0 (c :: t)
  | t => readFrom greatest 0 t

end LineGauge.Number
