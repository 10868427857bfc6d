import LineGauge.Limits
import LineGauge.Number.Digits

/-! The numbers a user can give: an extension level, a line length, and a positive count. Blanks
around a number are allowed. -/
namespace LineGauge.Number

/-- The greatest number of 64 bits. -/
def greatestWord : Nat := Nat.pow 2 64 - 1

/-- The greatest number of 8 bits. -/
def greatestByte : Nat := Nat.pow 2 8 - 1

/-- Why a number is refused. -/
inductive Refusal where
  | malformed (text : Text) (fault : Fault)
  | tooSmall (least : Nat)
  | noLevel
  | negativeLength
  deriving DecidableEq, Repr

def Fault.message : Fault → Text
  | .empty => "cannot parse integer from empty string".toList
  | .badDigit => "invalid digit found in string".toList
  | .tooLarge => "number too large to fit in target type".toList

/-- A malformed number is shown as it was given, with its blanks. -/
def Refusal.message : Refusal → Text
  | .malformed text fault =>
    "invalid number '".toList ++ text ++ "': ".toList ++ fault.message
  | .tooSmall least => "value must be at least ".toList ++ decimal least
  | .noLevel => Limits.noLevelMessage
  | .negativeLength => "line lengths cannot be less than 0".toList

/-- A number of 64 bits that is not below the least one. -/
def atLeast (least : Nat) (text : Text) : Except Refusal Nat :=
  match read greatestWord text.trim with
  | .error fault => .error (.malformed text fault)
  | .ok n => if n < least then .error (.tooSmall least) else .ok n

/-- An extension level: zero, one or two. Every other text is refused for the same reason. -/
def level (text : Text) : Except Refusal Nat :=
  match read greatestByte text.trim with
  | .error _ => .error .noLevel
  | .ok n => if 2 < n then .error .noLevel else .ok n

/-- A line length. A leading minus sign has a reason of its own. -/
def length (text : Text) : Except Refusal Nat :=
  if text.trim.head? == some '-' then .error .negativeLength else atLeast 0 text

/-- A count of at least one. -/
def positive (text : Text) : Except Refusal Nat := atLeast 1 text

end LineGauge.Number
