import LineGauge.Number.Binary64
import LineGauge.Toml.Quoted

/-! TOML numbers: integers of 64 bits in four bases, and floating-point numbers. An underscore may
stand between two digits. -/
namespace LineGauge.Toml

/-- The digits at the start of a text, underscores between them left out, and the rest. -/
def digitRun (isDigit : Char → Bool) : Text → Text × Text
  | [] => ([], [])
  | c :: t =>
    if isDigit c then
      let (ds, rest) := digitRun isDigit t
      (c :: ds, rest)
    else match c, t with
      | '_', d :: t =>
        if isDigit d then
          let (ds, rest) := digitRun isDigit t
          (d :: ds, rest)
        else ([], c :: d :: t)
      | _, _ => ([], c :: t)

/-- At least one digit, the first without an underscore in front. -/
def digits? (isDigit : Char → Bool) (t : Text) : Option (Text × Text) :=
  if t.head?.any isDigit then some (digitRun isDigit t) else none

/-- The value of digits in a base. -/
def valueOf (base : Nat) (ds : Text) : Nat :=
  ds.foldl (fun n d => base * n + (hexDigit? d).getD 0) 0

/-- A sign, and whether it is a minus. -/
def sign : Text → Bool × Text
  | '-' :: t => (true, t)
  | '+' :: t => (false, t)
  | t => (false, t)

/-- A decimal integer: whether it is negative, and its digits. A zero in front stands alone. -/
def decimal? (t : Text) : Option ((Bool × Text) × Text) :=
  let (negative, t) := sign t
  match t with
  | '0' :: t => some ((negative, ['0']), t)
  | t => (digits? Char.isDigit t).map fun (ds, t) => ((negative, ds), t)

/-- An integer that fits in 64 bits with a sign. -/
def fitting (negative : Bool) (n : Nat) : Option Int :=
  if negative then (if n ≤ Nat.pow 2 63 then some (-(n : Int)) else none)
  else if n < Nat.pow 2 63 then some n
  else none

/-- A natural number in another base, after its mark. -/
def based? (base : Nat) (t : Text) : Option (Int × Text) :=
  match digits? (fun c => (hexDigit? c).any (· < base)) t with
  | none => none
  | some (ds, t) => (fitting false (valueOf base ds)).map (·, t)

/-- An integer. -/
def integer? (t : Text) : Option (Int × Text) :=
  match t with
  | '0' :: 'x' :: t => based? 16 t
  | '0' :: 'o' :: t => based? 8 t
  | '0' :: 'b' :: t => based? 2 t
  | t =>
    match decimal? t with
    | none => none
    | some ((negative, ds), t) => (fitting negative (valueOf 10 ds)).map (·, t)

/-- A decimal exponent with its mark. -/
def exponent? : Text → Option (Int × Text)
  | [] => none
  | c :: t =>
    if c == 'e' || c == 'E' then
      let (negative, t) := sign t
      (digits? Char.isDigit t).map fun (ds, t) =>
        (if negative then -(valueOf 10 ds : Int) else valueOf 10 ds, t)
    else none

/-- The digits after a decimal point. -/
def fraction? : Text → Option (Text × Text)
  | '.' :: t => digits? Char.isDigit t
  | _ => none

/-- The number of some digits, the last `places` of them after the point. One that is too large
is refused, but a negative one is infinite. -/
def floatOf (negative : Bool) (ds : Text) (places : Nat) (exponent : Int) : Option Binary64 :=
  match Binary64.ofDecimal negative (valueOf 10 ds) (exponent - places) with
  | .infinite false => none
  | x => some x

/-- A floating-point number in digits: it has a fraction, an exponent or both. -/
def finite? (t : Text) : Option (Binary64 × Text) :=
  match decimal? t with
  | none => none
  | some ((negative, whole), t) =>
    match fraction? t with
    | some (fraction, t) =>
      let (e, t) := (exponent? t).getD (0, t)
      (floatOf negative (whole ++ fraction) fraction.length e).map (·, t)
    | none =>
      match exponent? t with
      | some (e, t) => (floatOf negative whole 0 e).map (·, t)
      | none => none

/-- An infinity or no number, with a sign or without. -/
def special? (t : Text) : Option (Binary64 × Text) :=
  let (negative, t) := sign t
  match t with
  | 'i' :: 'n' :: 'f' :: t => some (.infinite negative, t)
  | 'n' :: 'a' :: 'n' :: t => some (.nan, t)
  | _ => none

/-- A floating-point number. -/
def float? (t : Text) : Option (Binary64 × Text) :=
  match finite? t with
  | some r => some r
  | none => special? t

end LineGauge.Toml
