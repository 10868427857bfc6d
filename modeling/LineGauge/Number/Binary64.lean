/-! Binary floating-point numbers of 64 bits, in exact arithmetic on naturals. A finite number is
a mantissa below `2 ^ 53` times a power of two, in the form that its format stores: the mantissa
has its full 53 bits, or the exponent is the least one. -/
namespace LineGauge

/-- A number of the format, or one of its special values. -/
inductive Binary64 where
  | finite (negative : Bool) (mantissa : Nat) (exponent : Int)
  | infinite (negative : Bool)
  | nan
  deriving DecidableEq, Repr

namespace Binary64

/-- The exponent of the smallest numbers. -/
def leastExponent : Int := -1074

/-- The exponent of the greatest numbers. -/
def greatestExponent : Int := 971

/-- A quotient rounded to the nearest natural number, a half to the even one. -/
def roundDiv (num den : Nat) : Nat :=
  let q := num / den
  let twice := 2 * (num % den)
  if twice < den then q else if den < twice then q + 1 else q + q % 2

/-- `num / den` as a fraction of `2 ^ e`. -/
def scale (num den : Nat) (e : Int) : Nat × Nat :=
  (num * Nat.pow 2 (-e).toNat, den * Nat.pow 2 e.toNat)

/-- The exponent at which a positive fraction has 53 bits before the point, or the least one. -/
def exponentFor (num den : Nat) : Int :=
  let e : Int := (Nat.log2 num : Int) - (Nat.log2 den : Int) - 52
  let (a, b) := scale num den e
  max leastExponent (if a < Nat.pow 2 52 * b then e - 1 else e)

/-- The number nearest to a positive fraction, a half to the even mantissa; infinite above the
greatest number. -/
def ofFraction (negative : Bool) (num den : Nat) : Binary64 :=
  let e := exponentFor num den
  let (a, b) := scale num den e
  let m := roundDiv a b
  let (m, e) := if m == Nat.pow 2 53 then (Nat.pow 2 52, e + 1) else (m, e)
  if greatestExponent < e then .infinite negative else .finite negative m e

/-- The number nearest to `digits * 10 ^ exponent`. Beyond 310 places before the point the value
is infinite, and beyond 330 places after it, it is zero. -/
def ofDecimal (negative : Bool) (digits : Nat) (exponent : Int) : Binary64 :=
  let places := exponent + ((Nat.toDigits 10 digits).length : Int)
  if digits == 0 || places < -330 then .finite negative 0 leastExponent
  else if 310 < places then .infinite negative
  else ofFraction negative (digits * Nat.pow 10 exponent.toNat) (Nat.pow 10 (-exponent).toNat)

end Binary64

end LineGauge
