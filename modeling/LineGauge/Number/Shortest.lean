import LineGauge.Number.Binary64
import LineGauge.Number.Digits

/-! The fewest decimal digits that read back as a binary number. A number stands for all values
that round to it: half the way to its neighbours, the ends included when its mantissa is even.
The coarsest decimal grid with a point in that interval is taken, on it the nearest point, and
the upper of two that are equally near. -/
namespace LineGauge.Binary64

/-- Compares `a * 10 ^ k` with `b * 2 ^ e`. -/
def compareScaled (a : Nat) (k : Int) (b : Nat) (e : Int) : Ordering :=
  compare (a * Nat.pow 10 k.toNat * Nat.pow 2 (-e).toNat)
    (b * Nat.pow 2 e.toNat * Nat.pow 10 (-k).toNat)

/-- Whether `a * 10 ^ k` rounds to the number with this mantissa and exponent. The gap below a
power of two is half as wide as the one above. -/
def roundsTo (mantissa : Nat) (exponent : Int) (a : Nat) (k : Int) : Bool :=
  let below := if mantissa == Nat.pow 2 52 && leastExponent < exponent then 1 else 2
  let low := compareScaled a k (4 * mantissa - below) (exponent - 2)
  let high := compareScaled a k (4 * mantissa + 2) (exponent - 2)
  if mantissa % 2 == 0 then low != .lt && high != .gt else low == .gt && high == .lt

/-- The grid point at or below the number on the grid of `10 ^ k`. -/
def floorOn (mantissa : Nat) (exponent k : Int) : Nat :=
  (mantissa * Nat.pow 2 exponent.toNat * Nat.pow 10 (-k).toNat) /
    (Nat.pow 10 k.toNat * Nat.pow 2 (-exponent).toNat)

/-- The number's point on the grid of `10 ^ k`, if some point of that grid rounds to it: the
nearer of its two neighbours there. -/
def pointOn? (mantissa : Nat) (exponent k : Int) : Option Nat :=
  let a := floorOn mantissa exponent k
  let lower := roundsTo mantissa exponent a k
  let upper := roundsTo mantissa exponent (a + 1) k
  -- twice the distance to the lower point against the width of the grid
  let upperIsNearer := compareScaled (2 * a + 1) k (2 * mantissa) exponent != .gt
  if lower && upper then some (if upperIsNearer then a + 1 else a)
  else if upper then some (a + 1)
  else if lower then some a
  else none

/-- The decimal exponent of the leading digit of a positive number. -/
def leadingPlace (mantissa : Nat) (exponent : Int) : Int :=
  let num := mantissa * Nat.pow 2 exponent.toNat
  let den := Nat.pow 2 (-exponent).toNat
  if den ≤ num then ((Nat.toDigits 10 (num / den)).length : Int) - 1
  else -((Nat.toDigits 10 ((den + num - 1) / num - 1)).length : Int)

/-- The first grid from `10 ^ k` downwards with a point for the number. Seventeen digits always
suffice. -/
def search (mantissa : Nat) (exponent : Int) : Nat → Int → Nat × Int
  | 0, k => (floorOn mantissa exponent k, k)
  | tries + 1, k =>
    match pointOn? mantissa exponent k with
    | some a => (a, k)
    | none => search mantissa exponent tries (k - 1)

/-- The shortest decimal `a * 10 ^ k` of a positive number, as the pair of `a` and `k`. The first
grid is the one above the leading digit: a number just below a power of ten may round up to it. -/
def shortest (mantissa : Nat) (exponent : Int) : Nat × Int :=
  search mantissa exponent 18 (leadingPlace mantissa exponent + 1)

/-- A decimal `a * 10 ^ k` without an exponent: zeros fill up to the point, and at least one digit
stands on either side of it. -/
def positional (a : Nat) (k : Int) : Text :=
  if 0 ≤ k then Number.decimal (a * Nat.pow 10 k.toNat) ++ ".0".toList
  else
    let digits := Number.decimal a
    let padded := List.replicate ((-k).toNat + 1 - digits.length) '0' ++ digits
    padded.take (padded.length - (-k).toNat) ++ '.' :: padded.drop (padded.length - (-k).toNat)

/-- A number as text. -/
def render : Binary64 → Text
  | .nan => "NaN".toList
  | .infinite negative => (if negative then ['-'] else []) ++ "inf".toList
  | .finite negative mantissa exponent =>
    (if negative then ['-'] else []) ++
      if mantissa == 0 then "0.0".toList
      else
        let (a, k) := shortest mantissa exponent
        positional a k

end LineGauge.Binary64
