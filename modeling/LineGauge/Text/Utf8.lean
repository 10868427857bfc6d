import LineGauge.Text.Basic

/-! UTF-8. `units` reads bytes as characters and marks what is no character: each longest
beginning of a character that breaks off counts as one mark. Strict decoding wants no mark,
lossy decoding shows each as U+FFFD. -/
namespace LineGauge

/-- Raw bytes, as a file holds them and as a path is made of. -/
abbrev Bytes := List UInt8

namespace Utf8

/-- How many bytes the first byte of a character asks for; `stray` can start none. -/
inductive Lead where
  | single
  | pair
  | triple
  | quad
  | stray
  deriving DecidableEq, Repr

def lead (a : UInt8) : Lead :=
  if a < 0x80 then .single
  else if a < 0xC2 then .stray
  else if a < 0xE0 then .pair
  else if a < 0xF0 then .triple
  else if a < 0xF5 then .quad
  else .stray

/-- A continuation byte. -/
def isTail (b : UInt8) : Bool := 0x80 ≤ b && b ≤ 0xBF

/-- The second byte may not make the sequence overlong, a surrogate or too large. -/
def fits (a b : UInt8) : Bool :=
  isTail b && !(a == 0xE0 && b < 0xA0) && !(a == 0xED && 0xA0 ≤ b) && !(a == 0xF0 && b < 0x90) &&
    !(a == 0xF4 && 0x90 ≤ b)

def payload (b : UInt8) : Nat := b.toNat % 64

def code₂ (a b : UInt8) : Char := Char.ofNat (a.toNat % 32 * 64 + payload b)

def code₃ (a b c : UInt8) : Char :=
  Char.ofNat (a.toNat % 16 * 4096 + payload b * 64 + payload c)

def code₄ (a b c d : UInt8) : Char :=
  Char.ofNat (a.toNat % 8 * 262144 + payload b * 4096 + payload c * 64 + payload d)

/-- The character that `a` starts before `r`, and how many bytes of `r` belong to it; `none` for a
character that breaks off, with the bytes up to the break. -/
def next (a : UInt8) (r : Bytes) : Option Char × Nat :=
  match lead a, r with
  | .single, _ => (some (Char.ofNat a.toNat), 0)
  | .stray, _ => (none, 0)
  | _, [] => (none, 0)
  | .pair, b :: _ => if fits a b then (some (code₂ a b), 1) else (none, 0)
  | .triple, b :: r₂ =>
    if fits a b then
      match r₂ with
      | [] => (none, 1)
      | c :: _ => if isTail c then (some (code₃ a b c), 2) else (none, 1)
    else (none, 0)
  | .quad, b :: r₂ =>
    if fits a b then
      match r₂ with
      | [] => (none, 1)
      | [c] => (none, if isTail c then 2 else 1)
      | c :: d :: _ =>
        if isTail c then
          if isTail d then (some (code₄ a b c d), 3) else (none, 2)
        else (none, 1)
    else (none, 0)

/-- The characters after the next `skip` bytes, which belong to a character already read. -/
def unitsAfter : Nat → Bytes → List (Option Char)
  | _, [] => []
  | skip + 1, _ :: r => unitsAfter skip r
  | 0, a :: r => (next a r).1 :: unitsAfter (next a r).2 r

/-- The characters of a byte string; `none` stands for bytes that are no character. -/
def units (b : Bytes) : List (Option Char) := unitsAfter 0 b

/-- Every item, if none is missing. -/
def gather {α : Type} : List (Option α) → Option (List α)
  | [] => some []
  | none :: _ => none
  | some a :: as => (gather as).map (a :: ·)

/-- The text of a byte string, if it is UTF-8. -/
def decode? (b : Bytes) : Option Text := gather (units b)

/-- The text of a byte string, with U+FFFD for what is no character. -/
def decodeLossy (b : Bytes) : Text := (units b).map (·.getD (Char.ofNat 0xFFFD))

/-- The bytes of one character. -/
def encodeChar (c : Char) : Bytes :=
  let n := c.toNat
  if n < 0x80 then [UInt8.ofNat n]
  else if n < 0x800 then [UInt8.ofNat (0xC0 + n / 64), UInt8.ofNat (0x80 + n % 64)]
  else if n < 0x10000 then
    [UInt8.ofNat (0xE0 + n / 4096), UInt8.ofNat (0x80 + n / 64 % 64), UInt8.ofNat (0x80 + n % 64)]
  else
    [UInt8.ofNat (0xF0 + n / 262144), UInt8.ofNat (0x80 + n / 4096 % 64),
      UInt8.ofNat (0x80 + n / 64 % 64), UInt8.ofNat (0x80 + n % 64)]

/-- The bytes of a text. -/
def encode (t : Text) : Bytes := t.flatMap encodeChar

end Utf8

end LineGauge
