/-! Texts as lists of characters, and the blanks around them. Blank means the Unicode property
White_Space: the controls from tab to carriage return, the space, next line, no-break space and
the typographic spaces; not the information separators, the zero-width space or the byte order
mark. -/
namespace LineGauge

/-- A text is its list of Unicode scalar values. -/
abbrev Text := List Char

namespace Text

/-- The Unicode property White_Space. -/
def isBlank (c : Char) : Bool :=
  let n := c.toNat
  (0x09 ≤ n && n ≤ 0x0D) || n == 0x20 || n == 0x85 || n == 0xA0 || n == 0x1680 ||
    (0x2000 ≤ n && n ≤ 0x200A) || n == 0x2028 || n == 0x2029 || n == 0x202F || n == 0x205F ||
    n == 0x3000

/-- The text without its leading blanks. -/
def trimStart (t : Text) : Text := t.dropWhile isBlank

/-- The text without its trailing blanks. -/
def trimEnd (t : Text) : Text := (t.reverse.dropWhile isBlank).reverse

/-- The text without leading and trailing blanks. -/
def trim (t : Text) : Text := trimEnd (trimStart t)

end Text

/-- Splits a list at every separator; `n` separators give `n + 1` pieces. -/
def pieces {α : Type} (isSeparator : α → Bool) : List α → List (List α)
  | [] => [[]]
  | a :: as =>
    if isSeparator a then [] :: pieces isSeparator as
    else match pieces isSeparator as with
      | [] => [[a]]
      | p :: ps => (a :: p) :: ps

theorem pieces_ne_nil {α : Type} (isSeparator : α → Bool) (as : List α) :
    pieces isSeparator as ≠ [] := by
  cases as with
  | nil => simp [pieces]
  | cons a as =>
    simp only [pieces]
    split
    · simp
    · split <;> simp

end LineGauge
