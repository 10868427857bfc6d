import LineGauge.Text.Basic

/-! The two limits of a check: one for code lines, one for documentation and comment lines. -/
namespace LineGauge

/-- The greatest lengths that are still accepted. -/
structure Limits where
  code : Nat := 79
  docs : Nat := 72
  deriving DecidableEq, Repr

namespace Limits

/-- The code limit of an extension level; there are three levels. -/
def codeAtLevel? : Nat → Option Nat
  | 0 => some 79
  | 1 => some 88
  | 2 => some 99
  | _ => none

/-- What a user is told about a level that does not exist. -/
def noLevelMessage : Text := "'extend' should be between 0 and 2 inclusive".toList

/-- Limits from a level, with explicit lengths in front of it. The level must exist even when
an explicit code length makes it irrelevant. -/
def resolve? (level : Nat) (code docs : Option Nat) : Option Limits :=
  (codeAtLevel? level).map fun atLevel =>
    { code := code.getD atLevel, docs := docs.getD 72 }

end Limits

end LineGauge
