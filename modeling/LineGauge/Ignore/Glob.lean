import LineGauge.Path.Basic

/-! Glob patterns over the bytes of a relative path. Matching keeps the set of what can be left of
the path after the tokens read so far; a path matches when nothing can be left. -/
namespace LineGauge

/-- One token of a pattern. -/
inductive Token where
  /-- The bytes of one character. -/
  | literal (c : Char)
  /-- One byte other than a slash. -/
  | anyByte
  /-- Bytes other than slashes, any number of them. -/
  | anyBytes
  /-- Nothing, a slash, or anything that ends in a slash. -/
  | leadingDirs
  /-- A slash, or a slash and anything that ends in a slash. -/
  | innerDirs
  /-- A slash and anything. -/
  | trailingDirs
  /-- One byte of some ranges, or of none of them. -/
  | oneOf (negated : Bool) (ranges : List (UInt8 × UInt8))
  /-- One of several patterns. Empty ones do not count, and without others this is nothing. -/
  | alternatives (branches : List (List Token))

namespace Token

/-- The bytes of the list and of all its ends. -/
def ends : Bytes → List Bytes
  | [] => [[]]
  | b :: r => (b :: r) :: ends r

/-- What can be left after bytes other than slashes. -/
def endsInSegment : Bytes → List Bytes
  | [] => [[]]
  | b :: r => (b :: r) :: if b == slash then [] else endsInSegment r

/-- What is left after each slash. -/
def afterSlashes : Bytes → List Bytes
  | [] => []
  | b :: r => if b == slash then r :: afterSlashes r else afterSlashes r

/-- The byte after which a path goes on, if it starts with one that is accepted. -/
def afterByte (accepts : UInt8 → Bool) : Bytes → List Bytes
  | [] => []
  | b :: r => if accepts b then [r] else []

def afterSlash (k : Bytes → List Bytes) : Bytes → List Bytes
  | [] => []
  | b :: r => if b == slash then k r else []

mutual

/-- Whether the token stands for nothing at all. -/
def isVoid : Token → Bool
  | .alternatives branches => areVoid branches
  | _ => false

/-- Whether every token of a pattern stands for nothing. -/
def isVoidAll : List Token → Bool
  | [] => true
  | t :: ts => t.isVoid && isVoidAll ts

def areVoid : List (List Token) → Bool
  | [] => true
  | b :: bs => isVoidAll b && areVoid bs

end

mutual

/-- What can be left of each of the paths after the token. -/
def advance (rests : List Bytes) : Token → List Bytes
  | .literal c => rests.filterMap (Path.after? (Utf8.encodeChar c))
  | .anyByte => rests.flatMap (afterByte (· != slash))
  | .anyBytes => rests.flatMap endsInSegment
  | .leadingDirs => rests.flatMap fun r => r :: afterSlashes r
  | .innerDirs => rests.flatMap (afterSlash fun r => r :: afterSlashes r)
  | .trailingDirs => rests.flatMap (afterSlash ends)
  | .oneOf negated ranges =>
    rests.flatMap (afterByte fun b => ranges.any (fun (a, z) => a ≤ b && b ≤ z) != negated)
  | .alternatives branches => if areVoid branches then rests else advanceAny rests branches

/-- What can be left after a pattern. -/
def advanceAll (rests : List Bytes) : List Token → List Bytes
  | [] => rests
  | t :: ts => advanceAll (advance rests t).eraseDups ts

/-- What can be left after one of several patterns, the empty ones apart. -/
def advanceAny (rests : List Bytes) : List (List Token) → List Bytes
  | [] => []
  | b :: bs => (if isVoidAll b then [] else advanceAll rests b) ++ advanceAny rests bs

end

def isLiteral : Token → Bool
  | .literal _ => true
  | _ => false

def isLiteralOf (c : Char) : Token → Bool
  | .literal d => c == d
  | _ => false

end Token

/-- A pattern for relative paths. -/
structure Glob where
  tokens : List Token

namespace Glob

/-- Whether the pattern is a whole path spelled out, from the start or from some directory on. -/
def spellsPath (g : Glob) : Bool :=
  match g.tokens with
  | .leadingDirs :: ts => ts.all (·.isLiteral) && ts.any (·.isLiteralOf '/')
  | ts => ts.all (·.isLiteral)

/-- Whether the pattern looks at the name alone and asks for a dot at its end. A name that ends
in a dot is no file name, so such a pattern applies to nothing. -/
def asksForFinalDot (g : Glob) : Bool :=
  g.tokens.getLast?.any (·.isLiteralOf '.') && !g.spellsPath

/-- Whether the pattern matches a relative path. The pattern `**` matches every path. -/
def isMatch (g : Glob) (path : Bytes) : Bool :=
  match g.tokens with
  | [.leadingDirs] => true
  | ts => !g.asksForFinalDot && (Token.advanceAll [path] ts).contains []

end Glob

end LineGauge
