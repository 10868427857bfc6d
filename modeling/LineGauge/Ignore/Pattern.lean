import LineGauge.Ignore.Glob

/-! Reading glob patterns. `?`, `*` and classes in brackets stay within a segment or match single
bytes, `**` between slashes stands for directories, braces hold alternatives, and a backslash
takes the next character as it is. A bracket that is never closed is an ordinary character. -/
namespace LineGauge.Glob

/-- Pattern reading: the tokens of the branch being read, last first, and for each open brace the
tokens before it and its finished branches, both last first. -/
structure Reading where
  tokens : List Token := []
  groups : List (List Token × List (List Token)) := []
  previous : Option Char := none
  /-- Characters already taken by the token before. -/
  skip : Nat := 0
  /-- A bracket was opened and never closed, so none can be. -/
  bracketIsLiteral : Bool := false

/-- Ranges of characters as ranges of the bytes they are written in: the range goes from the last
byte of its first character to the first byte of its last one, and the other bytes stand alone. -/
def byteRanges (first last : Char) : List (UInt8 × UInt8) :=
  let single (b : UInt8) : UInt8 × UInt8 := (b, b)
  let low := Utf8.encodeChar first
  let high := Utf8.encodeChar last
  if first == last then low.map single
  else low.dropLast.map single ++ low.getLast?.toList.zip high.head?.toList ++ high.tail.map single

/-- What a bracket opens. -/
inductive Class where
  /-- A class, with the number of characters up to its closing bracket. -/
  | closed (ranges : List (Char × Char)) (taken : Nat)
  | unclosed
  /-- A range whose ends are in the wrong order. -/
  | reversed

/-- Reads a class after its opening bracket and its negation. The ranges read so far come last
first; `dash` is set after a dash that may join two characters. A bracket or a dash is an ordinary
character when it comes first. -/
def readClass (isFirst dash : Bool) (ranges : List (Char × Char)) (taken : Nat) : Text → Class
  | [] => .unclosed
  | c :: rest =>
    if c == ']' && !isFirst then
      .closed ((if dash then [('-', '-')] else []) ++ ranges).reverse (taken + 1)
    else if c == '-' && !isFirst && !dash then readClass false true ranges (taken + 1) rest
    else match dash, ranges with
      | true, (low, _) :: others =>
        if c < low then .reversed else readClass false false ((low, c) :: others) (taken + 1) rest
      | _, _ => readClass false false ((c, c) :: ranges) (taken + 1) rest

namespace Reading

/-- Adds a token and takes some of the characters after the current one. -/
def push (r : Reading) (t : Token) (taken : Nat) : Reading :=
  { r with tokens := t :: r.tokens, skip := taken }

/-- Directories after a slash: they take the place of that slash, and directories that are already
there stay. -/
def pushDirs (r : Reading) (t : Token) (taken : Nat) : Reading :=
  match r.tokens with
  | .leadingDirs :: _ => { r with skip := taken }
  | .trailingDirs :: _ => { r with skip := taken }
  | _ :: ts => { r with tokens := t :: ts, skip := taken }
  | [] => r.push t taken

/-- One star, or two of them with what stands around them. -/
def star (r : Reading) (rest : Text) : Reading :=
  let twoStars := { r with tokens := .anyBytes :: .anyBytes :: r.tokens, skip := 1 }
  let follows (c : Char) : Bool := r.previous == some c
  let inGroup := !r.groups.isEmpty
  match rest with
  | '*' :: after =>
    if r.tokens.isEmpty then
      match after with
      | [] => r.push .leadingDirs 1
      | c :: _ => if c == '/' then r.push .leadingDirs 2 else twoStars
    else if !follows '/' && !(inGroup && (follows ',' || follows '\x7b')) then twoStars
    else match after with
      | [] => r.pushDirs .trailingDirs 1
      | c :: _ =>
        if inGroup && (c == ',' || c == '\x7d') then r.pushDirs .trailingDirs 1
        else if c == '/' then r.pushDirs .innerDirs 2
        else twoStars
  | _ => r.push .anyBytes 0

/-- A bracket with what comes after it; `none` for a class that cannot be. -/
def bracket? (r : Reading) (rest : Text) : Option Reading :=
  let negated := rest.head? == some '!' || rest.head? == some '^'
  let taken := if negated then 1 else 0
  match readClass true false [] taken (rest.drop taken) with
  | .closed ranges taken =>
    some (r.push (.oneOf negated (ranges.flatMap fun (a, z) => byteRanges a z)) taken)
  | .unclosed => some { r.push (.literal '[') 0 with bracketIsLiteral := true }
  | .reversed => none

/-- One character with what comes after it; `none` where no pattern can be. -/
def step? (r : Reading) (c : Char) (rest : Text) : Option Reading :=
  match c with
  | '?' => some (r.push .anyByte 0)
  | '*' => some (r.star rest)
  | '[' => if r.bracketIsLiteral then some (r.push (.literal '[') 0) else r.bracket? rest
  | '\x7b' => some { r with tokens := [], groups := (r.tokens, []) :: r.groups }
  | '\x7d' =>
    match r.groups with
    | [] => none
    | (before, branches) :: groups =>
      let branches := (r.tokens.reverse :: branches).reverse
      some { r with tokens := .alternatives branches :: before, groups := groups }
  | ',' =>
    match r.groups with
    | [] => some (r.push (.literal ',') 0)
    | (before, branches) :: groups =>
      some { r with tokens := [], groups := (before, r.tokens.reverse :: branches) :: groups }
  | '\\' =>
    match rest with
    | [] => none
    | d :: _ => some (r.push (.literal d) 1)
  | c => some (r.push (.literal c) 0)

/-- Reads the whole text. -/
def run? (r : Reading) : Text → Option Reading
  | [] => some r
  | c :: rest =>
    match r.skip with
    | skip + 1 => run? { r with skip := skip, previous := some c } rest
    | 0 =>
      match r.step? c rest with
      | some r => run? { r with previous := some c } rest
      | none => none

end Reading

/-- The pattern a text stands for; `none` if it stands for none. -/
def ofText? (t : Text) : Option Glob :=
  match Reading.run? {} t with
  | some r => if r.groups.isEmpty then some ⟨r.tokens.reverse⟩ else none
  | none => none

end LineGauge.Glob
