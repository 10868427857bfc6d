import LineGauge.Arguments.Basic

/-! Reading a command line, item by item. An item is an option with two dashes and maybe a value
after `=`, a cluster of short options the last of which may have its value attached, a plain
value, or `--`, after which every item is a path.

A value waits until the next item is understood: only then is it stored. So an item that names no
option, or a value attached to an option that takes none, is reported before anything that is
wrong with the values waiting. -/
namespace LineGauge.Arguments

/-- Values that wait to be stored. -/
inductive Pending where
  | nothing
  /-- An option whose value is still to come. -/
  | awaiting (option : Valued)
  | value (option : Valued) (v : Bytes)
  | paths (vs : List Bytes)
  deriving DecidableEq, Repr

/-- The reading of a command line. -/
structure Reading where
  found : Arguments := {}
  formatGiven : Bool := false
  pending : Pending := .nothing
  onlyPaths : Bool := false
  deriving DecidableEq, Repr

/-- A path; it may not be empty. -/
def pathValue (v : Bytes) : Except UsageError Path :=
  if v.isEmpty then .error .invalidValue else .ok ⟨v⟩

/-- A value as text. -/
def textValue (v : Bytes) : Except UsageError Text :=
  match Utf8.decode? v with
  | some t => .ok t
  | none => .error .notUtf8

/-- A number, read by one of the number readers. -/
def numberValue (reader : Text → Except Number.Refusal Nat) (v : Bytes) :
    Except UsageError Nat := do
  match reader (← textValue v) with
  | .ok n => .ok n
  | .error refusal => .error (.refused refusal)

/-- The output format. -/
def formatValue (v : Bytes) : Except UsageError Report.Format :=
  if v == Utf8.encode "text".toList then .ok .text
  else if v == Utf8.encode "json".toList then .ok .json
  else .error .invalidValue

/-- The items of a list, with commas between them. -/
def listItems (v : Bytes) : List Bytes := pieces (· == 0x2C) v

/-- An option that may stand once. -/
def once {α : Type} (given : Bool) (value : Except UsageError α) : Except UsageError α :=
  if given then .error .repeated else value

/-- Stores the value of an option. -/
def store (r : Reading) (option : Valued) (v : Bytes) : Except UsageError Reading :=
  let a := r.found
  let put (a : Arguments) : Reading := { r with found := a }
  match option with
  | .exclude => do
    return put { a with exclude := a.exclude ++ (← (listItems v).mapM pathValue) }
  | .extensions => do
    return put { a with extensions := a.extensions ++ (← (listItems v).mapM textValue) }
  | .extend => do
    return put { a with extend := some (← once a.extend.isSome (numberValue Number.level v)) }
  | .codeLength => do
    return put { a with
      codeLength := some (← once a.codeLength.isSome (numberValue Number.length v)) }
  | .docsLength => do
    return put { a with
      docsLength := some (← once a.docsLength.isSome (numberValue Number.length v)) }
  | .jobs => do
    return put { a with jobs := some (← once a.jobs.isSome (numberValue Number.positive v)) }
  | .maxDepth => do
    return put { a with
      maxDepth := some (← once a.maxDepth.isSome (numberValue Number.positive v)) }
  | .config => do
    return put { a with config := some (← once a.config.isSome (pathValue v)) }
  | .format => do
    let format ← once r.formatGiven (formatValue v)
    return { put { a with format := format } with formatGiven := true }

/-- Stores what waits. -/
def settle (r : Reading) : Except UsageError Reading :=
  let settled := { r with pending := .nothing }
  match r.pending with
  | .nothing => .ok settled
  | .awaiting _ => .error .invalidValue
  | .value option v => store settled option v
  | .paths vs => do
    let paths ← vs.mapM pathValue
    return { settled with found := { r.found with paths := r.found.paths ++ paths } }

/-- Turns a switch on. The two switches for strictness turn each other off. -/
def turnOn (a : Arguments) : Switch → Except UsageError Arguments
  | .strict => once a.strict (.ok { a with strict := true, noStrict := false })
  | .noStrict => once a.noStrict (.ok { a with noStrict := true, strict := false })
  | .follow => once a.follow (.ok { a with follow := true })
  | .gitignore => once a.gitignore (.ok { a with gitignore := true })
  | .help => .error .helpWanted
  | .version => .error .versionWanted

/-- A switch, after what waits is stored. -/
def takeSwitch (r : Reading) (option : Switch) : Except UsageError Reading := do
  let r ← settle r
  return { r with found := ← turnOn r.found option }

/-- An option with its value attached, after what waits is stored. -/
def takeAttached (r : Reading) (option : Valued) (v : Bytes) : Except UsageError Reading := do
  store (← settle r) option v

/-- An option whose value comes next, after what waits is stored. -/
def takeOption (r : Reading) (option : Valued) : Except UsageError Reading := do
  return { ← settle r with pending := .awaiting option }

/-- An item with two dashes, without them. A name that is not UTF-8 names no option. -/
def takeLong (r : Reading) (item : Bytes) : Except UsageError Reading :=
  let name := item.takeWhile (· != 0x3D)
  match (Utf8.decode? name).bind longKey?, item.drop name.length with
  | none, _ => .error .unknownArgument
  | some (.valued option), [] => takeOption r option
  | some (.valued option), _ :: v => takeAttached r option v
  | some (.switch option), [] => takeSwitch r option
  | some (.switch _), _ :: _ => .error .tooManyValues

/-- A cluster of short options, without the dash: switches, and then maybe an option with the rest
as its value. An equals sign in front of that value does not count. -/
def takeShort (r : Reading) : Bytes → Except UsageError Reading
  | [] => .ok r
  | b :: rest =>
    match shortKey? (Char.ofNat b.toNat) with
    | none => .error .unknownArgument
    | some (.switch option) => do takeShort (← takeSwitch r option) rest
    | some (.valued option) =>
      match rest with
      | [] => takeOption r option
      | c :: v => takeAttached r option (if c == 0x3D then v else c :: v)

/-- A path; paths that follow each other wait together. -/
def takePath (r : Reading) (v : Bytes) : Except UsageError Reading :=
  match r.pending with
  | .paths vs => .ok { r with pending := .paths (vs ++ [v]) }
  | _ => do return { ← settle r with pending := .paths [v] }

/-- A plain value: it belongs to the option that awaits one, or else is a path. -/
def takePlain (r : Reading) (v : Bytes) : Except UsageError Reading :=
  match r.pending with
  | .awaiting option => .ok { r with pending := .value option v }
  | _ => takePath r v

/-- One item of the command line. A single dash is a plain value. -/
def take (r : Reading) (item : Bytes) : Except UsageError Reading :=
  if r.onlyPaths then takePath r item
  else match item with
    | [0x2D, 0x2D] => .ok { r with onlyPaths := true }
    | 0x2D :: 0x2D :: long => takeLong r long
    | 0x2D :: b :: rest => takeShort r (b :: rest)
    | _ => takePlain r item

/-- Reads a command line, without the name of the program. -/
def parse (items : List Bytes) : Except UsageError Arguments := do
  let r ← items.foldlM take {}
  return (← settle r).found

end LineGauge.Arguments
