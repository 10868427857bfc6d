import LineGauge.Number.Argument
import LineGauge.Number.Shortest
import LineGauge.Path.Basic
import LineGauge.Settings.Basic
import LineGauge.Text.Quoted
import LineGauge.Toml.Parse

/-! Settings from a TOML document. Keys without a meaning are passed over, and the first value of
a wrong type is reported, in the order of the document. A list may stand for a table: then it
holds the values of the keys in their fixed order. A moment counts as a table without keys. -/
namespace LineGauge.Settings

/-- What a place in the document asks for. -/
inductive Expected where
  | word
  | byte
  | boolean
  | sequence
  | path
  | text
  | tools
  | settings
  deriving DecidableEq, Repr

def Expected.name : Expected → Text
  | .word => "usize".toList
  | .byte => "u8".toList
  | .boolean => "a boolean".toList
  | .sequence => "a sequence".toList
  | .path => "path string".toList
  | .text => "a string".toList
  | .tools => "struct Tools".toList
  | .settings => "struct Settings".toList

/-- A value where another was expected, as messages call it. -/
def describe : Toml.Value → Text
  | .text t => "string ".toList ++ t.quote
  | .integer n => "integer `".toList ++ integerText n ++ "`".toList
  | .float x => "floating point `".toList ++ x.render ++ "`".toList
  | .boolean b => "boolean `".toList ++ (if b then "true" else "false").toList ++ "`".toList
  | .moment => "map".toList
  | .table _ => "map".toList
  | .list _ => "sequence".toList
where
  integerText (n : Int) : Text :=
    if n < 0 then '-' :: Number.decimal n.natAbs else Number.decimal n.natAbs

/-- Why a document gives no settings though it is well formed. -/
inductive TypeError where
  | wrongType (found : Toml.Value) (expected : Expected)
  /-- An integer that is negative or too large. -/
  | outOfRange (n : Int) (expected : Expected)
  /-- A list that stands for a table and ends before a key that needs a value. -/
  | tooShort (length : Nat) (expected : Expected) (size : Nat)

def TypeError.message : TypeError → Text
  | .wrongType found expected =>
    "invalid type: ".toList ++ describe found ++ ", expected ".toList ++ expected.name
  | .outOfRange n expected =>
    "invalid value: ".toList ++ describe (.integer n) ++ ", expected ".toList ++ expected.name
  | .tooShort length expected size =>
    "invalid length ".toList ++ Number.decimal length ++ ", expected ".toList ++ expected.name ++
      " with ".toList ++ Number.decimal size ++
      (if size == 1 then " element" else " elements").toList

/-- A natural number up to the greatest one. -/
def natural (expected : Expected) (greatest : Nat) : Toml.Value → Except TypeError Nat
  | .integer n =>
    if 0 ≤ n && n.toNat ≤ greatest then .ok n.toNat else .error (.outOfRange n expected)
  | v => .error (.wrongType v expected)

def word : Toml.Value → Except TypeError Nat := natural .word Number.greatestWord

def byte : Toml.Value → Except TypeError Nat := natural .byte Number.greatestByte

def boolean : Toml.Value → Except TypeError Bool
  | .boolean b => .ok b
  | v => .error (.wrongType v .boolean)

def path : Toml.Value → Except TypeError Path
  | .text t => .ok (.ofText t)
  | v => .error (.wrongType v .path)

def text : Toml.Value → Except TypeError Text
  | .text t => .ok t
  | v => .error (.wrongType v .text)

def listOf {α : Type} (item : Toml.Value → Except TypeError α) :
    Toml.Value → Except TypeError (List α)
  | .list items => items.mapM item
  | v => .error (.wrongType v .sequence)

/-- The keys with a meaning. -/
inductive Key where
  | roots
  | exclude
  | codeLength
  | docsLength
  | extend
  | strict
  | extensions
  deriving DecidableEq, Repr

namespace Key

def name : Key → Text
  | .roots => "include".toList
  | .exclude => "exclude".toList
  | .codeLength => "code-length".toList
  | .docsLength => "docs-length".toList
  | .extend => "extend".toList
  | .strict => "strict".toList
  | .extensions => "extensions".toList

/-- All keys, in the order of the values in a list. -/
def all : List Key :=
  [.roots, .exclude, .codeLength, .docsLength, .extend, .strict, .extensions]

/-- The key of a name. -/
def ofName? (n : Text) : Option Key := all.find? (·.name == n)

/-- Whether a list that stands for a table may end before the key. -/
def hasDefault : Key → Bool
  | .roots => true
  | .exclude => true
  | .extensions => true
  | _ => false

end Key

/-- Sets one key. -/
def set (s : Settings) (key : Key) (v : Toml.Value) : Except TypeError Settings :=
  match key with
  | .roots => do return { s with roots := ← listOf path v }
  | .exclude => do return { s with exclude := ← listOf path v }
  | .codeLength => do return { s with codeLength := some (← word v) }
  | .docsLength => do return { s with docsLength := some (← word v) }
  | .extend => do return { s with extend := some (← byte v) }
  | .strict => do return { s with strict := some (← boolean v) }
  | .extensions => do return { s with extensions := ← listOf text v }

/-- Sets the key of a field, if it has a meaning. -/
def setField (s : Settings) (field : Text × Toml.Value) : Except TypeError Settings :=
  match Key.ofName? field.1 with
  | some key => s.set key field.2
  | none => .ok s

/-- Settings from a table. -/
def ofFields (fields : Toml.Fields) : Except TypeError Settings := fields.foldlM setField {}

/-- Settings from a list: the values of the keys from the one with this number on. -/
def ofItems (number : Nat) (s : Settings) : List Key → List Toml.Value → Except TypeError Settings
  | [], _ => .ok s
  | key :: keys, [] =>
    if key.hasDefault then ofItems (number + 1) s keys []
    else .error (.tooShort number .settings Key.all.length)
  | key :: keys, v :: vs => do ofItems (number + 1) (← s.set key v) keys vs

/-- Settings from the value of their table. -/
def ofValue : Toml.Value → Except TypeError Settings
  | .table fields => ofFields fields
  | .list items => ofItems 0 {} Key.all items
  | .moment => .ok {}
  | v => .error (.wrongType v .settings)

/-- The name of the settings table below `tool`. -/
def toolName : Text := "len8".toList

/-- Settings from the value of `tool`. -/
def ofTools : Toml.Value → Except TypeError Settings
  | .table fields =>
    match fields.lookup toolName with
    | some v => ofValue v
    | none => .ok {}
  | .list [] => .error (.tooShort 0 .tools 1)
  | .list (v :: _) => ofValue v
  | .moment => .ok {}
  | v => .error (.wrongType v .tools)

/-- Settings from a whole document. -/
def ofDocument (fields : Toml.Fields) : Except TypeError Settings :=
  match fields.lookup "tool".toList with
  | some v => ofTools v
  | none => .ok {}

/-- Why a text gives no settings. -/
inductive ParseError where
  | malformed
  | mistyped (e : TypeError)

/-- Settings from the text of a document. -/
def parse (t : Text) : Except ParseError Settings :=
  match Toml.parse? t with
  | none => .error .malformed
  | some fields =>
    match ofDocument fields with
    | .ok s => .ok s
    | .error e => .error (.mistyped e)

end LineGauge.Settings
