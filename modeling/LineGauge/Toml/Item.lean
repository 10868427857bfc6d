import LineGauge.Toml.Value

/-! Tables under construction. A table is defined once: by its own header, by a dotted key, or for
the time being by the header of a table below it, whose own header may still follow. -/
namespace LineGauge.Toml

/-- What has defined a table so far. -/
inductive Origin where
  /-- Its own header, or its braces. -/
  | header
  /-- The header of a table below it. -/
  | implied
  /-- A dotted key. -/
  | dotted
  deriving DecidableEq, Repr

inductive Item where
  | value (v : Value)
  | table (origin : Origin) (items : List (Text × Item))
  /-- A list of tables, each with a header of its own; later headers belong to the last one. -/
  | tables (elements : List (List (Text × Item)))

/-- The keys of a table under construction with their items, in the order of their definition. -/
abbrev Items := List (Text × Item)

namespace Item

mutual

/-- The finished value. -/
def toValue : Item → Value
  | .value v => v
  | .table _ items => .table (fieldsOf items)
  | .tables elements => .list (tablesOf elements)

def fieldsOf : List (Text × Item) → List (Text × Value)
  | [] => []
  | (key, item) :: items => (key, item.toValue) :: fieldsOf items

def tablesOf : List (List (Text × Item)) → List Value
  | [] => []
  | items :: elements => .table (fieldsOf items) :: tablesOf elements

end

end Item

/-- Changes the item of a key in its place, or adds it at the end. -/
def Items.put (items : Items) (key : Text) (item : Item) : Items :=
  match items with
  | [] => [(key, item)]
  | (k, i) :: rest => if k == key then (k, item) :: rest else (k, i) :: Items.put rest key item

/-- Takes a key out. -/
def Items.drop (items : Items) (key : Text) : Items := items.filter (·.1 != key)

/-- Changes the table at the end of a path, and makes the tables on the way that are missing;
`dots` says whether the path is that of a dotted key, which may not lead through a table with a
header of its own. A list of tables stands for its last one. -/
def changeAt? (dots : Bool) (change : Origin → Items → Option Items) (origin : Origin) :
    List Text → Items → Option Items
  | [], items => change origin items
  | key :: path, items =>
    let made : Origin := if dots then .dotted else .implied
    match items.lookup key with
    | none => (changeAt? dots change made path []).map fun new => items.put key (.table made new)
    | some (.value _) => none
    | some (.table o inner) =>
      if dots && o == .header then none
      else (changeAt? dots change o path inner).map fun new => items.put key (.table o new)
    | some (.tables elements) =>
      match elements.getLast? with
      | none => none
      | some last =>
        (changeAt? dots change .header path last).map fun new =>
          items.put key (.tables (elements.dropLast ++ [new]))

/-- Defines a key that is not there yet. -/
def define? (key : Text) (v : Value) (items : Items) : Option Items :=
  match items.lookup key with
  | some _ => none
  | none => some (items.put key (.value v))

/-- Defines a key by its dotted path within a table. The table it lands in must be the table
itself or one made by dotted keys. -/
def assign? (path : List Text) (v : Value) (origin : Origin) (items : Items) : Option Items :=
  match path.getLast? with
  | none => none
  | some key =>
    changeAt? true (fun o inner =>
      if (o == .dotted) == path.dropLast.isEmpty then none else define? key v inner)
      origin path.dropLast items

/-- The header of a table: the table must be new, or only implied so far. Then it keeps what it
has and moves to the end of the table around it. -/
def openTable? (key : Text) (items : Items) : Option Items :=
  match items.lookup key with
  | none => some (items.put key (.table .header []))
  | some (.table .implied inner) => some ((items.drop key).put key (.table .header inner))
  | some _ => none

/-- The header of one more table of a list. -/
def openElement? (key : Text) (items : Items) : Option Items :=
  match items.lookup key with
  | none => some (items.put key (.tables [[]]))
  | some (.tables elements) => some (items.put key (.tables (elements ++ [[]])))
  | some _ => none

end LineGauge.Toml
