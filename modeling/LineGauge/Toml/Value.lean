import LineGauge.Number.Binary64
import LineGauge.Text.Basic

/-! TOML values. A table keeps its keys in the order in which they were defined. A date, a time or
both is a moment; which one does not matter here. -/
namespace LineGauge.Toml

inductive Value where
  | text (t : Text)
  | integer (n : Int)
  | float (x : Binary64)
  | boolean (b : Bool)
  | moment
  | list (items : List Value)
  | table (fields : List (Text × Value))

/-- The keys of a table with their values. -/
abbrev Fields := List (Text × Value)

end LineGauge.Toml
