import LineGauge.Number.Digits

/-! The JSON values a report needs: texts, natural numbers, lists and objects with ordered keys. -/
namespace LineGauge

inductive Json where
  | text (t : Text)
  | number (n : Nat)
  | list (items : List Json)
  | object (fields : List (Text × Json))

end LineGauge
