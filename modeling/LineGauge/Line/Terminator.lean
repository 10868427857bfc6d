import LineGauge.Text.Basic

/-! Physical lines. A line ends with LF, with CR LF or with a lone CR; a last line may lack its
end if it is not empty. -/
namespace LineGauge.Line

/-- Every CR LF as a single LF. -/
def unifyEnds : Text → Text
  | [] => []
  | '\r' :: '\n' :: t => '\n' :: unifyEnds t
  | c :: t => c :: unifyEnds t

/-- The characters that end a line. -/
def isEnd (c : Char) : Bool := c == '\n' || c == '\r'

/-- The list without its last item, if that is empty. -/
def dropFinalEmpty {α : Type} : List (List α) → List (List α)
  | [] => []
  | [p] => if p.isEmpty then [] else [p]
  | p :: q :: ps => p :: dropFinalEmpty (q :: ps)

/-- The lines of a file's text, without their ends. -/
def ofText (content : Text) : List Text := dropFinalEmpty (pieces isEnd (unifyEnds content))

end LineGauge.Line
