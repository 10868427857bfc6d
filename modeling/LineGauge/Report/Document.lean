import LineGauge.Report.Basic
import LineGauge.Json.Pretty

/-! The report as a JSON document. Paths are texts there, so a path that is not UTF-8 has no
document. -/
namespace LineGauge.Report

/-- A path as a JSON text. -/
def pathValue? (p : Path) : Option Json := p.text?.map .text

/-- A problem as an object. -/
def problemValue? (p : Problem) : Option Json :=
  (pathValue? p.path).map fun path =>
    .object [("path".toList, path), ("line".toList, .number p.line),
      ("observed".toList, .number p.observed), ("limit".toList, .number p.limit)]

/-- The whole report as an object. -/
def value? (r : Report) : Option Json := do
  let problems ← r.problems.mapM problemValue?
  let missing ← r.missing.mapM pathValue?
  return .object [("problems".toList, .number r.problems.length),
    ("violations".toList, .list problems), ("files_checked".toList, .number r.filesChecked),
    ("invalid_paths".toList, .list missing)]

/-- The text of the document, if every path is UTF-8. -/
def document? (r : Report) : Option Text := r.value?.map Json.pretty

end LineGauge.Report
