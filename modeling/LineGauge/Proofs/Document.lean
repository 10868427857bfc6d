import LineGauge.Proofs.Json
import LineGauge.Proofs.Output
import LineGauge.Proofs.Utf8

/-! The document of a report tells all of it. A report has none exactly if one of its paths is the
UTF-8 of no text; any other report is found in the value that its document is read as. -/
namespace LineGauge

open Json (Datum)

/-- The natural number that a value is. -/
def Json.Datum.natural? : Datum → Option Nat
  | .number x => if x.den = 1 ∧ 0 ≤ x.num then some x.num.toNat else none
  | _ => none

def Path.ofDatum? : Datum → Option Path
  | .text t => some (.ofText t)
  | _ => none

/-- The problem that an object of these four fields and no other is. -/
def Problem.ofDatum? : Datum → Option Problem
  | .object [(path, p), (line, l), (observed, o), (limit, m)] =>
    if path = "path".toList ∧ line = "line".toList ∧ observed = "observed".toList ∧
        limit = "limit".toList then do
      let path ← Path.ofDatum? p
      return { path, line := ← l.natural?, observed := ← o.natural?, limit := ← m.natural? }
    else none
  | _ => none

theorem natural?_number (n : Nat) : (Datum.number n).natural? = some n := by
  simp [Datum.natural?]

theorem ofDatum?_pathValue {p : Path} {v : Json} (written : Report.pathValue? p = some v) :
    Path.ofDatum? v.datum = some p := by
  obtain ⟨t, read, rfl⟩ := Option.map_eq_some_iff.mp written
  have bytes : Utf8.encode t = p.bytes := Utf8.encode_decode? read
  rw [Json.datum, Path.ofDatum?, Path.ofText, bytes]

theorem ofDatum?_problemValue {p : Problem} {v : Json} (written : Report.problemValue? p = some v) :
    Problem.ofDatum? v.datum = some p := by
  obtain ⟨path, found, rfl⟩ := Option.map_eq_some_iff.mp written
  simp [Json.datum, Json.fieldsOf, Problem.ofDatum?, ofDatum?_pathValue found, natural?_number]

/-- Values written one by one are read one by one. -/
theorem mapM_dataOf {α : Type} {write : α → Option Json} {read : Datum → Option α}
    (reads : ∀ {a v}, write a = some v → read v.datum = some a) {as : List α} {vs : List Json}
    (written : as.mapM write = some vs) : (Json.dataOf vs).mapM read = some as := by
  induction as generalizing vs with
  | nil =>
    cases written
    rfl
  | cons a as ih =>
    rw [List.mapM_cons] at written
    obtain ⟨v, first, written⟩ := Option.bind_eq_some_iff.mp written
    obtain ⟨later, others, written⟩ := Option.bind_eq_some_iff.mp written
    cases Option.some.inj written
    rw [Json.dataOf, List.mapM_cons, reads first, ih others]
    rfl

namespace Report

/-- A problem or a missing root has a path that is the UTF-8 of no text. -/
def HasInvalidPath (r : Report) : Prop :=
  (∃ p ∈ r.problems, ¬ Utf8.Valid p.path.bytes) ∨ ∃ root ∈ r.missing, ¬ Utf8.Valid root.bytes

theorem hasInvalidPath_iff {r : Report} : r.HasInvalidPath ↔ r.HasRawPath := by
  simp only [HasInvalidPath, HasRawPath, Path.text?, Utf8.decode?_eq_none]

/-- A report has no document exactly if one of its paths is not UTF-8. The document of any other
report is JSON for an object with four fields: the number of problems, the problems in their order,
the number of files and the missing roots, each as it is in the report. -/
theorem document_reads_back (r : Report) : (r.document? = none ↔ r.HasInvalidPath) ∧
    (¬ r.HasInvalidPath → ∃ text violations missing, r.document? = some text ∧
      Json.decode? text = some (.object [("problems".toList, .number r.problems.length),
        ("violations".toList, .list violations), ("files_checked".toList, .number r.filesChecked),
        ("invalid_paths".toList, .list missing)]) ∧
      violations.mapM Problem.ofDatum? = some r.problems ∧
      missing.mapM Path.ofDatum? = some r.missing) := by
  have failed : r.document? = none ↔ r.HasInvalidPath := by
    rw [document?_eq_none, hasInvalidPath_iff]
  refine ⟨failed, fun valid => ?_⟩
  obtain ⟨text, written⟩ := Option.ne_none_iff_exists'.mp (mt failed.mp valid)
  obtain ⟨value, whole, rfl⟩ := Option.map_eq_some_iff.mp written
  rw [value?] at whole
  obtain ⟨problems, hp, whole⟩ := Option.bind_eq_some_iff.mp whole
  obtain ⟨missing, hm, whole⟩ := Option.bind_eq_some_iff.mp whole
  cases Option.some.inj whole
  refine ⟨_, Json.dataOf problems, Json.dataOf missing, written, ?_,
    mapM_dataOf ofDatum?_problemValue hp, mapM_dataOf ofDatum?_pathValue hm⟩
  rw [Json.decode?_pretty]
  rfl

/-- Paths with characters that are escaped or take several bytes, and the greatest line length. -/
def oddReport : Report where
  problems := [{
    path := .ofText "say \"a\\b\"\x1f.rs".toList
    line := 1
    observed := Nat.pow 2 64 - 1
    limit := 79 }]
  filesChecked := 2
  missing := [.ofText "é/😀".toList, .ofText []]

theorem document_reads_back_oddReport : ¬ oddReport.HasInvalidPath ∧
    ∃ text violations missing, oddReport.document? = some text ∧
      Json.decode? text = some (.object [("problems".toList, .number 1),
        ("violations".toList, .list violations), ("files_checked".toList, .number 2),
        ("invalid_paths".toList, .list missing)]) ∧
      violations.mapM Problem.ofDatum? = some oddReport.problems ∧
      missing.mapM Path.ofDatum? = some oddReport.missing := by
  have valid : ¬ oddReport.HasInvalidPath := by
    rw [hasInvalidPath_iff]
    decide
  exact ⟨valid, (document_reads_back oddReport).2 valid⟩

end Report

end LineGauge
