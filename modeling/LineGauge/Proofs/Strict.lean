import LineGauge.Proofs.Collect

/-! Strict mode. It is asked for in two places, at every missing root and once more when all files
are measured, and yet a strict check is nothing but the lenient one with a verdict on its report. -/
namespace LineGauge

/-- The verdict of strict mode: the first missing root is an error, and else overlong lines are. -/
def Report.judge (r : Report) : Except CheckError Report :=
  match r.missing with
  | root :: _ => .error (.missingRoot root)
  | [] => if r.isClean then .ok r else .error (.overlong r)

theorem Report.judge_missing {r : Report} {root : Path} {others : List Path}
    (missing : r.missing = root :: others) : r.judge = .error (.missingRoot root) := by
  rw [judge, missing]

theorem Report.judge_overlong {r : Report} (complete : r.missing = []) (bad : r.problems ≠ []) :
    r.judge = .error (.overlong r) := by
  simp [judge, complete, isClean, bad]

theorem Report.judge_eq_ok {r result : Report} :
    r.judge = .ok result ↔ result = r ∧ r.missing = [] ∧ r.problems = [] := by
  constructor
  · intro accepted
    unfold judge at accepted
    split at accepted
    · cases accepted
    · rename_i complete
      split at accepted
      · rename_i clean
        cases accepted
        exact ⟨rfl, complete, List.isEmpty_iff.mp clean⟩
      · cases accepted
  · rintro ⟨rfl, complete, clean⟩
    simp [judge, complete, isClean, clean]

/-- What the check of the roots reports when nothing is an error. -/
def lenientReport (c : Config) (s : Snapshot) (cwd : Path) (roots : List Path) : Report :=
  reportOn c s cwd (collectAll c s cwd roots)

section
variable (c : Config) (s : Snapshot) (cwd : Path) (roots : List Path)

theorem lenientReport_strictness (strict : Bool) :
    lenientReport { c with strict } s cwd roots = lenientReport c s cwd roots := by
  have alike : Config.SelectsAlike { c with strict } c := ⟨rfl, rfl, rfl⟩
  rw [lenientReport, collectAll_alike alike]
  rfl

theorem lenientReport_missing :
    (lenientReport c s cwd roots).missing = roots.filter fun root => !s.pathExists cwd root := by
  rw [lenientReport, collectAll_eq]
  rfl

theorem check_unusable (unusable : c.markers.isUsable = false) :
    check c s cwd roots = .error .unusableMarkers := by
  simp [check, unusable]

theorem check_strict (strict : c.strict = true) (usable : c.markers.isUsable = true) :
    check c s cwd roots = (lenientReport c s cwd roots).judge := by
  rw [check, collect_strict c s cwd roots strict]
  simp only [usable, Bool.not_true, Bool.false_eq_true, if_false, strict, Bool.true_and]
  cases missing : (collectAll c s cwd roots).missing with
  | cons root others =>
    have listed : (lenientReport c s cwd roots).missing = root :: others := missing
    rw [Report.judge_missing listed]
  | nil =>
    have complete : (reportOn c s cwd (collectAll c s cwd roots)).missing = [] := missing
    simp only [lenientReport, Report.judge, complete]
    by_cases clean : (reportOn c s cwd (collectAll c s cwd roots)).isClean = true
    · simp only [clean, Bool.not_true, Bool.false_eq_true, if_false, if_true]
    · simp only [clean, Bool.not_false, if_true, Bool.false_eq_true, if_false]

theorem check_without_strict (usable : c.markers.isUsable = true) :
    check { c with strict := false } s cwd roots = .ok (lenientReport c s cwd roots) := by
  rw [← lenientReport_strictness c s cwd roots false]
  exact check_lenient { c with strict := false } s cwd roots rfl usable

theorem check_missing {s : Snapshot} {cwd : Path} {roots : List Path} {report : Report}
    (checked : check { c with strict := false } s cwd roots = .ok report)
    (usable : c.markers.isUsable = true) :
    report.missing = roots.filter fun root => !s.pathExists cwd root := by
  rw [check_without_strict c s cwd roots usable] at checked
  rw [← Except.ok.inj checked, lenientReport_missing]

theorem check_with_strict (usable : c.markers.isUsable = true) :
    check { c with strict := true } s cwd roots = (lenientReport c s cwd roots).judge := by
  rw [← lenientReport_strictness c s cwd roots true]
  exact check_strict { c with strict := true } s cwd roots rfl usable

end

/-- Strict mode only judges the report of the lenient check. If roots are missing there, the first
of them is the error, whatever the other roots contain; if not, overlong lines are an error that
carries that very report and reads like it; and if there are none the report is the result. With
markers that cannot be used there is no report in either mode. -/
theorem strict_judges_report (c : Config) (s : Snapshot) (cwd : Path) (roots : List Path) :
    (c.markers.isUsable = true → ∃ report,
      check { c with strict := false } s cwd roots = .ok report ∧
      report.missing = roots.filter (fun root => !s.pathExists cwd root) ∧
      (∀ first others, report.missing = first :: others →
        check { c with strict := true } s cwd roots = .error (.missingRoot first)) ∧
      (report.missing = [] → report.problems ≠ [] →
        check { c with strict := true } s cwd roots = .error (.overlong report)) ∧
      (report.missing = [] → report.problems = [] →
        check { c with strict := true } s cwd roots = .ok report) ∧
      (CheckError.overlong report).message = report.display) ∧
    (c.markers.isUsable = false → ∀ strict,
      check { c with strict } s cwd roots = .error .unusableMarkers) := by
  constructor
  · intro usable
    rw [check_with_strict c s cwd roots usable]
    refine ⟨lenientReport c s cwd roots, check_without_strict c s cwd roots usable,
      lenientReport_missing c s cwd roots, ?_, ?_, ?_, rfl⟩
    · intro first others listed
      exact Report.judge_missing listed
    · intro complete bad
      exact Report.judge_overlong complete bad
    · intro complete clean
      exact Report.judge_eq_ok.mpr ⟨rfl, complete, clean⟩
  · intro unusable strict
    exact check_unusable { c with strict } s cwd roots unusable

theorem strict_judges_report_lineTree :
    let cwd : Path := .ofText ['/', 'w']
    let file : Path := .ofText ['a', '.', 'p', 'y']
    let absent : Path := .ofText ['x']
    let tight : Config := { exclusions := {}, limits := { code := 2, docs := 2 } }
    let loose : Config := { exclusions := {}, limits := { code := 3, docs := 3 } }
    check { tight with strict := true } lineTree cwd [file, absent] = .error (.missingRoot absent) ∧
      (∃ report, check tight lineTree cwd [file] = .ok report ∧ report.problems.length = 2 ∧
        check { tight with strict := true } lineTree cwd [file] = .error (.overlong report)) ∧
      check { loose with strict := true } lineTree cwd [file] = .ok { filesChecked := 1 } := by
  intro cwd file absent tight loose
  obtain ⟨_, _, missing, first, _⟩ :=
    (strict_judges_report tight lineTree cwd [file, absent]).1 rfl
  obtain ⟨bad, found, complete, _, overlong, _⟩ :=
    (strict_judges_report tight lineTree cwd [file]).1 rfl
  obtain ⟨good, fine, _, _, _, clean, _⟩ :=
    (strict_judges_report loose lineTree cwd [file]).1 rfl
  refine ⟨first absent [] (missing.trans (by decide)), ⟨bad, found, ?_⟩, ?_⟩
  · have lenient := check_without_strict tight lineTree cwd [file] rfl
    have same := Except.ok.inj (found.symm.trans lenient)
    have two : bad.problems.length = 2 := by
      rw [same]
      decide
    have some : bad.problems ≠ [] := List.ne_nil_of_length_pos (by omega)
    exact ⟨two, overlong (complete.trans (by decide)) some⟩
  · have lenient := check_without_strict loose lineTree cwd [file] rfl
    have same := Except.ok.inj (fine.symm.trans lenient)
    have report : lenientReport loose lineTree cwd [file] = { filesChecked := 1 } := by decide
    rw [report] at same
    subst same
    exact clean rfl rfl

end LineGauge
