import Mathlib.Data.List.Flatten
import LineGauge.Proofs.Strict

/-! Wider limits. Which lines belong to the header and which to documentation never depends on the
limits, so two scans of a file under different limits pass through the same states, and every line
that is over the wider limit is over the tighter one at the same step. -/
namespace LineGauge

structure Limits.Within (tight wide : Limits) : Prop where
  code : tight.code ≤ wide.code
  docs : tight.docs ≤ wide.docs

/-- Which line it is and how long, whatever its limit. -/
def Overlong.reading (o : Overlong) : Nat × Nat := (o.line, o.observed)

/-- Which line of which file it is and how long, whatever its limit. -/
def Problem.reading (p : Problem) : Path × Nat × Nat := (p.path, p.line, p.observed)

section
variable {tight wide : Limits} (within : tight.Within wide)
include within

theorem Line.limitFor_mono (m : Markers) (inDocs : Bool) (line : Text) :
    limitFor tight m inDocs line ≤ limitFor wide m inDocs line := by
  unfold limitFor
  split
  · exact within.docs
  · exact within.code

theorem Line.scanFrom_sublist (m : Markers) (state : State) (number : Nat) (lines : List Text) :
    ((scanFrom wide m state number lines).map Overlong.reading).Sublist
      ((scanFrom tight m state number lines).map Overlong.reading) := by
  induction lines generalizing state number with
  | nil => exact .slnil
  | cons line rest ih =>
    rw [scanFrom, scanFrom]
    split
    · exact ih state (number + 1)
    · -- the next state is the same for both, so `ih` applies whichever of them reports the line
      simp only
      have limit := limitFor_mono within m (state.inDocs || m.isOpening line) line
      have later := ih { inDocs := (state.inDocs || m.isOpening line) && !m.isClosing line,
                         inHeader := false } (number + 1)
      by_cases long : limitFor wide m (state.inDocs || m.isOpening line) line < measure line
      · have longer := Nat.lt_of_le_of_lt limit long
        rw [if_pos long, if_pos longer]
        exact later.cons_cons (number, measure line)
      · rw [if_neg long]
        split
        · exact later.cons (number, measure line)
        · exact later

theorem problemsOf_sublist (c : Config) (s : Snapshot) (cwd file : Path) :
    ((problemsOf { c with limits := wide } s cwd file).map Problem.reading).Sublist
      ((problemsOf { c with limits := tight } s cwd file).map Problem.reading) := by
  simp only [problemsOf_eq, List.map_map]
  cases s.textAt? cwd file with
  | none => exact .slnil
  | some text =>
    have lines := Line.scanFrom_sublist within c.markers {} 1 (Line.ofText text)
    have named := lines.map fun reading => (file, reading)
    rw [List.map_map, List.map_map] at named
    exact named

end

section
variable (c : Config) (s : Snapshot) (cwd : Path) (roots : List Path)

theorem lenientReport_limits (limits : Limits) :
    lenientReport { c with limits } s cwd roots =
      { lenientReport c s cwd roots with
        problems := (collectAll c s cwd roots).files.flatMap
          (problemsOf { c with limits } s cwd) } := by
  have alike : Config.SelectsAlike { c with limits } c := ⟨rfl, rfl, rfl⟩
  rw [lenientReport, collectAll_alike alike]
  rfl

theorem lenientReport_sublist {wide : Limits} (within : c.limits.Within wide) :
    ((lenientReport { c with limits := wide } s cwd roots).problems.map Problem.reading).Sublist
      ((lenientReport c s cwd roots).problems.map Problem.reading) := by
  rw [lenientReport_limits]
  simp only [lenientReport, reportOn, List.map_flatMap]
  apply List.Sublist.flatMap_right
  intro file _
  exact problemsOf_sublist within c s cwd file

theorem lenientReport_clean {wide : Limits} (within : c.limits.Within wide)
    (clean : (lenientReport c s cwd roots).problems = []) :
    lenientReport { c with limits := wide } s cwd roots = lenientReport c s cwd roots := by
  have none : (lenientReport { c with limits := wide } s cwd roots).problems = [] := by
    have fewer := lenientReport_sublist c s cwd roots within
    rw [clean] at fewer
    exact List.map_eq_nil_iff.mp (List.sublist_nil.mp fewer)
  rw [lenientReport_limits] at none ⊢
  simp only at none
  rw [none, ← clean]

end

/-- Wider limits add no problem: the problems under them, each read as its file, its line and its
length, are among those under the tighter limits, in the same order, and the same files are measured
and the same roots are missing. So a strict check that succeeds does so under wider limits, with the
same report. With markers that cannot be used there is no report under any limits. -/
theorem wider_limits_add_nothing (c : Config) (s : Snapshot) (cwd : Path) (roots : List Path)
    (wide : Limits) (within : c.limits.Within wide) :
    (c.markers.isUsable = true → ∃ before after,
      check { c with strict := false } s cwd roots = .ok before ∧
      check { c with limits := wide, strict := false } s cwd roots = .ok after ∧
      (after.problems.map Problem.reading).Sublist (before.problems.map Problem.reading) ∧
      after.filesChecked = before.filesChecked ∧ after.missing = before.missing ∧
      ∀ report, check { c with strict := true } s cwd roots = .ok report →
        check { c with limits := wide, strict := true } s cwd roots = .ok report) ∧
    (c.markers.isUsable = false → ∀ limits strict,
      check { c with limits, strict } s cwd roots = .error .unusableMarkers) := by
  constructor
  · intro usable
    refine ⟨lenientReport c s cwd roots, lenientReport { c with limits := wide } s cwd roots,
      check_without_strict c s cwd roots usable,
      check_without_strict { c with limits := wide } s cwd roots usable,
      lenientReport_sublist c s cwd roots within, ?_, ?_, ?_⟩
    · rw [lenientReport_limits]
    · rw [lenientReport_limits]
    · intro report accepted
      rw [check_with_strict c s cwd roots usable] at accepted
      have clean := (Report.judge_eq_ok.mp accepted).2.2
      have judged := check_with_strict { c with limits := wide } s cwd roots usable
      rw [lenientReport_clean c s cwd roots within clean, accepted] at judged
      exact judged
  · intro unusable limits strict
    exact check_unusable { c with limits, strict } s cwd roots unusable

theorem wider_limits_add_nothing_lineTree :
    let cwd : Path := .ofText ['/', 'w']
    let roots : List Path := [.ofText ['x'], .ofText ['.']]
    let tight : Config := { exclusions := {}, limits := { code := 2, docs := 2 } }
    let enough : Config := { exclusions := {}, limits := { code := 3, docs := 3 } }
    let wide : Limits := { code := 3, docs := 2 }
    let wider : Limits := { code := 4, docs := 3 }
    (tight.limits.Within wide ∧ ∃ before after, check tight lineTree cwd roots = .ok before ∧
      check { tight with limits := wide } lineTree cwd roots = .ok after ∧
      (after.problems.map Problem.reading).Sublist (before.problems.map Problem.reading) ∧
      after.filesChecked = before.filesChecked ∧ after.missing = before.missing) ∧
    (enough.limits.Within wider ∧
      check { enough with limits := wider, strict := true } lineTree cwd [.ofText ['.']] =
        .ok { filesChecked := 2 }) := by
  intro cwd roots tight enough wide wider
  have within : tight.limits.Within wide := ⟨by decide, by decide⟩
  have beyond : enough.limits.Within wider := ⟨by decide, by decide⟩
  obtain ⟨before, after, first, second, fewer, files, missing, _⟩ :=
    (wider_limits_add_nothing tight lineTree cwd roots wide within).1 rfl
  obtain ⟨_, _, _, _, _, _, _, strict⟩ :=
    (wider_limits_add_nothing enough lineTree cwd [.ofText ['.']] wider beyond).1 rfl
  have report : lenientReport enough lineTree cwd [.ofText ['.']] = { filesChecked := 2 } := by
    decide
  have accepted := check_with_strict enough lineTree cwd [.ofText ['.']] rfl
  rw [report] at accepted
  exact ⟨⟨within, before, after, first, second, fewer, files, missing⟩, beyond, strict _ accepted⟩

end LineGauge
