import LineGauge.Run
import LineGauge.Proofs.Merging
import LineGauge.Proofs.Output
import LineGauge.Proofs.Strict

/-! What a run shows. A report comes to be written in two ways, as the result of the check or as
the error of a strict one, and both show the report of the lenient check. The exit code says how
the run ended, and the error texts name what is missing. -/
namespace LineGauge

namespace Outcome

/-- The bytes a run writes to its standard output. -/
def stdout (o : Outcome) : Bytes := Utf8.encode o.output

/-- The texts a run writes to its standard error, warnings apart. -/
def stderr (o : Outcome) : List Text := o.errors.map RunError.message

@[simp] theorem stdout_ofError (warnings : List Warning) (e : RunError) :
    (ofError warnings e).stdout = [] := rfl

@[simp] theorem stderr_ofError (warnings : List Warning) (e : RunError) :
    (ofError warnings e).stderr = [e.message] := rfl

@[simp] theorem exitCode_ofError (warnings : List Warning) (e : RunError) :
    (ofError warnings e).exitCode = e.exitCode := rfl

section
variable (warnings : List Warning) (failed : Bool) {r : Report} {format : Report.Format}
  {coloured : Bool}

theorem stdout_ofReport :
    (ofReport warnings format coloured failed r).stdout = (r.write format coloured none).1 := by
  rw [ofReport, Report.write, Report.send_eq]
  cases r.output format coloured <;> rfl

theorem ofReport_unwritable (unwritable : r.Unwritable format) :
    ofReport warnings format coloured failed r = ofError warnings (.output .unreadablePath) := by
  rw [ofReport, Report.output_unwritable unwritable]

theorem stderr_ofReport (writable : ¬ r.Unwritable format) :
    (ofReport warnings format coloured failed r).stderr =
      r.missing.map fun root => (CheckError.missingRoot root).message := by
  obtain ⟨text, written⟩ := Report.output_writable writable coloured
  simp [ofReport, written, stderr, RunError.message]

theorem exitCode_ofReport (writable : ¬ r.Unwritable format) :
    (ofReport warnings format coloured failed r).exitCode =
      if r.missing ≠ [] ∨ failed = true then 1 else 0 := by
  obtain ⟨text, written⟩ := Report.output_writable writable coloured
  simp [ofReport, written, or_comm]

end

end Outcome

namespace Invocation

theorem resolve_usable {cwd : Path} {a : Arguments} {settings : Settings} {i : Invocation}
    (resolved : resolve cwd a settings = .ok i) : i.config.markers.isUsable = true := by
  obtain ⟨limits, _, rfl⟩ := resolve_eq_ok.mp resolved
  rfl

section
variable (i : Invocation) (coloured : Bool) (s : Snapshot) (cwd : Path) (warnings : List Warning)

theorem run_missing (usable : i.config.markers.isUsable = true) (strict : i.config.strict = true)
    {root : Path} {others : List Path}
    (missing : (lenientReport i.config s cwd i.roots).missing = root :: others) :
    ∃ ws, i.run coloured s cwd warnings = .ofError ws (.check (.missingRoot root)) := by
  have judged := check_strict i.config s cwd i.roots strict usable
  rw [Report.judge_missing missing] at judged
  rw [run, judged]
  exact ⟨_, rfl⟩

/-- Unless a missing root ends it, a run shows the report of the lenient check, and it fails on
problems in strict mode. -/
theorem run_report (usable : i.config.markers.isUsable = true)
    (through : i.config.strict = true → (lenientReport i.config s cwd i.roots).missing = []) :
    ∃ ws, i.run coloured s cwd warnings =
      .ofReport ws i.format coloured
        (i.config.strict && !(lenientReport i.config s cwd i.roots).isClean)
        (lenientReport i.config s cwd i.roots) := by
  cases strict : i.config.strict with
  | false =>
    have checked := check_lenient i.config s cwd i.roots strict usable
    rw [run, checked]
    exact ⟨_, rfl⟩
  | true =>
    have judged := check_strict i.config s cwd i.roots strict usable
    have complete := through strict
    by_cases clean : (lenientReport i.config s cwd i.roots).problems = []
    · have fine : (lenientReport i.config s cwd i.roots).isClean = true :=
        List.isEmpty_iff.mpr clean
      rw [Report.judge_eq_ok.mpr ⟨rfl, complete, clean⟩] at judged
      rw [run, judged, fine]
      exact ⟨_, rfl⟩
    · have bad : (lenientReport i.config s cwd i.roots).isClean = false := by
        rwa [Report.isClean, List.isEmpty_eq_false_iff]
      rw [Report.judge_overlong complete clean] at judged
      rw [run, judged, bad]
      exact ⟨_, rfl⟩

theorem run_unwritable (usable : i.config.markers.isUsable = true)
    (through : i.config.strict = true → (lenientReport i.config s cwd i.roots).missing = [])
    (unwritable : (lenientReport i.config s cwd i.roots).Unwritable i.format) :
    ∃ ws, i.run coloured s cwd warnings = .ofError ws (.output .unreadablePath) := by
  obtain ⟨ws, shown⟩ := i.run_report coloured s cwd warnings usable through
  rw [Outcome.ofReport_unwritable _ _ unwritable] at shown
  exact ⟨ws, shown⟩

theorem run_writable (usable : i.config.markers.isUsable = true)
    (through : i.config.strict = true → (lenientReport i.config s cwd i.roots).missing = [])
    (writable : ¬ (lenientReport i.config s cwd i.roots).Unwritable i.format) :
    let report := lenientReport i.config s cwd i.roots
    let outcome := i.run coloured s cwd warnings
    report.write i.format coloured none = (outcome.stdout, .ok ()) ∧
      outcome.stderr = report.missing.map (fun root => (CheckError.missingRoot root).message) ∧
      outcome.exitCode =
        if report.missing ≠ [] ∨ (i.config.strict = true ∧ report.problems ≠ []) then 1 else 0 := by
  intro report outcome
  obtain ⟨text, written⟩ := Report.output_writable writable coloured
  obtain ⟨ws, shown⟩ := i.run_report coloured s cwd warnings usable through
  refine ⟨?_, ?_, ?_⟩
  · simp only [outcome, shown, Outcome.stdout_ofReport, report, Report.write_output written]
  · simp only [outcome, shown, Outcome.stderr_ofReport _ _ writable, report]
  · simp only [outcome, shown, Outcome.exitCode_ofReport _ _ writable, report]
    simp [Report.isClean]

theorem stdout_run (usable : i.config.markers.isUsable = true)
    (complete : (lenientReport i.config s cwd i.roots).missing = []) :
    (i.run coloured s cwd warnings).stdout =
      ((lenientReport i.config s cwd i.roots).write i.format coloured none).1 := by
  obtain ⟨ws, shown⟩ := i.run_report coloured s cwd warnings usable (fun _ => complete)
  rw [shown, Outcome.stdout_ofReport]

end

end Invocation

section
variable (coloured : Bool) {s : Snapshot} {cwd : Path} {a : Arguments} {settings : Settings}

theorem run_unloaded {e : Settings.LoadError} (failed : Settings.load s cwd a.config = .error e) :
    ∃ ws, run coloured s cwd a = .ofError ws (.settings e) := by
  rw [run, failed]
  exact ⟨_, rfl⟩

variable (loaded : Settings.load s cwd a.config = .ok settings)
include loaded

theorem run_unresolved {e : CheckError} (failed : Invocation.resolve cwd a settings = .error e) :
    ∃ ws, run coloured s cwd a =
      .ofError ws (.check (.noLevel (Invocation.level a settings))) := by
  obtain ⟨_, rfl⟩ := Invocation.resolve_eq_error.mp failed
  simp only [run, loaded, failed]
  exact ⟨_, rfl⟩

theorem run_resolved {i : Invocation} (resolved : Invocation.resolve cwd a settings = .ok i) :
    ∃ ws, run coloured s cwd a = i.run coloured s cwd ws := by
  simp only [run, loaded, resolved]
  exact ⟨_, rfl⟩

theorem stdout_run_strictness {i : Invocation}
    (resolved : Invocation.resolve cwd a settings = .ok i)
    (complete : (lenientReport i.config s cwd i.roots).missing = []) (strict : Bool) :
    (run coloured s cwd { a with strict, noStrict := !strict }).stdout =
      ((lenientReport i.config s cwd i.roots).write i.format coloured none).1 := by
  have other := Invocation.resolve_strictness resolved strict
  have usable := Invocation.resolve_usable other
  have unchanged := lenientReport_strictness i.config s cwd i.roots strict
  obtain ⟨ws, ran⟩ := run_resolved coloured (s := s)
    (a := { a with strict, noStrict := !strict }) loaded other
  have shown := Invocation.stdout_run _ coloured s cwd ws usable (unchanged ▸ complete)
  rw [← unchanged, ran]
  exact shown

end

/-- What a run without colours shows, by the report of the lenient check of its roots. Bad settings
and a bad level end it with the exit code two and no output. A strict run with a missing root names
the first one, writes nothing and ends with one. Otherwise a report that has no form in the wanted
format ends it with two and no output; any other is written in full, every missing root is named
in order, and the exit code is one for missing roots or for problems in strict mode, and else zero.
Without missing roots both modes write the same. -/
theorem run_shows_lenient_report (s : Snapshot) (cwd : Path) (a : Arguments) :
    let outcome := run false s cwd a
    (∀ e, Settings.load s cwd a.config = .error e →
      outcome.exitCode = 2 ∧ outcome.stdout = []) ∧
    ∀ settings, Settings.load s cwd a.config = .ok settings →
      (∀ e, Invocation.resolve cwd a settings = .error e →
        outcome.exitCode = 2 ∧ outcome.stdout = []) ∧
      ∀ i, Invocation.resolve cwd a settings = .ok i →
        ∃ report, check { i.config with strict := false } s cwd i.roots = .ok report ∧
          (i.config.strict = true → ∀ root others, report.missing = root :: others →
            outcome.stdout = [] ∧ outcome.stderr = [(CheckError.missingRoot root).message] ∧
              outcome.exitCode = 1) ∧
          ((i.config.strict = true → report.missing = []) →
            (report.Unwritable i.format → outcome.stdout = [] ∧ outcome.exitCode = 2) ∧
            (¬ report.Unwritable i.format →
              report.write i.format false none = (outcome.stdout, .ok ()) ∧
              outcome.stderr =
                report.missing.map (fun root => (CheckError.missingRoot root).message) ∧
              outcome.exitCode =
                if report.missing ≠ [] ∨ (i.config.strict = true ∧ report.problems ≠ [])
                  then 1 else 0)) ∧
          (report.missing = [] → ∀ strict,
            (run false s cwd { a with strict, noStrict := !strict }).stdout = outcome.stdout) := by
  intro outcome
  constructor
  · intro e failed
    obtain ⟨ws, ended⟩ := run_unloaded false failed
    simp [outcome, ended, RunError.exitCode]
  · intro settings loaded
    constructor
    · intro e failed
      obtain ⟨ws, ended⟩ := run_unresolved false loaded failed
      simp [outcome, ended, RunError.exitCode]
    · intro i resolved
      have usable := Invocation.resolve_usable resolved
      obtain ⟨ws, ran⟩ := run_resolved false loaded resolved
      simp only [outcome, ran]
      refine ⟨lenientReport i.config s cwd i.roots,
        check_without_strict i.config s cwd i.roots usable, ?_, ?_, ?_⟩
      · intro strict root others missing
        obtain ⟨_, ended⟩ := i.run_missing false s cwd ws usable strict missing
        simp [ended, RunError.exitCode, RunError.message]
      · intro through
        refine ⟨?_, i.run_writable false s cwd ws usable through⟩
        intro unwritable
        obtain ⟨_, ended⟩ := i.run_unwritable false s cwd ws usable through unwritable
        simp [ended, RunError.exitCode]
      · intro complete strict
        rw [i.stdout_run false s cwd ws usable complete]
        exact stdout_run_strictness false loaded resolved complete strict

theorem run_shows_lenient_report_lineTree :
    let cwd : Path := .ofText ['/', 'w']
    let absent : Path := .ofText ['x']
    let a : Arguments := { paths := [.ofText ['a', '.', 'p', 'y'], absent],
                           codeLength := some 2, docsLength := some 2 }
    let c : Config := { limits := { code := 2, docs := 2 }, exclusions := .standard cwd [] }
    let raw : Arguments := { paths := [⟨[0xFF]⟩], format := .json }
    let lenient := run false lineTree cwd a
    let strict := run false lineTree cwd { a with strict := true }
    (∃ report, check c lineTree cwd a.paths = .ok report ∧
      report.write .text false none = (lenient.stdout, .ok ()) ∧
      lenient.stderr = [(CheckError.missingRoot absent).message] ∧ lenient.exitCode = 1) ∧
    (strict.stdout = [] ∧ strict.stderr = [(CheckError.missingRoot absent).message] ∧
      strict.exitCode = 1) ∧
    (run false lineTree cwd raw).stdout = [] ∧ (run false lineTree cwd raw).exitCode = 2 := by
  intro cwd absent a c raw lenient strict
  have loaded : Settings.load lineTree cwd none = .ok {} := rfl
  obtain ⟨report, checked, _, shown, _⟩ :=
    ((run_shows_lenient_report lineTree cwd a).2 {} loaded).2 ⟨a.paths, c, .text⟩ rfl
  obtain ⟨other, again, halted, _⟩ :=
    ((run_shows_lenient_report lineTree cwd { a with strict := true }).2 {} loaded).2
      ⟨a.paths, { c with strict := true }, .text⟩ rfl
  obtain ⟨rawReport, rawChecked, _, refused, _⟩ :=
    ((run_shows_lenient_report lineTree cwd raw).2 {} loaded).2
      ⟨raw.paths, .standard cwd, .json⟩ rfl
  have first : report.missing = [absent] := (check_missing c checked rfl).trans (by decide)
  have second : other.missing = [absent] := (check_missing c again rfl).trans (by decide)
  have third : rawReport.missing = raw.paths :=
    (check_missing (.standard cwd) rawChecked rfl).trans (by decide)
  have unreadable : rawReport.Unwritable .json :=
    ⟨rfl, .inr ⟨⟨[0xFF]⟩, third ▸ List.mem_singleton.mpr rfl, by decide⟩⟩
  have writable : ¬ report.Unwritable .text := nofun
  obtain ⟨written, errors, code⟩ := (shown nofun).2 writable
  refine ⟨⟨report, checked, written, ?_, ?_⟩, halted rfl absent [] second, ?_⟩
  · rw [errors, first]
    rfl
  · rw [code, first]
    simp
  · exact (refused nofun).1 unreadable

end LineGauge
