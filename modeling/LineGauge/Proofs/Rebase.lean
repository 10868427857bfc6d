import LineGauge.Proofs.Merging
import LineGauge.Proofs.Roots

/-! Entries that count from a base. The base and an entry are joined as they are spelled, the
working directory comes in front, and only then is the whole folded; yet the base has no say in it
but by the location it names. So the excluded paths of a settings file depend on where the file is
and not on how its path is spelled. -/
namespace LineGauge

namespace Path

/-- The components of a path that lead on, wherever it begins. -/
def steps (p : Path) : List Component := p.segments.filterMap component?

theorem foldl_components {p : Path} (relative : p.isAbsolute = false) (l : Location) :
    p.components.foldl walkTo l = p.steps.foldl walkTo l := by
  rw [components_eq, List.foldl_append, steps]
  cases begins : p.start with
  | none => rfl
  | some first =>
    rcases start_eq_some begins with ⟨_, absolute⟩ | rfl
    · simp [relative] at absolute
    · rfl

theorem steps_join (base : Path) {p : Path} (relative : p.isAbsolute = false) :
    (base.join p).steps = base.steps ++ p.steps := by
  have silent : (pieces (· == slash) []).filterMap component? = [] := rfl
  unfold steps segments join
  by_cases empty : base.bytes = []
  · simp [empty, silent]
  · by_cases slashed : base.bytes.getLast? = some slash
    · obtain ⟨front, spelled⟩ := List.getLast?_eq_some_iff.mp slashed
      simp [relative, spelled, pieces_slash, silent]
    · simp [relative, empty, slashed, pieces_slash]

theorem isAbsolute_join (base : Path) {p : Path} (relative : p.isAbsolute = false) :
    (base.join p).isAbsolute = base.isAbsolute := by
  unfold join
  cases spelled : base.bytes with
  | nil =>
    have outer : base.isAbsolute = false := by simp [isAbsolute, spelled]
    simp [relative, outer]
  | cons b bs =>
    simp only [relative, List.isEmpty_cons, Bool.or_self, Bool.false_eq_true, if_false]
    split <;> simp [isAbsolute, spelled]

theorem locationIn_steps (cwd p : Path) : cwd.locationIn p = (cwd.join p).steps.foldl walkTo [] :=
  locationIn_eq cwd p

theorem locationIn_join (cwd base : Path) {p : Path} (relative : p.isAbsolute = false) :
    cwd.locationIn (base.join p) = p.components.foldl walkTo (cwd.locationIn base) := by
  have joined := isAbsolute_join base relative
  rw [foldl_components relative, locationIn_steps, locationIn_steps, ← List.foldl_append]
  -- an absolute base leaves the working directory out of both sides
  cases begins : base.isAbsolute with
  | true =>
    rw [join_absolute cwd base begins, join_absolute cwd _ (joined.trans begins),
      steps_join base relative]
  | false =>
    rw [steps_join cwd begins, steps_join cwd (joined.trans begins), steps_join base relative,
      List.append_assoc]

theorem resolve_join (cwd base p : Path) :
    cwd.resolve (base.join p) = .ofLocation
      (if p.isAbsolute then fold p.components
        else fold ((cwd.resolve base).components ++ p.components)) := by
  unfold resolve
  split
  · rename_i absolute
    rw [join_absolute base p absolute, locationIn, join_absolute cwd p absolute]
  · rename_i relative
    have here : fold (ofLocation (cwd.locationIn base)).components = cwd.locationIn base :=
      fold_ofLocation (cwd.locationIn_proper base)
    -- folding from the left, the entry only sees where the base has led
    unfold fold at here ⊢
    rw [locationIn_join cwd base (by simpa using relative), List.foldl_append, here]

theorem resolve_join_resolve (cwd base p : Path) :
    cwd.resolve ((cwd.resolve base).join p) = cwd.resolve (base.join p) := by
  have again : cwd.resolve (cwd.resolve base) = cwd.resolve base :=
    resolve_ofLocation cwd (cwd.locationIn_proper base)
  rw [resolve_join, again, ← resolve_join]

end Path

namespace Invocation
variable {cwd : Path} {a : Arguments} {s : Settings} {i : Invocation}

theorem resolve_exclusions (resolved : resolve cwd a s = .ok i) :
    i.config.exclusions = .standard cwd (s.exclude ++ a.exclude) := by
  obtain ⟨limits, _, rfl⟩ := resolve_eq_ok.mp resolved
  rfl

/-- Other paths in the settings change the roots and the exclusions and nothing else. -/
theorem resolve_other_paths (resolved : resolve cwd a s = .ok i) (roots exclude : List Path) :
    resolve cwd a { s with roots, exclude } = .ok {
      i with
      roots := firstGiven a.paths roots [.ofText ['.']]
      config := { i.config with exclusions := .standard cwd (exclude ++ a.exclude) } } := by
  obtain ⟨limits, found, rfl⟩ := resolve_eq_ok.mp resolved
  exact resolve_eq_ok.mpr ⟨limits, found, rfl⟩

end Invocation

theorem Exclusions.standard_congr {cwd : Path} {more others : List Path}
    (same : more.map cwd.resolve = others.map cwd.resolve) :
    standard cwd more = standard cwd others := by
  have entries : (standard cwd more).entries = (standard cwd others).entries := by
    simp only [entries_standard, List.map_append, same]
  exact congrArg Exclusions.mk entries

/-- What is excluded with settings whose paths count from a base: the standard directories, then
each entry of the settings, folded from the location of the base unless it is absolute itself, then
each entry of the command line from the working directory. A base that is made absolute and folded
first gives the same configuration. -/
theorem exclusions_from_base (cwd base : Path) (s : Settings) (a : Arguments) (i : Invocation)
    (resolved : Invocation.resolve cwd a (s.rebase base) = .ok i) :
    i.config.exclusions.entries =
      [".nox", ".venv", "venv"].map (fun name => cwd.resolve (.ofText name.toList)) ++
      s.exclude.map (fun entry => .ofLocation
        (if entry.isAbsolute then Path.fold entry.components
          else Path.fold ((cwd.resolve base).components ++ entry.components))) ++
      a.exclude.map cwd.resolve ∧
    ∃ j, Invocation.resolve cwd a (s.rebase (cwd.resolve base)) = .ok j ∧
      j.config = i.config := by
  have exclusions := Invocation.resolve_exclusions resolved
  constructor
  · rw [exclusions, Exclusions.entries_standard]
    simp [Settings.rebase, Exclusions.standardNames, Path.resolve_join]
  · let folded := s.rebase (cwd.resolve base)
    have entries : (folded.exclude ++ a.exclude).map cwd.resolve =
        ((s.rebase base).exclude ++ a.exclude).map cwd.resolve := by
      simp [folded, Settings.rebase, Path.resolve_join_resolve]
    have same : .standard cwd (folded.exclude ++ a.exclude) = i.config.exclusions :=
      (Exclusions.standard_congr entries).trans exclusions.symm
    refine ⟨_, Invocation.resolve_other_paths resolved folded.roots folded.exclude, ?_⟩
    exact congrArg (fun exclusions => { i.config with exclusions }) same

theorem exclusions_from_base_detour :
    let cwd : Path := .ofText "/w/x".toList
    let base : Path := .ofText "../c//./d/".toList
    let s : Settings :=
      { exclude := ["../../../../etc", "", "./v", "/b/../q/"].map (.ofText ·.toList) }
    let a : Arguments := { exclude := [.ofText "t/..".toList], codeLength := some 100 }
    ∃ i j, Invocation.resolve cwd a (s.rebase base) = .ok i ∧
      i.config.exclusions.entries =
        ["/w/x/.nox", "/w/x/.venv", "/w/x/venv", "/etc", "/w/c/d", "/w/c/d/v", "/q", "/w/x"].map
          (.ofText ·.toList) ∧
      Invocation.resolve cwd a (s.rebase (.ofText "/w/c/d".toList)) = .ok j ∧
      j.config = i.config := by
  intro cwd base s a
  obtain ⟨i, resolved⟩ : ∃ i, Invocation.resolve cwd a (s.rebase base) = .ok i := ⟨_, rfl⟩
  obtain ⟨entries, j, again, same⟩ := exclusions_from_base cwd base s a i resolved
  refine ⟨i, j, resolved, entries.trans ?_, again, same⟩
  decide

end LineGauge
