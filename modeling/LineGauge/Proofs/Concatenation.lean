import LineGauge.Proofs.Order
import LineGauge.Proofs.Strict

/-! Lists of roots one after the other. What a root leads to is found without a look at the other
roots, so the report on two lists of roots is the report on the first followed by that on the
second. A root that leads to no file takes no part in it, unless it is missing and listed so. -/
namespace LineGauge

/-- One report followed by another. -/
def Report.append (a b : Report) : Report where
  problems := a.problems ++ b.problems
  filesChecked := a.filesChecked + b.filesChecked
  missing := a.missing ++ b.missing

instance : Append Report := ⟨Report.append⟩

section
variable (c : Config) (s : Snapshot)

theorem Visit.fileAt_eligible (v : Visit) (name : Name) :
    ∀ p ∈ v.fileAt c name, c.isEligible p = true := by
  intro p hp
  unfold fileAt at hp
  split at hp
  · rename_i taken
    cases List.mem_singleton.mp hp
    exact (Bool.and_eq_true_iff.mp taken).2
  · cases hp

theorem walk_eligible (root : Location) : ∀ p ∈ walk c s root, c.isEligible p = true := by
  refine walk_forall c s (fun _ => True) ?_ ?_ ?_
  · simp
  · exact fun v name _ _ => v.fileAt_eligible c name
  · simp

theorem walk_excluded {root : Location}
    (excluded : c.exclusions.excludes (.ofLocation root) = true) : walk c s root = [] := by
  apply List.eq_nil_iff_forall_not_mem.mpr
  intro p hp
  have eligible := walk_eligible c s root p hp
  obtain ⟨names, rfl⟩ := walk_below c s root p hp
  rw [Config.isEligible_below_excluded excluded names] at eligible
  cases eligible

end

/-- The root is missing or excluded, or it is a file with an extension that does not count. -/
def IsIdleRoot (c : Config) (s : Snapshot) (cwd root : Path) : Prop :=
  s.pathExists cwd root = false ∨
  c.exclusions.excludes (cwd.resolve root) = true ∨
  s.isFile cwd (cwd.resolve root) = true ∧
    Config.recognises c.extensions (cwd.resolve root) = false

section
variable (c : Config) (s : Snapshot) (cwd : Path)

theorem findRoot_idle {root : Path} (idle : IsIdleRoot c s cwd root) :
    (findRoot c s cwd root).paths = [] := by
  unfold findRoot
  rcases idle with missing | excluded | ⟨file, unknown⟩
  · simp [missing, RootFinding.paths]
  · have walked : walk c s (cwd.locationIn root) = [] := walk_excluded c s excluded
    have refused : c.isEligible (cwd.resolve root) = false := by simp [Config.isEligible, excluded]
    simp only [refused, walked]
    split
    · rfl
    · split <;> rfl
  · have refused : c.isEligible (cwd.resolve root) = false := by simp [Config.isEligible, unknown]
    simp only [file, refused]
    split <;> rfl

theorem lenientReport_append (first second : List Path) :
    lenientReport c s cwd (first ++ second) =
      lenientReport c s cwd first ++ lenientReport c s cwd second := by
  simp only [lenientReport, reportOn, collectAll_eq, List.flatMap_append, List.filter_append,
    List.length_append]
  rfl

theorem lenientReport_idle {root : Path} (idle : IsIdleRoot c s cwd root) :
    lenientReport c s cwd [root] = { missing := if s.pathExists cwd root then [] else [root] } := by
  simp only [lenientReport, reportOn, collectAll_eq, List.flatMap_singleton,
    findRoot_idle c s cwd idle]
  cases given : s.pathExists cwd root <;> simp [given]

theorem lenientReport_around_idle (first second : List Path) {root : Path}
    (idle : IsIdleRoot c s cwd root) :
    lenientReport c s cwd (first ++ root :: second) =
      lenientReport c s cwd first ++ { missing := if s.pathExists cwd root then [] else [root] } ++
        lenientReport c s cwd second := by
  rw [← List.singleton_append, ← List.append_assoc, lenientReport_append, lenientReport_append,
    lenientReport_idle c s cwd idle]

end

/-- The report on two lists of roots is the report on the first followed by that on the second, and
the other way round for the roots the other way round. A root that is missing, excluded or no source
file changes neither part, wherever it stands; a missing one is listed in its place. With markers
that cannot be used there is no report. -/
theorem check_concatenates (c : Config) (s : Snapshot) (cwd : Path) (first second : List Path)
    (lenient : c.strict = false) :
    (c.markers.isUsable = true → ∃ a b : Report,
      check c s cwd first = .ok a ∧ check c s cwd second = .ok b ∧
      check c s cwd (first ++ second) = .ok (a ++ b) ∧
      check c s cwd (second ++ first) = .ok (b ++ a) ∧
      ∀ root, IsIdleRoot c s cwd root →
        check c s cwd (first ++ root :: second) =
          .ok (a ++ { missing := if s.pathExists cwd root then [] else [root] } ++ b)) ∧
    (c.markers.isUsable = false → ∀ roots, check c s cwd roots = .error .unusableMarkers) := by
  constructor
  · intro usable
    have checked (roots : List Path) : check c s cwd roots = .ok (lenientReport c s cwd roots) :=
      check_lenient c s cwd roots lenient usable
    refine ⟨_, _, checked first, checked second, ?_, ?_, ?_⟩
    · rw [checked, lenientReport_append]
    · rw [checked, lenientReport_append]
    · intro root idle
      rw [checked, lenientReport_around_idle c s cwd first second idle]
  · intro unusable roots
    exact check_unusable c s cwd roots unusable

theorem check_concatenates_lineTree :
    let cwd : Path := .ofText ['/', 'w']
    let c : Config :=
      { exclusions := .push cwd {} (.ofText ['d']), limits := { code := 2, docs := 2 } }
    let file : Path := .ofText ['a', '.', 'p', 'y']
    let excluded : Path := .ofText ['d', '/']
    let absent : Path := .ofText ['x']
    ∃ a b : Report, check c lineTree cwd [file] = .ok a ∧ a.problems.length = 2 ∧
      check c lineTree cwd [.ofText ['.'], file] = .ok b ∧
      check c lineTree cwd [file, .ofText ['.'], file] = .ok (a ++ b) ∧
      check c lineTree cwd [.ofText ['.'], file, file] = .ok (b ++ a) ∧
      check c lineTree cwd [file, excluded, .ofText ['.'], file] = .ok (a ++ {} ++ b) ∧
      check c lineTree cwd [file, absent, .ofText ['.'], file] =
        .ok (a ++ { missing := [absent] } ++ b) := by
  intro cwd c file excluded absent
  obtain ⟨a, b, before, after, joined, swapped, idle⟩ :=
    (check_concatenates c lineTree cwd [file] [.ofText ['.'], file] rfl).1 rfl
  have same := Except.ok.inj (before.symm.trans (check_without_strict c lineTree cwd [file] rfl))
  have two : a.problems.length = 2 := by
    rw [same]
    decide
  have inside : IsIdleRoot c lineTree cwd excluded := .inr (.inl (by decide))
  have missing : IsIdleRoot c lineTree cwd absent := .inl (by decide)
  exact ⟨a, b, before, two, after, joined, swapped, idle excluded inside, idle absent missing⟩

end LineGauge
