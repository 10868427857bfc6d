import LineGauge.Proofs.Order
import LineGauge.Proofs.Partition
import LineGauge.Proofs.Scan
import LineGauge.Proofs.Strict

/-! Problems by file. Grouping looks at neighbours only, so it brings together the problems of a
file only if the file is measured once. Roots of which none lies in another see to that: a walk
never comes to a path twice, and what two such roots lead to cannot be the same path. -/
namespace LineGauge

/-- Neither path is the other, or lies below it. -/
def Path.Apart (p q : Path) : Prop :=
  ¬ p.components <+: q.components ∧ ¬ q.components <+: p.components

instance (p q : Path) : Decidable (p.Apart q) := inferInstanceAs (Decidable (_ ∧ _))

theorem Path.not_sameAs_of_apart {a b p q : Path} (apart : a.Apart b)
    (hp : a.components <+: p.components) (hq : b.components <+: q.components) :
    p.sameAs q = false := by
  rw [← Bool.not_eq_true, sameAs_iff]
  intro same
  rw [← same] at hq
  rcases List.prefix_or_prefix_of_prefix hp hq with inside | around
  · exact apart.1 inside
  · exact apart.2 around

section
variable (c : Config) (s : Snapshot) (cwd : Path)

theorem findRoot_below (root : Path) :
    ∀ p ∈ (findRoot c s cwd root).paths, (cwd.resolve root).components <+: p.components := by
  intro p hp
  rcases findRoot_paths c s cwd root with none | file | directory
  · rw [none] at hp
    cases hp
  · rw [file] at hp
    cases List.mem_singleton.mp hp
    exact List.prefix_rfl
  · rw [directory] at hp
    obtain ⟨names, rfl⟩ := walk_below c s _ p hp
    exact Path.components_append _ names

theorem findRoot_ascending (root : Path) :
    (findRoot c s cwd root).paths.Pairwise Path.Before := by
  rcases findRoot_paths c s cwd root with none | file | directory
  · rw [none]
    exact .nil
  · rw [file]
    exact List.pairwise_singleton _ _
  · rw [directory]
    exact walk_ascending c s (cwd.locationIn_proper root)

theorem collectAll_distinct {roots : List Path}
    (apart : roots.Pairwise fun a b => (cwd.resolve a).Apart (cwd.resolve b)) :
    (collectAll c s cwd roots).files.Pairwise fun p q => p.sameAs q = false := by
  rw [collectAll_eq, List.pairwise_flatMap]
  constructor
  · intro root _
    exact (findRoot_ascending c s cwd root).imp Path.not_sameAs_of_before
  · apply apart.imp
    intro a b separate p hp q hq
    exact Path.not_sameAs_of_apart separate (findRoot_below c s cwd a p hp)
      (findRoot_below c s cwd b q hq)

theorem problemsOf_ascending (file : Path) :
    (problemsOf c s cwd file).Pairwise fun p q => p.line < q.line := by
  rw [problemsOf_eq, List.pairwise_map]
  cases s.textAt? cwd file with
  | none => exact .nil
  | some text => exact Line.scan_ascending ..

end

namespace Report

theorem groupsOf_flatMap {files : List Path} {block : Path → List Problem}
    (own : ∀ file, ∀ p ∈ block file, p.path = file)
    (distinct : files.Pairwise fun p q => p.sameAs q = false) :
    groupsOf (files.flatMap block) =
      (files.filter fun file => !(block file).isEmpty).map fun file => ⟨file, block file⟩ := by
  induction distinct with
  | nil => rfl
  | @cons file files differs _ ih =>
    rw [List.flatMap_cons]
    cases here : block file with
    | nil => simp [here, ih]
    | cons first others =>
      have named : ∀ p ∈ first :: others, p.path = file := here ▸ own file
      obtain ⟨rfl, later⟩ := List.forall_mem_cons.mp named
      rw [groupsOf_block, ih]
      · simp [here]
      · exact fun p member => congrArg Path.components (later p member)
      · intro g member
        rw [ih] at member
        obtain ⟨other, known, rfl⟩ := List.mem_map.mp (List.mem_of_mem_head? member)
        have apart := differs other (List.mem_filter.mp known).1
        rwa [← Bool.not_eq_true, Path.sameAs_iff] at apart

end Report

theorem filter_sameAs {files : List Path} {file : Path}
    (distinct : files.Pairwise fun p q => p.sameAs q = false) (member : file ∈ files) :
    files.filter (·.sameAs file) = [file] := by
  induction distinct with
  | nil => cases member
  | @cons first files differs _ ih =>
    rcases List.mem_cons.mp member with rfl | later
    · have none : files.filter (·.sameAs file) = [] := by
        rw [List.filter_eq_nil_iff]
        intro p hp
        rw [p.sameAs_comm, differs p hp]
        exact Bool.false_ne_true
      simp [none]
    · simp [differs file later, ih later]

section
variable (c : Config) (s : Snapshot) (cwd : Path) {files : List Path}
  (distinct : files.Pairwise fun p q => p.sameAs q = false)
include distinct

theorem problems_once :
    (files.flatMap (problemsOf c s cwd)).Pairwise
      fun p q => ¬ (p.path.sameAs q.path = true ∧ p.line = q.line) := by
  rw [List.pairwise_flatMap]
  constructor
  · intro file _
    apply (problemsOf_ascending c s cwd file).imp
    rintro p q less ⟨_, same⟩
    exact Nat.ne_of_lt less same
  · apply distinct.imp
    rintro f g differs p hp q hq ⟨same, _⟩
    rw [problemsOf_path c s cwd f p hp, problemsOf_path c s cwd g q hq, differs] at same
    cases same

theorem problems_filter_file {file : Path} (member : file ∈ files) :
    (files.flatMap (problemsOf c s cwd)).filter (·.path.sameAs file) =
      problemsOf c s cwd file := by
  have alone := problems_filter c s cwd (·.sameAs file) files
  rw [filter_sameAs distinct member, List.flatMap_singleton] at alone
  exact alone.symm

theorem groups_by_file {g : Report.Group}
    (member : g ∈ Report.groupsOf (files.flatMap (problemsOf c s cwd))) :
    g.problems ≠ [] ∧
      g.problems = (files.flatMap (problemsOf c s cwd)).filter (·.path.sameAs g.path) ∧
      g.problems.Pairwise fun p q => p.line < q.line := by
  rw [Report.groupsOf_flatMap (problemsOf_path c s cwd) distinct] at member
  obtain ⟨file, measured, rfl⟩ := List.mem_map.mp member
  obtain ⟨known, some⟩ := List.mem_filter.mp measured
  exact ⟨by simpa using some, (problems_filter_file c s cwd distinct known).symm,
    problemsOf_ascending c s cwd file⟩

theorem groups_distinct :
    (Report.groupsOf (files.flatMap (problemsOf c s cwd))).Pairwise
      fun g h => g.path.sameAs h.path = false := by
  rw [Report.groupsOf_flatMap (problemsOf_path c s cwd) distinct, List.pairwise_map]
  exact distinct.filter _

end

/-- If none of the roots is another or lies below it, no line of a file is reported twice, and
grouping neighbours groups by file: the groups have different paths, none is empty, together they
are the problems of the report, and each holds all problems with its path, in the ascending order of
their lines. With markers that cannot be used there is no report. -/
theorem problems_once_by_file (c : Config) (s : Snapshot) (cwd : Path) (roots : List Path)
    (lenient : c.strict = false)
    (apart : roots.Pairwise fun a b => (cwd.resolve a).Apart (cwd.resolve b)) :
    (c.markers.isUsable = true → ∃ report, check c s cwd roots = .ok report ∧
      (report.problems.Pairwise fun p q => ¬ (p.path.sameAs q.path = true ∧ p.line = q.line)) ∧
      (report.groups.Pairwise fun g h => g.path.sameAs h.path = false) ∧
      report.groups.flatMap (·.problems) = report.problems ∧
      ∀ g ∈ report.groups, g.problems ≠ [] ∧
        g.problems = report.problems.filter (·.path.sameAs g.path) ∧
        g.problems.Pairwise fun p q => p.line < q.line) ∧
    (c.markers.isUsable = false → check c s cwd roots = .error .unusableMarkers) := by
  constructor
  · intro usable
    have distinct := collectAll_distinct c s cwd apart
    refine ⟨_, check_lenient c s cwd roots lenient usable, problems_once c s cwd distinct,
      groups_distinct c s cwd distinct, Report.flatMap_groupsOf _, ?_⟩
    intro g member
    exact groups_by_file c s cwd distinct member
  · exact check_unusable c s cwd roots

theorem problems_once_by_file_lineTree :
    let cwd : Path := .ofText ['/', 'w']
    let c : Config := { exclusions := {}, limits := { code := 2, docs := 2 } }
    let roots : List Path := [.ofText ['d'], .ofText ['x'], .ofText ['a', '.', 'p', 'y']]
    (roots.Pairwise fun a b => (cwd.resolve a).Apart (cwd.resolve b)) ∧
      ∃ report, check c lineTree cwd roots = .ok report ∧ report.problems.length = 3 ∧
        (report.problems.Pairwise fun p q => ¬ (p.path.sameAs q.path = true ∧ p.line = q.line)) ∧
        (report.groups.Pairwise fun g h => g.path.sameAs h.path = false) ∧
        report.groups.flatMap (·.problems) = report.problems ∧
        ∀ g ∈ report.groups, g.problems ≠ [] ∧
          g.problems = report.problems.filter (·.path.sameAs g.path) ∧
          g.problems.Pairwise fun p q => p.line < q.line := by
  intro cwd c roots
  have apart : roots.Pairwise fun a b => (cwd.resolve a).Apart (cwd.resolve b) := by decide
  obtain ⟨report, checked, once⟩ :=
    (problems_once_by_file c lineTree cwd roots rfl apart).1 rfl
  have same := Except.ok.inj (checked.symm.trans (check_without_strict c lineTree cwd roots rfl))
  have three : report.problems.length = 3 := by
    rw [same]
    decide
  exact ⟨apart, report, checked, three, once⟩

end LineGauge
