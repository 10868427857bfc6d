import LineGauge.Check
import LineGauge.Proofs.Walk

/-! Collecting and checking lists of roots. Each root is looked at by itself, and so is each of the
files collected for the problems in it. -/
namespace LineGauge

/-- The files a root gives. -/
def RootFinding.paths : RootFinding → List Path
  | .files paths => paths
  | _ => []

/-- What the roots give when none of them ends the collecting. -/
def collectAll (c : Config) (s : Snapshot) (cwd : Path) : List Path → Collected
  | [] => {}
  | root :: roots =>
    let later := collectAll c s cwd roots
    match findRoot c s cwd root with
    | .missing => { later with missing := root :: later.missing }
    | .skipped => later
    | .files paths => { later with files := paths ++ later.files }

theorem findRoot_eq_missing (c : Config) (s : Snapshot) (cwd root : Path) :
    findRoot c s cwd root = .missing ↔ s.pathExists cwd root = false := by
  unfold findRoot
  by_cases given : s.pathExists cwd root = true
  · simp only [given, Bool.not_true, Bool.false_eq_true, if_false]
    split
    · split <;> simp
    · simp
  · simp [given]

theorem findRoot_paths (c : Config) (s : Snapshot) (cwd root : Path) :
    (findRoot c s cwd root).paths = [] ∨
      (findRoot c s cwd root).paths = [cwd.resolve root] ∨
      (findRoot c s cwd root).paths = walk c s (cwd.locationIn root) := by
  unfold findRoot
  split
  · exact .inl rfl
  · simp only
    split
    · split
      · exact .inr (.inl rfl)
      · exact .inl rfl
    · exact .inr (.inr rfl)

theorem collectAll_eq (c : Config) (s : Snapshot) (cwd : Path) (roots : List Path) :
    collectAll c s cwd roots =
      { files := roots.flatMap fun root => (findRoot c s cwd root).paths
        missing := roots.filter fun root => !s.pathExists cwd root } := by
  induction roots with
  | nil => rfl
  | cons root roots ih =>
    have known := findRoot_eq_missing c s cwd root
    rw [collectAll, ih]
    cases finding : findRoot c s cwd root with
    | missing => simp [RootFinding.paths, finding, known.mp finding]
    | skipped => simp_all [RootFinding.paths]
    | files paths => simp_all [RootFinding.paths]

theorem findRoot_alike {c d : Config} (alike : c.SelectsAlike d) (s : Snapshot) (cwd root : Path) :
    findRoot c s cwd root = findRoot d s cwd root := by
  simp only [findRoot, isEligible_alike alike, walk_alike alike]

theorem collectAll_alike {c d : Config} (alike : c.SelectsAlike d) (s : Snapshot) (cwd : Path)
    (roots : List Path) : collectAll c s cwd roots = collectAll d s cwd roots := by
  simp only [collectAll_eq, findRoot_alike alike]

theorem collect_lenient (c : Config) (s : Snapshot) (cwd : Path) (roots : List Path)
    (lenient : c.strict = false) : collect c s cwd roots = .ok (collectAll c s cwd roots) := by
  induction roots with
  | nil => rfl
  | cons root roots ih =>
    rw [collect, collectAll, ih]
    cases findRoot c s cwd root with
    | missing => simp [lenient, Except.map]
    | skipped => rfl
    | files paths => rfl

/-- In strict mode the collecting ends at the first of the missing roots, if there is one. -/
theorem collect_strict (c : Config) (s : Snapshot) (cwd : Path) (roots : List Path)
    (strict : c.strict = true) :
    collect c s cwd roots =
      match (collectAll c s cwd roots).missing with
      | [] => .ok (collectAll c s cwd roots)
      | root :: _ => .error (.missingRoot root) := by
  induction roots with
  | nil => rfl
  | cons root roots ih =>
    rw [collect, collectAll, ih]
    cases findRoot c s cwd root with
    | missing => simp [strict]
    | skipped => rfl
    | files paths =>
      -- these files are lost if a later root is missing, and else they come first
      cases later : (collectAll c s cwd roots).missing with
      | nil => simp [later, Except.map]
      | cons first others => simp [Except.map]

theorem pathExists_of_not_missing {c : Config} {s : Snapshot} {cwd : Path} {roots : List Path}
    {root : Path} (member : root ∈ roots) (known : root ∉ (collectAll c s cwd roots).missing) :
    s.pathExists cwd root = true := by
  rw [collectAll_eq] at known
  simpa [member] using known

/-- The text of a file, if it can be read and is UTF-8. -/
def Snapshot.textAt? (s : Snapshot) (cwd file : Path) : Option Text :=
  (s.read cwd file).toOption.bind Utf8.decode?

theorem problemsOf_eq (c : Config) (s : Snapshot) (cwd file : Path) :
    problemsOf c s cwd file =
      ((s.textAt? cwd file).elim [] (Line.scanText c.limits c.markers)).map
        fun o => { o with path := file } := by
  rw [problemsOf, Snapshot.textAt?]
  cases s.read cwd file with
  | error fault => rfl
  | ok content =>
    simp only [Except.toOption, Option.bind_some]
    cases Utf8.decode? content <;> rfl

theorem problemsOf_path (c : Config) (s : Snapshot) (cwd file : Path) :
    ∀ p ∈ problemsOf c s cwd file, p.path = file := by
  intro p hp
  rw [problemsOf_eq] at hp
  obtain ⟨o, _, rfl⟩ := List.mem_map.mp hp
  rfl

theorem problems_filter (c : Config) (s : Snapshot) (cwd : Path) (keeps : Path → Bool)
    (files : List Path) :
    (files.filter keeps).flatMap (problemsOf c s cwd) =
      (files.flatMap (problemsOf c s cwd)).filter (fun p => keeps p.path) := by
  induction files with
  | nil => rfl
  | cons file files ih =>
    have own : (problemsOf c s cwd file).filter (fun p => keeps p.path) =
        if keeps file then problemsOf c s cwd file else [] := by
      split
      · rename_i kept
        rw [List.filter_eq_self]
        intro p hp
        rw [problemsOf_path c s cwd file p hp, kept]
      · rename_i dropped
        rw [List.filter_eq_nil_iff]
        intro p hp
        rw [problemsOf_path c s cwd file p hp]
        exact dropped
    rw [List.flatMap_cons, List.filter_append, own, ← ih, List.filter_cons]
    split <;> simp

theorem check_lenient (c : Config) (s : Snapshot) (cwd : Path) (roots : List Path)
    (lenient : c.strict = false) (usable : c.markers.isUsable = true) :
    check c s cwd roots = .ok (reportOn c s cwd (collectAll c s cwd roots)) := by
  simp [check, usable, collect_lenient c s cwd roots lenient, lenient]

/-- A directory `/w` with the files `/w/a/b.py`, `/w/a.py` and `/w/v/b.py` and a link `/w/l.py`. -/
def smallTree : Snapshot where
  entries := [(Utf8.encode ['w'], .directory [
    (Utf8.encode ['a'], .directory [(Utf8.encode ['b', '.', 'p', 'y'], .file [])]),
    (Utf8.encode ['a', '.', 'p', 'y'], .file []),
    (Utf8.encode ['l', '.', 'p', 'y'], .link (.ofText ['a', '.', 'p', 'y'])),
    (Utf8.encode ['v'], .directory [(Utf8.encode ['b', '.', 'p', 'y'], .file [])])])]
  ordered := by
    simp only [Node.WellOrderedEntries, Node.WellOrdered]
    decide

/-- A directory `/w` with the files `/w/a.py` and `/w/d/b.py`. Three lines of them have three
characters: the first, a line of code, and the third of `/w/a.py`, a delimiter, and the second of
`/w/d/b.py`, a comment. -/
def lineTree : Snapshot where
  entries := [(Utf8.encode ['w'], .directory [
    (Utf8.encode ['a', '.', 'p', 'y'],
      .file (Utf8.encode ['x', '=', '1', '\n', 'y', '\t', ' ', '\r', '\n', '"', '"', '"'])),
    (Utf8.encode ['d'], .directory [
      (Utf8.encode ['b', '.', 'p', 'y'], .file (Utf8.encode ['\n', '#', ' ', 'é']))])])]
  ordered := by
    simp only [Node.WellOrderedEntries, Node.WellOrdered]
    decide

end LineGauge
