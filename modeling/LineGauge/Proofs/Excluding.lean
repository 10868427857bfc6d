import LineGauge.Proofs.Collect
import LineGauge.Proofs.Walk

/-! One more exclusion entry. A walk under the longer list of entries yields what the walk under
the shorter one yields, less what the new entry takes out: where the new entry closes a
directory, everything the other walk finds in it is taken out as well. The two walks are compared
entry by entry, through links and under any ignore rules. -/
namespace LineGauge

/-- The configuration with one more exclusion entry. -/
def Config.excluding (c : Config) (cwd entry : Path) : Config :=
  { c with exclusions := c.exclusions.push cwd entry }

/-- The path is not taken out by an entry as it is resolved. -/
def Path.clearOf (cwd entry p : Path) : Bool := !p.excludedBy (cwd.resolve entry)

section
variable (c : Config) (s : Snapshot) (cwd entry : Path)

theorem isEligible_excluding (p : Path) :
    (c.excluding cwd entry).isEligible p = (c.isEligible p && cwd.clearOf entry p) := by
  simp [Config.isEligible, Config.excluding, Exclusions.excludes_push, Path.clearOf, Bool.and_assoc]

theorem admits_excluding (v : Visit) (name : Name) (isDirectory : Bool) :
    v.admits (c.excluding cwd entry) name isDirectory =
      (v.admits c name isDirectory && cwd.clearOf entry (v.pathOf name)) := by
  simp [Visit.admits, Config.excluding, Exclusions.excludes_push, Path.clearOf, Bool.and_assoc]

theorem fileAt_excluding (v : Visit) (name : Name) :
    v.fileAt (c.excluding cwd entry) name = (v.fileAt c name).filter (cwd.clearOf entry) := by
  simp only [Visit.fileAt, admits_excluding, isEligible_excluding]
  by_cases clear : cwd.clearOf entry (v.pathOf name) = true
  · split <;> simp_all
  · split <;> simp_all

theorem enter_excluding (v : Visit) (name : Name) (real : Location) :
    v.enter (c.excluding cwd entry) s name real = v.enter c s name real := rfl

/-- The step into a directory: either both walks enter it, or the new entry takes out whatever
the wider walk finds there. -/
theorem admitted_excluding (v : Visit) (name : Name) (real : Location) (deeper : Bool)
    {wide narrow : List Path} (narrows : narrow = wide.filter (cwd.clearOf entry))
    (below : ∀ p ∈ wide, (v.enter c s name real).Below p) :
    (if v.admits (c.excluding cwd entry) name true && deeper then narrow else []) =
      (if v.admits c name true && deeper then wide else []).filter (cwd.clearOf entry) := by
  rw [admits_excluding]
  by_cases clear : cwd.clearOf entry (v.pathOf name) = true
  · simp only [clear, Bool.and_true, narrows]
    split <;> simp
  · have gone : wide.filter (cwd.clearOf entry) = [] := by
      rw [List.filter_eq_nil_iff]
      intro p hp
      obtain ⟨names, rfl⟩ := below p hp
      have excluded : (v.pathOf name).excludedBy (cwd.resolve entry) = true := by
        simpa [Path.clearOf] using clear
      simpa [Path.clearOf, Visit.enter] using Path.excludedBy_below excluded names
    split <;> simp_all

theorem walkEntries_excluding {wide narrow : Visit → Entries → List Path}
    (narrows : ∀ v es, narrow v es = (wide v es).filter (cwd.clearOf entry))
    (below : ∀ v es, ∀ p ∈ wide v es, v.Below p) (v : Visit) (es : Entries) :
    walkEntries (c.excluding cwd entry) s narrow v es =
      (walkEntries c s wide v es).filter (cwd.clearOf entry) := by
  induction es using Node.entries_induction (P := fun node => ∀ (v : Visit) name,
      walkNode (c.excluding cwd entry) s narrow v name node =
        (walkNode c s wide v name node).filter (cwd.clearOf entry)) generalizing v with
  | file content v name => exact fileAt_excluding c cwd entry v name
  | directory es ih v name =>
    simp only [walkNode, enter_excluding]
    exact admitted_excluding c s cwd entry v name _ _ (ih _) (walkEntries_below c s below _ es)
  | link target v name =>
    have same : v.linkEnd (c.excluding cwd entry) s name = v.linkEnd c s name := rfl
    simp only [walkNode_link, same, enter_excluding, fileAt_excluding]
    cases v.linkEnd c s name with
    | nothing => rfl
    | file => rfl
    | directory real es =>
      exact admitted_excluding c s cwd entry v name real _ (narrows _ es) (below _ es)
  | nil => rfl
  | cons name node rest hnode hrest =>
    rw [walkEntries, walkEntries, hnode, hrest, List.filter_append]

theorem walkThrough_excluding (links : Nat) (v : Visit) (es : Entries) :
    walkThrough (c.excluding cwd entry) s links v es =
      (walkThrough c s links v es).filter (cwd.clearOf entry) := by
  induction links generalizing v es with
  | zero =>
    have none : ∀ (v : Visit), ∀ p ∈ ([] : List Path), v.Below p := by simp
    exact walkEntries_excluding c s cwd entry (fun _ _ => rfl) (fun v _ => none v) v es
  | succ links ih =>
    exact walkEntries_excluding c s cwd entry ih (walkThrough_below c s links) v es

theorem walk_excluding (root : Location) :
    walk (c.excluding cwd entry) s root = (walk c s root).filter (cwd.clearOf entry) := by
  unfold walk
  split
  · rfl
  · split
    · have same : (c.excluding cwd entry).walk = c.walk := rfl
      rw [same]
      split
      · rfl
      · exact walkThrough_excluding c s cwd entry _ _ _
    · rfl

theorem findRoot_excluding (root : Path) :
    (findRoot (c.excluding cwd entry) s cwd root).paths =
      (findRoot c s cwd root).paths.filter (cwd.clearOf entry) := by
  simp only [findRoot, isEligible_excluding, walk_excluding]
  split
  · rfl
  · split
    · cases c.isEligible (cwd.resolve root) with
      | false => rfl
      | true =>
        cases clear : cwd.clearOf entry (cwd.resolve root) <;> simp [RootFinding.paths, clear]
    · rfl

theorem collectAll_excluding (roots : List Path) :
    collectAll (c.excluding cwd entry) s cwd roots =
      { collectAll c s cwd roots with
        files := (collectAll c s cwd roots).files.filter (cwd.clearOf entry) } := by
  simp only [collectAll_eq, findRoot_excluding, List.filter_flatMap]

end

/-- One more exclusion entry filters: of the collected files and of the problems exactly those go
whose path the entry takes out, the rest stays as often and in the order it was, and the same roots
are missing. With markers that cannot be used there is no report before or after. -/
theorem excluding_filters (c : Config) (s : Snapshot) (cwd : Path) (roots : List Path)
    (entry : Path) (lenient : c.strict = false) :
    ∃ found, collect c s cwd roots = .ok found ∧
      collect (c.excluding cwd entry) s cwd roots =
        .ok { found with files := found.files.filter fun p => !p.excludedBy (cwd.resolve entry) } ∧
      (c.markers.isUsable = true → ∃ report, check c s cwd roots = .ok report ∧
        report.missing = found.missing ∧
        check (c.excluding cwd entry) s cwd roots =
          .ok { report with
            problems := report.problems.filter fun p => !p.path.excludedBy (cwd.resolve entry)
            filesChecked :=
              (found.files.filter fun p => !p.excludedBy (cwd.resolve entry)).length }) ∧
      (c.markers.isUsable = false → check c s cwd roots = .error .unusableMarkers ∧
        check (c.excluding cwd entry) s cwd roots = .error .unusableMarkers) := by
  have narrow := collectAll_excluding c s cwd entry roots
  refine ⟨_, collect_lenient c s cwd roots lenient, ?_, ?_, ?_⟩
  · rw [collect_lenient (c.excluding cwd entry) s cwd roots lenient, narrow]
    rfl
  · intro usable
    refine ⟨_, check_lenient c s cwd roots lenient usable, rfl, ?_⟩
    rw [check_lenient (c.excluding cwd entry) s cwd roots lenient usable, narrow]
    have problems := problems_filter c s cwd (cwd.clearOf entry) (collectAll c s cwd roots).files
    exact congrArg (fun ps => Except.ok (Report.mk ps _ _)) problems
  · intro unusable
    have same : (c.excluding cwd entry).markers = c.markers := rfl
    simp [check, same, unusable]

theorem excluding_filters_smallTree :
    let cwd : Path := .ofText ['/', 'w']
    let c : Config := { exclusions := {}, walk := { followLinks := true } }
    let roots : List Path := [.ofText ['.'], .ofText ['x'], .ofText ['a', '.', 'p', 'y']]
    let keeps (p : Path) : Bool := !p.excludedBy (cwd.resolve (.ofText ['v']))
    ∃ found report, collect c smallTree cwd roots = .ok found ∧
      collect (c.excluding cwd (.ofText ['v'])) smallTree cwd roots =
        .ok { found with files := found.files.filter keeps } ∧
      check c smallTree cwd roots = .ok report ∧ report.missing = found.missing ∧
      check (c.excluding cwd (.ofText ['v'])) smallTree cwd roots =
        .ok { report with
          problems := report.problems.filter fun p => keeps p.path
          filesChecked := (found.files.filter keeps).length } := by
  obtain ⟨found, wide, narrow, usable, _⟩ :=
    excluding_filters { exclusions := {}, walk := { followLinks := true } } smallTree
      (.ofText ['/', 'w']) [.ofText ['.'], .ofText ['x'], .ofText ['a', '.', 'p', 'y']]
      (.ofText ['v']) rfl
  obtain ⟨report, before, missing, after⟩ := usable rfl
  exact ⟨found, report, wide, narrow, before, missing, after⟩

end LineGauge
