import Mathlib.Data.List.Basic
import LineGauge.Proofs.Project
import LineGauge.Proofs.Strict

/-! Moving a project. A check of a project without links, with entries and roots given relative to
it, is decided within the project: its own names decide what is excluded, what is eligible and in
which order the files come, and the place where it stands only goes in front of every path. Paths
have any length here, so nothing is lost by a long way to that place. -/
namespace LineGauge

namespace Path

theorem after?_append_left {α : Type} [BEq α] [LawfulBEq α] (above bs as : List α) :
    after? (above ++ bs) (above ++ as) = after? bs as := by
  induction above with
  | nil => rfl
  | cons a above ih => simpa [after?] using ih

theorem isPrefixOf_append_left {α : Type} [BEq α] [LawfulBEq α] (above bs as : List α) :
    (above ++ bs).isPrefixOf (above ++ as) = bs.isPrefixOf as := by
  rw [Bool.eq_iff_iff, List.isPrefixOf_iff_prefix, List.isPrefixOf_iff_prefix]
  exact List.prefix_append_right_inj above

/-- What both the candidate and the entry begin with does not matter. -/
theorem excludedBy_shared {p q e f : Path} {above other below entry : List Component}
    (hp : p.components = above ++ below) (he : e.components = above ++ entry)
    (hq : q.components = other ++ below) (hf : f.components = other ++ entry) :
    p.excludedBy e = q.excludedBy f := by
  by_cases whole : entry = []
  · -- The entry is the shared beginning itself, so the candidate is below it on both sides.
    subst whole
    have inside (cs : List Component) : (cs ++ []).isPrefixOf (cs ++ below) = true := by
      rw [isPrefixOf_append_left, List.isPrefixOf]
    simp only [excludedBy, hp, he, hq, hf, inside, Bool.true_or]
  · simp only [excludedBy, hp, he, hq, hf, isPrefixOf_append_left, after?_append_left,
      List.getLast?_append_of_ne_nil _ whole, List.dropLast_append_of_ne_nil whole]

section
variable {place : Location} (placed : ∀ n ∈ place, n.isProper = true)
include placed

theorem components_beyond (l : Location) :
    (ofLocation (place ++ l)).components =
      (.root :: place.map .name) ++ (l.flatMap (pieces (· == slash))).filterMap component? := by
  rw [components_ofLocation, List.flatMap_append, List.filterMap_append, pieces_proper placed,
    filterMap_component?_proper placed, List.cons_append]

theorem excludedBy_beyond (l e : Location) :
    (ofLocation (place ++ l)).excludedBy (ofLocation (place ++ e)) =
      (ofLocation l).excludedBy (ofLocation e) := by
  have alone (m : Location) : (ofLocation m).components =
      [.root] ++ (m.flatMap (pieces (· == slash))).filterMap component? := components_ofLocation m
  exact excludedBy_shared (components_beyond placed l) (components_beyond placed e) (alone l)
    (alone e)

theorem extension?_beyond {l : Location} (proper : ∀ n ∈ l, n.isProper = true) (more : l ≠ []) :
    (ofLocation (place ++ l)).extension? = (ofLocation l).extension? := by
  have named : l.map Component.name ≠ [] := by simpa using more
  have last (cs : List Component) :
      (cs ++ l.map Component.name).getLast? = (l.map Component.name).getLast? :=
    List.getLast?_append_of_ne_nil cs named
  have here : (ofLocation (place ++ l)).components.getLast? = (l.map Component.name).getLast? := by
    rw [components_proper (List.forall_mem_append.mpr ⟨placed, proper⟩), List.map_append,
      ← List.cons_append]
    exact last _
  have alone : (ofLocation l).components.getLast? = (l.map Component.name).getLast? := by
    rw [components_proper proper]
    exact last [.root]
  rw [extension?, extension?, fileName?, fileName?, here, alone]

end

/-- The path with another beginning, if it has the given one. -/
def moved (old new : Location) (p : Path) : Path :=
  match after? old (fold p.components) with
  | some names => ofLocation (new ++ names)
  | none => p

theorem moved_ofLocation {old l : Location} (proper : ∀ n ∈ old ++ l, n.isProper = true)
    (new : Location) : (ofLocation (old ++ l)).moved old new = ofLocation (new ++ l) := by
  rw [moved, fold_ofLocation proper, after?_eq_some.mpr rfl]

end Path

namespace Exclusions

theorem standardNames_plain : ∀ p ∈ standardNames, p.isPlain = true := by
  decide

/-- Entries given within a project take out what they would take out if nothing were above it. -/
theorem excludes_beyond {place : Location} (placed : ∀ n ∈ place, n.isProper = true)
    {more : List Path} (plain : ∀ p ∈ more, p.isPlain = true) (l : Location) :
    (standard (.ofLocation place) more).excludes (.ofLocation (place ++ l)) =
      (standard (.ofLocation []) more).excludes (.ofLocation l) := by
  rw [Bool.eq_iff_iff]
  simp only [excludes, entries_standard, List.any_map, List.any_eq_true, Function.comp_apply]
  refine exists_congr fun entry => and_congr_right fun member => ?_
  have relative : entry.isPlain = true := by
    rcases List.mem_append.mp member with own | given
    · exact standardNames_plain entry own
    · exact plain entry given
  rw [Path.resolve, Path.resolve, Path.locationIn_plain placed relative,
    Path.locationIn_plain (by simp) relative, List.nil_append,
    Path.excludedBy_beyond placed]

end Exclusions

/-- The configuration of a project at a place, with the standard entries and more. -/
def Config.placed (c : Config) (more : List Path) (place : Location) : Config :=
  { c with exclusions := .standard (.ofLocation place) more }

/-- The configuration under which no link is followed. -/
def Config.unlinked (c : Config) : Config :=
  { c with walk := { c.walk with followLinks := false } }

theorem isEligible_beyond (c : Config) {more : List Path} (plain : ∀ p ∈ more, p.isPlain = true)
    {place l : Location} (placed : ∀ n ∈ place, n.isProper = true)
    (proper : ∀ n ∈ l, n.isProper = true) (named : l ≠ []) :
    (c.placed more place).isEligible (.ofLocation (place ++ l)) =
      (c.placed more []).isEligible (.ofLocation l) := by
  simp only [Config.isEligible, Config.recognises, Config.placed,
    Path.extension?_beyond placed proper named, Exclusions.excludes_beyond placed plain]

section
variable (c : Config) (s : Snapshot)

theorem walkEntries_linkless (onLinked other : Visit → Entries → List Path) (v : Visit)
    {es : Entries} (linkless : Node.linklessAmong es = true) :
    walkEntries c s onLinked v es = walkEntries c.unlinked s other v es := by
  induction es using Node.entries_induction (P := fun node => ∀ (v : Visit) name,
      node.linkless = true → walkNode c s onLinked v name node =
        walkNode c.unlinked s other v name node) generalizing v with
  | file content v name => rfl
  | link target v name linkless => cases linkless
  | directory es ih v name linkless =>
    rw [walkNode, walkNode, ih _ linkless]
    rfl
  | nil => rfl
  | cons name node rest hnode hrest =>
    rw [Node.linklessAmong, Bool.and_eq_true] at linkless
    rw [walkEntries, walkEntries, hnode v name linkless.1, hrest v linkless.2]

theorem find?_eq_some {s : Snapshot} {cwd p : Path} {node : Node}
    (found : s.find? cwd p = some node) :
    ∃ l, s.locate cwd p = .ok l ∧ s.nodeAt? l = some node := by
  rw [Snapshot.find?] at found
  split at found
  · rename_i l leads
    exact ⟨l, leads, found⟩
  · cases found

theorem walk_linkless (unruled : c.walk.respectIgnoreFiles = false) {root : Location} {es : Entries}
    (found : s.find? Visit.rootPath (.ofLocation root) = some (.directory es))
    (linkless : Node.linklessAmong es = true) :
    walk c s root = ((Node.filesAmong es).filter (c.selects c.walk.maxDepth root)).map
      (fun l => .ofLocation (root ++ l)) := by
  obtain ⟨real, leads, directory⟩ := find?_eq_some found
  have same : walk c s root = walk c.unlinked s root := by
    simp only [walk, leads, directory]
    have options : c.unlinked.walk.maxDepth = c.walk.maxDepth := rfl
    rw [options]
    split
    · rfl
    · cases s.root.directories with
      | zero => exact walkEntries_linkless c s _ _ _ linkless
      | succ links => exact walkEntries_linkless c s _ _ _ linkless
  rw [same, walk_plain c.unlinked s rfl unruled leads directory]
  rfl

theorem walk_nowhere {root : Location}
    (other : ∀ es, s.find? Visit.rootPath (.ofLocation root) ≠ some (.directory es)) :
    walk c s root = [] := by
  rw [walk]
  split
  · rfl
  · rename_i real leads
    split
    · rename_i es directory
      exact absurd (by simp only [Snapshot.find?, leads, directory]) (other es)
    · rfl

end

namespace Snapshot

/-- The files of a project below one of its directories, as locations in the project. -/
def filesBelow (project : Snapshot) (c : Config) (l : Location) : List Location :=
  match project.find? (.ofLocation []) (.ofLocation l) with
  | some (.directory es) =>
    ((Node.filesAmong es).filter (c.selects c.walk.maxDepth l)).map (l ++ ·)
  | _ => []

/-- The files of a project that a root gives. -/
def filesOf (project : Snapshot) (c : Config) (root : Path) : List Location :=
  let l := Path.foldSegments root.segments
  if !project.pathExists (.ofLocation []) root then []
  else if project.isFile (.ofLocation []) (.ofLocation l) then
    if c.isEligible (.ofLocation l) then [l] else []
  else project.filesBelow c l

/-- The report on a project that stands at a place. -/
def reportAt (project : Snapshot) (c : Config) (roots : List Path) (place : Location) :
    Report where
  problems := (roots.flatMap (project.filesOf c)).flatMap fun l =>
    ((project.textAt? (.ofLocation []) (.ofLocation l)).elim []
      (Line.scanText c.limits c.markers)).map fun o => { o with path := .ofLocation (place ++ l) }
  filesChecked := (roots.flatMap (project.filesOf c)).length
  missing := roots.filter fun root => !project.pathExists (.ofLocation []) root

end Snapshot

theorem foldSegments_proper {p : Path} (plain : p.isPlain = true) :
    ∀ n ∈ Path.foldSegments p.segments, n.isProper = true := by
  have proper := Path.locationIn_proper (.ofLocation []) p
  rwa [Path.locationIn_plain (by simp) plain, List.nil_append] at proper

theorem filesAmong_proper {project : Snapshot} {cwd p : Path} {es : Entries}
    (found : project.find? cwd p = some (.directory es)) :
    ∀ l ∈ Node.filesAmong es, l ≠ [] ∧ ∀ n ∈ l, n.isProper = true := by
  intro l hl
  obtain ⟨real, _, directory⟩ := find?_eq_some found
  have ordered : (Node.directory es).WellOrdered := Snapshot.nodeAt?_wellOrdered directory
  obtain ⟨content, held⟩ := (Node.mem_files ordered l).mp hl
  obtain ⟨e, _, names, key⟩ := Node.filesAmong_key es l hl
  exact ⟨by simp [key], (Node.at?_wellOrdered ordered held).2⟩

theorem filesOf_proper {project : Snapshot} {c : Config} {root : Path}
    (plain : root.isPlain = true) :
    ∀ l ∈ project.filesOf c root, ∀ n ∈ l, n.isProper = true := by
  have named := foldSegments_proper plain
  intro l hl
  simp only [Snapshot.filesOf] at hl
  split at hl
  · cases hl
  · split at hl
    · split at hl
      · cases List.mem_singleton.mp hl
        exact named
      · cases hl
    · rw [Snapshot.filesBelow] at hl
      split at hl
      · rename_i es found
        obtain ⟨m, member, rfl⟩ := List.mem_map.mp hl
        have inner := (filesAmong_proper found m (List.mem_filter.mp member).1).2
        exact List.forall_mem_append.mpr ⟨named, inner⟩
      · cases hl

theorem ne_nil_of_isFile {project : Snapshot} {l : Location}
    (file : project.isFile (.ofLocation []) (.ofLocation l) = true) : l ≠ [] := by
  rintro rfl
  have root : project.find? (.ofLocation []) (.ofLocation []) = some project.root := rfl
  simp [Snapshot.isFile, root, Snapshot.root] at file

section
variable (c : Config) {more : List Path} (plainMore : ∀ p ∈ more, p.isPlain = true)
  {s project : Snapshot} {place real : Location} (holds : s.Holds place real project)
  (linkless : project.root.linkless = true)
include holds linkless

theorem problemsOf_placed (cwd : Path) {l : Location} (proper : ∀ n ∈ l, n.isProper = true) :
    problemsOf (c.placed more place) s cwd (.ofLocation (place ++ l)) =
      ((project.textAt? (.ofLocation []) (.ofLocation l)).elim []
        (Line.scanText c.limits c.markers)).map
          fun o => { o with path := .ofLocation (place ++ l) } := by
  have text : s.textAt? cwd (.ofLocation (place ++ l)) =
      project.textAt? (.ofLocation []) (.ofLocation l) := by
    rw [Snapshot.textAt?, Snapshot.textAt?, Snapshot.read_toOption, Snapshot.read_toOption,
      Snapshot.find?_within holds linkless cwd proper]
  rw [problemsOf_eq, text]
  rfl

variable (unruled : c.walk.respectIgnoreFiles = false)
include plainMore unruled

theorem walk_placed {l : Location} (proper : ∀ n ∈ l, n.isProper = true) :
    walk (c.placed more place) s (place ++ l) =
      (project.filesBelow (c.placed more []) l).map fun m => .ofLocation (place ++ m) := by
  have there := Snapshot.find?_within holds linkless Visit.rootPath proper
  rw [Snapshot.filesBelow]
  split
  · rename_i es found
    obtain ⟨inner, _, directory⟩ := find?_eq_some found
    have plainTree : Node.linklessAmong es = true := Node.at?_linkless linkless directory
    have selected : ∀ m ∈ Node.filesAmong es,
        (c.placed more place).selects c.walk.maxDepth (place ++ l) m =
          (c.placed more []).selects c.walk.maxDepth l m := by
      intro m hm
      obtain ⟨some, inside⟩ := filesAmong_proper found m hm
      have eligible := isEligible_beyond c plainMore holds.proper
        (List.forall_mem_append.mpr ⟨proper, inside⟩) (List.append_ne_nil_of_right_ne_nil l some)
      simp only [Config.selects, List.append_assoc, eligible]
    have walked := walk_linkless (c.placed more place) s unruled (there.trans found) plainTree
    have options (place : Location) : (c.placed more place).walk = c.walk := rfl
    simp only [options, List.filter_congr selected, List.append_assoc] at walked
    rw [walked, options, List.map_map]
    rfl
  · rename_i other
    rw [walk_nowhere (c.placed more place) s fun es => there ▸ other es]
    rfl

theorem findRoot_placed {root : Path} (plain : root.isPlain = true) :
    (findRoot (c.placed more place) s (.ofLocation place) root).paths =
      (project.filesOf (c.placed more []) root).map fun l => .ofLocation (place ++ l) := by
  have named := foldSegments_proper plain
  have location := Path.locationIn_plain holds.proper plain
  have found := Snapshot.find?_within holds linkless (.ofLocation place) named
  have file : s.isFile (.ofLocation place)
      (.ofLocation (place ++ Path.foldSegments root.segments)) =
        project.isFile (.ofLocation []) (.ofLocation (Path.foldSegments root.segments)) := by
    rw [Snapshot.isFile, Snapshot.isFile, found]
  simp only [findRoot, Snapshot.filesOf, Snapshot.pathExists_plain holds linkless plain,
    Path.resolve, location, file]
  split
  · rfl
  · split
    · rename_i isFile
      rw [isEligible_beyond c plainMore holds.proper named (ne_nil_of_isFile isFile)]
      split <;> rfl
    · exact walk_placed c plainMore holds linkless unruled named

theorem lenientReport_placed {roots : List Path} (plain : ∀ p ∈ roots, p.isPlain = true) :
    lenientReport (c.placed more place) s (.ofLocation place) roots =
      project.reportAt (c.placed more []) roots place := by
  have files : (collectAll (c.placed more place) s (.ofLocation place) roots).files =
      (roots.flatMap (project.filesOf (c.placed more []))).map
        fun l => .ofLocation (place ++ l) := by
    rw [collectAll_eq, List.map_flatMap]
    apply List.flatMap_congr
    intro root member
    exact findRoot_placed c plainMore holds linkless unruled (plain root member)
  have missing : (collectAll (c.placed more place) s (.ofLocation place) roots).missing =
      roots.filter fun root => !project.pathExists (.ofLocation []) root := by
    rw [collectAll_eq]
    apply List.filter_congr
    intro root member
    rw [Snapshot.pathExists_plain holds linkless (plain root member)]
  rw [lenientReport, reportOn, files, missing, Snapshot.reportAt, List.length_map,
    List.flatMap_map]
  congr 1
  apply List.flatMap_congr
  intro l hl
  obtain ⟨root, member, given⟩ := List.mem_flatMap.mp hl
  exact problemsOf_placed c holds linkless _ (filesOf_proper (plain root member) l given)

end

/-- The report with another beginning of the paths of its problems. -/
def Report.moved (old new : Location) (r : Report) : Report :=
  { r with problems := r.problems.map fun p => { p with path := p.path.moved old new } }

theorem reportAt_moved (project : Snapshot) (c : Config) {roots : List Path}
    (plain : ∀ p ∈ roots, p.isPlain = true) {here : Location}
    (proper : ∀ n ∈ here, n.isProper = true) (there : Location) :
    (project.reportAt c roots here).moved here there = project.reportAt c roots there := by
  simp only [Report.moved, Snapshot.reportAt, List.map_flatMap, List.map_map]
  congr 1
  apply List.flatMap_congr
  intro l hl
  obtain ⟨root, member, given⟩ := List.mem_flatMap.mp hl
  have inside := filesOf_proper (plain root member) l given
  have path := Path.moved_ofLocation (List.forall_mem_append.mpr ⟨proper, inside⟩) there
  simp only [Function.comp_def, path]

/-- A check does not depend on where the project stands. For a project without links, held at two
places, and for entries and roots given relative to it without `..`, the check at the second place
reports what the check at the first does, with the second place in front of every path instead of
the first; every path of a problem does begin with the first. Nor do the names above the project
exclude anything: what the entries exclude in it is what they would exclude at the root of a file
system. With markers that cannot be used there is no report at either place. -/
theorem report_moves_with_project (c : Config) (more roots : List Path) (s t project : Snapshot)
    (here realHere there realThere : Location) (lenient : c.strict = false)
    (unruled : c.walk.respectIgnoreFiles = false) (plain : ∀ p ∈ more ++ roots, p.isPlain = true)
    (linkless : project.root.linkless = true) (atHere : s.Holds here realHere project)
    (atThere : t.Holds there realThere project) :
    (c.markers.isUsable = true → ∃ before,
      check { c with exclusions := .standard (.ofLocation here) more } s (.ofLocation here) roots =
        .ok before ∧
      check { c with exclusions := .standard (.ofLocation there) more } t (.ofLocation there) roots =
        .ok (before.moved here there) ∧
      ∀ p ∈ before.problems, ∃ names, p.path = .ofLocation (here ++ names)) ∧
    (c.markers.isUsable = false →
      check { c with exclusions := .standard (.ofLocation here) more } s (.ofLocation here) roots =
        .error .unusableMarkers ∧
      check { c with exclusions := .standard (.ofLocation there) more } t (.ofLocation there) roots =
        .error .unusableMarkers) ∧
    ∀ l, (Exclusions.standard (.ofLocation here) more).excludes (.ofLocation (here ++ l)) =
      (Exclusions.standard (.ofLocation []) more).excludes (.ofLocation l) := by
  obtain ⟨plainMore, plainRoots⟩ := List.forall_mem_append.mp plain
  refine ⟨?_, ?_, Exclusions.excludes_beyond atHere.proper plainMore⟩
  · intro usable
    have before := check_lenient (c.placed more here) s (.ofLocation here) roots lenient usable
    have after := check_lenient (c.placed more there) t (.ofLocation there) roots lenient usable
    have first := lenientReport_placed c plainMore atHere linkless unruled plainRoots
    have second := lenientReport_placed c plainMore atThere linkless unruled plainRoots
    rw [lenientReport] at first second
    rw [first] at before
    rw [second, ← reportAt_moved project _ plainRoots atHere.proper there] at after
    refine ⟨_, before, after, ?_⟩
    intro p hp
    obtain ⟨l, _, given⟩ := List.mem_flatMap.mp hp
    obtain ⟨o, _, rfl⟩ := List.mem_map.mp given
    exact ⟨l, rfl⟩
  · intro unusable
    exact ⟨check_unusable (c.placed more here) s _ roots unusable,
      check_unusable (c.placed more there) t _ roots unusable⟩

/-- A project with the files `b.py` and `v/c.py`, each with a line of three characters. -/
def smallProject : Snapshot where
  entries := [
    (Utf8.encode ['b', '.', 'p', 'y'], .file (Utf8.encode ['x', '=', '1'])),
    (Utf8.encode ['v'], .directory [
      (Utf8.encode ['c', '.', 'p', 'y'], .file (Utf8.encode ['y', '=', '2']))])]
  ordered := by
    simp only [Node.WellOrderedEntries, Node.WellOrdered]
    decide

/-- The project at `/venv`. -/
def nearTree : Snapshot where
  entries := [(Utf8.encode ['v', 'e', 'n', 'v'], smallProject.root)]
  ordered := by
    simp only [Node.WellOrderedEntries, Node.WellOrdered, smallProject, Snapshot.root]
    decide

/-- The project at `/w/v`, which is reached through a link from `/l` to `/w` as well. -/
def farTree : Snapshot where
  entries := [
    (Utf8.encode ['l'], .link (.ofText ['w'])),
    (Utf8.encode ['w'], .directory [(Utf8.encode ['v'], smallProject.root)])]
  ordered := by
    simp only [Node.WellOrderedEntries, Node.WellOrdered, smallProject, Snapshot.root]
    decide

theorem report_moves_with_smallProject :
    let more : List Path := [.ofText ['v']]
    let roots : List Path := [.ofText ['x'], .ofText ['.']]
    let here : Location := [Utf8.encode ['v', 'e', 'n', 'v']]
    let there : Location := [Utf8.encode ['l'], Utf8.encode ['v']]
    let c : Config :=
      { exclusions := {}, limits := { code := 2, docs := 2 }, walk := { followLinks := true } }
    (∀ p ∈ more ++ roots, p.isPlain = true) ∧ smallProject.root.linkless = true ∧
      nearTree.Holds here here smallProject ∧
      farTree.Holds there [Utf8.encode ['w'], Utf8.encode ['v']] smallProject ∧ ∃ before,
      check { c with exclusions := .standard (.ofLocation here) more } nearTree
        (.ofLocation here) roots = .ok before ∧ before.problems.length = 1 ∧
      check { c with exclusions := .standard (.ofLocation there) more } farTree
        (.ofLocation there) roots = .ok (before.moved here there) := by
  intro more roots here there c
  have plain : ∀ p ∈ more ++ roots, p.isPlain = true := by decide
  have linkless : smallProject.root.linkless = true := by decide
  have near : nearTree.Holds here here smallProject := ⟨by decide, rfl, rfl⟩
  have far : farTree.Holds there [Utf8.encode ['w'], Utf8.encode ['v']] smallProject :=
    ⟨by decide, rfl, rfl⟩
  obtain ⟨before, first, second, _⟩ := (report_moves_with_project c more roots nearTree farTree
    smallProject here _ there _ rfl rfl plain linkless near far).1 rfl
  have lenient := check_lenient (c.placed more here) nearTree (.ofLocation here) roots rfl rfl
  have report := Except.ok.inj (first.symm.trans lenient)
  refine ⟨plain, linkless, near, far, before, first, ?_, second⟩
  rw [report]
  decide

end LineGauge
