import LineGauge.Proofs.Collect
import LineGauge.Proofs.Locate
import LineGauge.Proofs.Order

/-! Collecting one directory. The walk is a selection from the files of the tree, in the order of
their paths, so each of them comes once and none is missed. -/
namespace LineGauge

section
variable {c : Config} {s : Snapshot} {root real : Location} {es : Entries}

theorem mem_walk (unfollowed : c.walk.followLinks = false)
    (unruled : c.walk.respectIgnoreFiles = false)
    (leads : s.locate Visit.rootPath (.ofLocation root) = .ok real)
    (directory : s.nodeAt? real = some (.directory es)) (p : Path) :
    p ∈ walk c s root ↔ ∃ names content, names ≠ [] ∧
      (∀ depth, c.walk.maxDepth = some depth → names.length ≤ depth) ∧
      s.nodeAt? (real ++ names) = some (.file content) ∧
      p = .ofLocation (root ++ names) ∧ c.isEligible p = true := by
  have ordered : (Node.directory es).WellOrdered := Snapshot.nodeAt?_wellOrdered directory
  rw [walk_plain c s unfollowed unruled leads directory]
  simp only [List.mem_map, List.mem_filter, Config.selects_iff]
  constructor
  · rintro ⟨l, ⟨hl, depth, eligible⟩, rfl⟩
    obtain ⟨content, found⟩ := (Node.mem_files ordered l).mp hl
    obtain ⟨e, _, names, hk⟩ := Node.filesAmong_key es l hl
    refine ⟨l, content, by simp [hk], depth, ?_, rfl, eligible⟩
    rw [Snapshot.nodeAt?_below directory, found]
  · rintro ⟨l, content, _, depth, found, rfl, eligible⟩
    rw [Snapshot.nodeAt?_below directory] at found
    exact ⟨l, ⟨(Node.mem_files ordered l).mpr ⟨content, found⟩, depth, eligible⟩, rfl⟩

end

theorem findRoot_directory (c : Config) (s : Snapshot) {cwd root : Path} {real : Location}
    {es : Entries} (given : s.pathExists cwd root = true)
    (leads : s.locate cwd (cwd.resolve root) = .ok real)
    (directory : s.nodeAt? real = some (.directory es)) :
    findRoot c s cwd root = .files (walk c s (cwd.locationIn root)) := by
  simp [findRoot, given, Snapshot.isFile, Snapshot.find?, leads, directory]

theorem collect_single (c : Config) (s : Snapshot) (cwd root : Path) {paths : List Path}
    (finding : findRoot c s cwd root = .files paths) :
    collect c s cwd [root] = .ok { files := paths } := by
  simp [collect, finding, Except.map]

/-- A root that leads to a directory gives the files below it in strictly ascending order, each
once, and these are all paths that continue the root's own by names, at most as many as the depth
allows, to a file that is eligible. Links are neither files nor directories here. -/
theorem collect_directory (c : Config) (s : Snapshot) (cwd root : Path) (real : Location)
    (es : Entries) (unfollowed : c.walk.followLinks = false)
    (unruled : c.walk.respectIgnoreFiles = false) (given : s.pathExists cwd root = true)
    (leads : s.locate cwd (cwd.resolve root) = .ok real)
    (directory : s.nodeAt? real = some (.directory es)) :
    ∃ found, collect c s cwd [root] = .ok found ∧ found.missing = [] ∧
      found.files.Pairwise Path.Before ∧ found.files.Nodup ∧
      ∀ p, p ∈ found.files ↔ ∃ names content, names ≠ [] ∧
        (∀ depth, c.walk.maxDepth = some depth → names.length ≤ depth) ∧
        s.nodeAt? (real ++ names) = some (.file content) ∧
        p = .ofLocation (cwd.locationIn root ++ names) ∧ c.isEligible (cwd.resolve p) = true := by
  have proper := cwd.locationIn_proper root
  have absolute := Path.isAbsolute_ofLocation (cwd.locationIn root)
  have there := s.locate_absolute cwd Visit.rootPath absolute ▸ leads
  have ascending := walk_ascending c s proper
  refine ⟨_, collect_single c s cwd root (findRoot_directory c s given leads directory), rfl,
    ascending, nodup_of_before ascending, ?_⟩
  intro p
  rw [mem_walk unfollowed unruled there directory]
  -- What is found below the root is spelled out already, so resolving it changes nothing.
  have spelled : ∀ names content, s.nodeAt? (real ++ names) = some (.file content) →
      cwd.resolve (.ofLocation (cwd.locationIn root ++ names)) =
        .ofLocation (cwd.locationIn root ++ names) := by
    intro names content found
    have below := (List.forall_mem_append.mp (Snapshot.nodeAt?_proper found)).2
    exact Path.resolve_ofLocation cwd (List.forall_mem_append.mpr ⟨proper, below⟩)
  constructor
  · rintro ⟨names, content, more, depth, found, rfl, eligible⟩
    exact ⟨names, content, more, depth, found, rfl, (spelled names content found).symm ▸ eligible⟩
  · rintro ⟨names, content, more, depth, found, rfl, eligible⟩
    exact ⟨names, content, more, depth, found, rfl, spelled names content found ▸ eligible⟩

theorem collect_directory_smallTree :
    let cwd : Path := .ofText ['/', 'w']
    let c : Config := { exclusions := .push cwd {} (.ofText ['v']), walk := { maxDepth := some 2 } }
    smallTree.pathExists cwd (.ofText ['a', '/', '.', '.']) = true ∧
    ∃ found, collect c smallTree cwd [.ofText ['a', '/', '.', '.']] = .ok found ∧
      found.missing = [] ∧ found.files.Pairwise Path.Before ∧ found.files.Nodup ∧
      ∀ p, p ∈ found.files ↔ ∃ names content, names ≠ [] ∧
        (∀ depth, c.walk.maxDepth = some depth → names.length ≤ depth) ∧
        smallTree.nodeAt? ([Utf8.encode ['w']] ++ names) = some (.file content) ∧
        p = .ofLocation (cwd.locationIn (.ofText ['a', '/', '.', '.']) ++ names) ∧
        c.isEligible (cwd.resolve p) = true :=
  ⟨by decide, collect_directory _ smallTree _ _ _ _ rfl rfl (by decide) rfl rfl⟩

end LineGauge
