import LineGauge.Run
import LineGauge.Proofs.Project

/-! Settings from the project file, whether it is named or not. Without a name the file is looked
for first and passed over if it is bad; with its name it has to be good, and its paths count from
its directory, which has the empty path. Both ways read the same settings from a good file. -/
namespace LineGauge

theorem Snapshot.isFile_of_read {s : Snapshot} {cwd p : Path} {content : Bytes}
    (found : s.read cwd p = .ok content) : s.isFile cwd p = true := by
  have node := s.read_toOption cwd p
  rw [found] at node
  obtain ⟨n, located, reads⟩ := Option.bind_eq_some_iff.mp node.symm
  unfold isFile
  cases n with
  | file content => rw [located]
  | link target => cases reads
  | directory es => cases reads

namespace Settings

@[simp] theorem rebase_empty (s : Settings) : s.rebase ⟨[]⟩ = s := by
  have same : Path.join ⟨[]⟩ = id := by
    funext p
    simp [Path.join]
  simp [rebase, same]

section
variable {s : Snapshot} {cwd : Path}

theorem read_error_path {file : Path} {e : LoadError} (failed : read s cwd file = .error e) :
    e.path = file := by
  unfold read at failed
  split at failed
  · cases failed
    rfl
  · split at failed
    · cases failed
      rfl
    · split at failed <;> cases failed <;> rfl

theorem isFile_of_settings {file : Path} {settings : Settings}
    (good : read s cwd file = .ok settings) : s.isFile cwd file = true := by
  unfold read Snapshot.readGiven at good
  cases given : file.fault? with
  | some fault => simp [given] at good
  | none =>
    cases content : s.read cwd file with
    | error fault => simp [given, content] at good
    | ok bytes => exact Snapshot.isFile_of_read content

theorem load_named : load s cwd (some projectFile) = read s cwd projectFile := by
  have parent : projectFile.parent? = some ⟨[]⟩ := by decide
  change loadNamed s cwd projectFile = _
  unfold loadNamed
  rw [parent]
  cases read s cwd projectFile <;> simp

theorem loadProject_good {settings : Settings} (good : read s cwd projectFile = .ok settings) :
    loadProject s cwd = (settings, none) := by
  unfold loadProject
  rw [if_pos (isFile_of_settings good), good]

theorem loadProject_bad {e : LoadError} (bad : read s cwd projectFile = .error e) :
    (loadProject s cwd).1 = {} := by
  unfold loadProject
  split
  · rw [bad]
  · rfl

theorem load_unnamed : load s cwd none = .ok (loadProject s cwd).1 := rfl

end

end Settings

section
variable (coloured : Bool) {s : Snapshot} {cwd : Path} {a : Arguments}

theorem run_named_good (unnamed : a.config = none) {settings : Settings}
    (good : Settings.read s cwd Settings.projectFile = .ok settings) :
    run coloured s cwd { a with config := some Settings.projectFile } = run coloured s cwd a := by
  have named : Settings.load s cwd (some Settings.projectFile) = .ok settings :=
    Settings.load_named.trans good
  have found := Settings.loadProject_good good
  unfold run
  simp only [unnamed, named, Settings.load_unnamed, found]
  rfl

theorem run_named_bad {e : Settings.LoadError}
    (bad : Settings.read s cwd Settings.projectFile = .error e) :
    run coloured s cwd { a with config := some Settings.projectFile } =
      .ofError [] (.settings e) := by
  have named : Settings.load s cwd (some Settings.projectFile) = .error e :=
    Settings.load_named.trans bad
  unfold run
  simp only [named]

end

/-- The project file gives the same settings whether it is named or not, and if it fails when it is
named, then the standard settings hold when it is not, which never fails. So to name it changes
nothing in a run but that a bad project file ends it, with an error about that file. -/
theorem named_project_file (s : Snapshot) (cwd : Path) :
    (∃ settings, Settings.load s cwd none = .ok settings) ∧
    (∀ settings, Settings.load s cwd (some Settings.projectFile) = .ok settings →
      Settings.load s cwd none = .ok settings ∧
      ∀ coloured (a : Arguments), a.config = none →
        run coloured s cwd { a with config := some Settings.projectFile } = run coloured s cwd a) ∧
    (∀ e, Settings.load s cwd (some Settings.projectFile) = .error e →
      Settings.load s cwd none = .ok {} ∧ e.path = Settings.projectFile ∧
      ∀ coloured (a : Arguments),
        run coloured s cwd { a with config := some Settings.projectFile } =
          .ofError [] (.settings e)) := by
  rw [Settings.load_named, Settings.load_unnamed]
  refine ⟨⟨_, rfl⟩, ?_, ?_⟩
  · intro settings good
    rw [Settings.loadProject_good good]
    exact ⟨rfl, fun coloured a unnamed => run_named_good coloured unnamed good⟩
  · intro e bad
    rw [Settings.loadProject_bad bad]
    exact ⟨rfl, Settings.read_error_path bad, fun coloured a => run_named_bad coloured bad⟩

/-- A directory `/w` with a project file. -/
def projectTree (content : Bytes) : Snapshot where
  entries := [(Utf8.encode ['w'],
    .directory [(Utf8.encode "pyproject.toml".toList, .file content)])]
  ordered := by
    simp only [Node.WellOrderedEntries, Node.WellOrdered]
    decide

theorem named_project_file_projectTree :
    let cwd : Path := .ofText ['/', 'w']
    let good := projectTree (Utf8.encode "tool.len8.exclude=['../v']".toList)
    let mistyped := projectTree (Utf8.encode "tool.len8.strict=1".toList)
    let settings : Settings := { exclude := [.ofText "../v".toList] }
    Settings.load good cwd (some Settings.projectFile) = .ok settings ∧
      Settings.load good cwd none = .ok settings ∧
      ∃ e, Settings.load mistyped cwd (some Settings.projectFile) = .error e ∧
        e.path = Settings.projectFile ∧ Settings.load mistyped cwd none = .ok {} := by
  intro cwd good mistyped settings
  have reads : (Settings.load good cwd (some Settings.projectFile)).toOption = some settings := by
    decide +kernel
  have fails : (Settings.load mistyped cwd (some Settings.projectFile)).toOption = none := by
    decide +kernel
  have loaded : Settings.load good cwd (some Settings.projectFile) = .ok settings := by
    cases found : Settings.load good cwd (some Settings.projectFile) <;> rw [found] at reads <;>
      cases reads
    rfl
  obtain ⟨e, failed⟩ : ∃ e, Settings.load mistyped cwd (some Settings.projectFile) = .error e := by
    cases found : Settings.load mistyped cwd (some Settings.projectFile) with
    | error e => exact ⟨e, rfl⟩
    | ok settings =>
      rw [found] at fails
      cases fails
  obtain ⟨unnamed, path, _⟩ := (named_project_file mistyped cwd).2.2 e failed
  exact ⟨loaded, ((named_project_file good cwd).2.1 settings loaded).1, e, failed, path, unnamed⟩

end LineGauge
