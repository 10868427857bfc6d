import LineGauge.Proofs.Order
import LineGauge.Proofs.Strict

/-! Folded paths: absolute paths that folding leaves as they are, with a slash before each name and
no detour. Such a path is determined by its components, so none has a second spelling that is
folded too. Every path in the report of a check is folded. -/
namespace LineGauge

namespace Path

/-- Absolute, and without detours. -/
def IsFolded (p : Path) : Prop := ofLocation (fold p.components) = p

instance (p : Path) : Decidable p.IsFolded := inferInstanceAs (Decidable (_ = _))

theorem isFolded_ofLocation {l : Location} (proper : ∀ n ∈ l, n.isProper = true) :
    (ofLocation l).IsFolded := by
  unfold IsFolded
  rw [fold_ofLocation proper]

theorem isFolded_resolve (cwd p : Path) : (cwd.resolve p).IsFolded :=
  isFolded_ofLocation (cwd.locationIn_proper p)

theorem IsFolded.isAbsolute {p : Path} (folded : p.IsFolded) : p.isAbsolute = true := by
  rw [← folded]
  exact isAbsolute_ofLocation _

theorem IsFolded.eq_of_components {p q : Path} (hp : p.IsFolded) (hq : q.IsFolded)
    (same : p.components = q.components) : p = q :=
  calc
    p = ofLocation (fold p.components) := hp.symm
    _ = ofLocation (fold q.components) := by rw [same]
    _ = q := hq

end Path

section
variable (c : Config) (s : Snapshot)

theorem Visit.fileAt_isFolded {v : Visit} {name : Name}
    (proper : ∀ n ∈ v.shown ++ [name], n.isProper = true) :
    ∀ p ∈ v.fileAt c name, p.IsFolded := by
  intro p hp
  unfold fileAt at hp
  split at hp
  · cases List.mem_singleton.mp hp
    exact Path.isFolded_ofLocation proper
  · cases hp

theorem walk_isFolded {root : Location} (proper : ∀ n ∈ root, n.isProper = true) :
    ∀ p ∈ walk c s root, p.IsFolded := by
  have extended (v : Visit) (name : Name) (shown : ∀ n ∈ v.shown, n.isProper = true)
      (hn : name.isProper = true) : ∀ n ∈ v.shown ++ [name], n.isProper = true :=
    List.forall_mem_append.mpr ⟨shown, by simpa using hn⟩
  refine walk_forall c s (fun v => ∀ n ∈ v.shown, n.isProper = true) ?_ ?_ ?_
  · exact fun v name _ => extended v name
  · intro v name shown hn
    exact Visit.fileAt_isFolded c (extended v name shown hn)
  · exact fun _ => proper

theorem findRoot_isFolded (cwd root : Path) :
    ∀ p ∈ (findRoot c s cwd root).paths, p.IsFolded := by
  rcases findRoot_paths c s cwd root with none | file | directory
  · simp [none]
  · rw [file]
    simpa using Path.isFolded_resolve cwd root
  · rw [directory]
    exact walk_isFolded c s (cwd.locationIn_proper root)

theorem lenientReport_isFolded (cwd : Path) (roots : List Path) :
    ∀ p ∈ (lenientReport c s cwd roots).problems, p.path.IsFolded := by
  intro p hp
  obtain ⟨file, collected, found⟩ := List.mem_flatMap.mp hp
  rw [collectAll_eq] at collected
  obtain ⟨root, _, member⟩ := List.mem_flatMap.mp collected
  rw [problemsOf_path c s cwd file p found]
  exact findRoot_isFolded c s cwd root file member

end

end LineGauge
