import LineGauge.Proofs.Collect
import LineGauge.Proofs.Locate

/-! Whether a root that exists is the one that is looked at. A root is found along its spelling,
through links, and then taken under its folded path. The two part where a `..` does not lead back
to where the folded path goes back to, which takes a link before the `..`; without that the folded
path leads to the same file or directory. -/
namespace LineGauge

namespace Path

def foldSegments (ss : List Name) : Location := (ss.filterMap component?).foldl walkTo []

theorem foldSegments_append (ss : List Name) (segment : Name) :
    foldSegments (ss ++ [segment]) =
      (component? segment).elim (foldSegments ss) (walkTo (foldSegments ss)) := by
  rw [foldSegments, List.filterMap_append, List.foldl_append]
  cases h : component? segment <;> simp [foldSegments, h]

theorem fold_components (p : Path) : fold p.components = foldSegments p.segments := by
  rw [fold, components_eq, List.foldl_append, foldSegments]
  cases begins : p.start with
  | none => rfl
  | some first => rcases start_eq_some begins with ⟨rfl, _⟩ | rfl <;> rfl

theorem locationIn_eq (cwd p : Path) : cwd.locationIn p = foldSegments (cwd.join p).segments :=
  fold_components (cwd.join p)

end Path

namespace Snapshot

def reach? (s : Snapshot) (ss : List Name) : Option Location := (s.follow linkLimit [] ss).toOption

/-- Every `..` leads back from where the folded segments before it lead to where they lead without
their last name. -/
def Retraces (s : Snapshot) (ss : List Name) : Prop :=
  ∀ i, i < ss.length → ss[i]? = some [dot, dot] →
    s.reach? (Path.foldSegments (ss.take i)).dropLast =
      (s.reach? (Path.foldSegments (ss.take i))).map List.dropLast

instance (s : Snapshot) (ss : List Name) : Decidable (s.Retraces ss) :=
  inferInstanceAs (Decidable (∀ i, i < ss.length → _))

/-- After every number of segments the folded ones lead to the same place. -/
def KeepsPace (s : Snapshot) (ss : List Name) : Prop :=
  ∀ i, i ≤ ss.length → s.reach? (ss.take i) = s.reach? (Path.foldSegments (ss.take i))

theorem reach?_eq_some {s : Snapshot} {ss : List Name} {there : Location} :
    s.reach? ss = some there ↔ ∃ links, links ≤ linkLimit ∧ Leads s links [] ss there := by
  rw [← follow_eq_ok, reach?]
  cases s.follow linkLimit [] ss <;> simp [Except.toOption]

theorem leads_take {s : Snapshot} {links : Nat} {ss : List Name} {there : Location}
    (leads : Leads s links [] ss there) (i : Nat) :
    ∃ fewer middle, fewer ≤ links ∧ Leads s fewer [] (ss.take i) middle := by
  by_cases ended : ss.drop i = []
  · rw [List.take_of_length_le (List.drop_eq_nil_iff.mp ended)]
    exact ⟨links, there, Nat.le_refl links, leads⟩
  · rw [← List.take_append_drop i ss] at leads
    obtain ⟨m, n, middle, sum, first, _, _⟩ := leads_split s.isDirectory_root leads ended
    exact ⟨m, middle, by omega, first⟩

/-- A `..` that leads back: the way without the last name leads where the `..` does. -/
theorem leads_back {s : Snapshot} {links : Nat} {l there : Location}
    (back : s.reach? l.dropLast = (s.reach? l).map List.dropLast)
    (leads : Leads s links [] l there) (enough : links ≤ linkLimit) :
    ∃ fewer, fewer ≤ links ∧ Leads s fewer [] l.dropLast there.dropLast := by
  rw [List.dropLast_eq_take] at back ⊢
  obtain ⟨fewer, above, hf, parent⟩ := leads_take leads (l.length - 1)
  rw [reach?_eq_some.mpr ⟨links, enough, leads⟩, reach?_eq_some.mpr ⟨fewer, by omega, parent⟩]
    at back
  cases back
  exact ⟨fewer, hf, parent⟩

theorem leads_folded {s : Snapshot} {ss : List Name} (retraces : s.Retraces ss) (i : Nat)
    {links : Nat} {there : Location} (leads : Leads s links [] (ss.take i) there)
    (enough : links ≤ linkLimit) :
    ∃ fewer, fewer ≤ links ∧ Leads s fewer [] (Path.foldSegments (ss.take i)) there := by
  -- One more segment at a time: the folded segments are there with no more links than the segments.
  induction i generalizing links there with
  | zero => exact ⟨links, Nat.le_refl links, leads⟩
  | succ i ih =>
    rw [List.take_add_one] at leads ⊢
    cases h : ss[i]? with
    | none =>
      simp only [h, Option.toList_none, List.append_nil] at leads ⊢
      exact ih leads enough
    | some segment =>
      simp only [h, Option.toList_some] at leads ⊢
      obtain ⟨m, n, middle, sum, first, directory, last⟩ :=
        leads_split s.isDirectory_root leads (by simp)
      obtain ⟨fewer, hf, folded⟩ := ih first (by omega)
      rw [Path.foldSegments_append]
      rcases Path.component?_cases segment with reads | reads | reads
      · rw [leads_silent reads] at last
        cases leads_nil last
        rw [reads]
        exact ⟨fewer, by omega, folded⟩
      · rw [leads_up reads] at last
        cases leads_nil last
        rw [reads]
        have back := retraces i (List.getElem?_eq_some_iff.mp h).1
          (h.trans (congrArg some (Path.component?_eq_up.mp reads)))
        obtain ⟨least, hl, parent⟩ := leads_back back folded (by omega)
        exact ⟨least, by omega, parent⟩
      · rw [reads]
        have joined := leads_append folded (fun _ => directory) last
        exact ⟨fewer + n, by omega, joined⟩

theorem keepsPace_iff {s : Snapshot} {ss : List Name} {there : Location}
    (found : s.reach? ss = some there) : s.KeepsPace ss ↔ s.Retraces ss := by
  obtain ⟨links, enough, leads⟩ := reach?_eq_some.mp found
  constructor
  · intro pace i hi up
    obtain ⟨m, after, hm, whole⟩ := leads_take leads (i + 1)
    have now := pace i (Nat.le_of_lt hi)
    have next := pace (i + 1) hi
    rw [List.take_add_one, up, Option.toList_some] at whole next
    have reads : Path.component? [dot, dot] = some .up := rfl
    obtain ⟨j, k, middle, sum, first, _, last⟩ := leads_split s.isDirectory_root whole (by simp)
    rw [leads_up reads] at last
    cases leads_nil last
    rw [reach?_eq_some.mpr ⟨j, by omega, first⟩] at now
    rw [reach?_eq_some.mpr ⟨m, by omega, whole⟩, Path.foldSegments_append, reads] at next
    exact next.symm.trans (congrArg (Option.map List.dropLast) now)
  · intro retraces i _
    obtain ⟨m, middle, hm, first⟩ := leads_take leads i
    obtain ⟨fewer, hf, folded⟩ := leads_folded retraces i first (by omega)
    rw [reach?_eq_some.mpr ⟨m, by omega, first⟩, reach?_eq_some.mpr ⟨fewer, by omega, folded⟩]

theorem follow_silent (s : Snapshot) (limit : Nat) (here : Location) {segment : Name}
    (rest : List Name) (reads : Path.component? segment = none) :
    s.follow limit here (segment :: rest) = s.follow limit here rest := by
  cases limit <;> simp [follow, followWith, reads]

theorem locate_ofLocation (s : Snapshot) (cwd : Path) {l : Location}
    (proper : ∀ n ∈ l, n.isProper = true) :
    s.locate cwd (.ofLocation l) = s.follow linkLimit [] l := by
  rw [locate, cwd.join_absolute _ (Path.isAbsolute_ofLocation l)]
  by_cases empty : l = []
  · subst empty
    rfl
  · rw [Path.segments_proper proper empty, follow_silent s _ _ _ rfl]

end Snapshot

theorem find?_of_pathExists {s : Snapshot} {cwd p : Path} (given : s.pathExists cwd p = true) :
    ∃ l node, s.locate cwd p = .ok l ∧ s.nodeAt? l = some node := by
  simp only [Snapshot.pathExists, Bool.and_eq_true, Snapshot.find?] at given
  have h := given.2
  split at h
  · rename_i l found
    obtain ⟨node, hn⟩ := Option.isSome_iff_exists.mp h
    exact ⟨l, node, found, hn⟩
  · cases h

/-- Every root that is not reported missing exists, and the path it is taken under leads to the
same file or directory as the root itself, provided every `..` in the root's spelling leads back to
where the folded path goes back to. That is what it takes for the folded path to lead where the
root leads all along the way. The folded path is taken at any length, also where it is longer than
a path that can be given. -/
theorem root_taken_where_found (c : Config) (s : Snapshot) (cwd : Path) (roots : List Path)
    (lenient : c.strict = false) :
    ∃ found, collect c s cwd roots = .ok found ∧
      ∀ root ∈ roots, root ∉ found.missing →
        (s.KeepsPace (cwd.join root).segments ↔ s.Retraces (cwd.join root).segments) ∧
        (s.Retraces (cwd.join root).segments → ∃ l node, s.locate cwd root = .ok l ∧
          s.locate cwd (cwd.resolve root) = .ok l ∧ s.nodeAt? l = some node) := by
  refine ⟨_, collect_lenient c s cwd roots lenient, ?_⟩
  intro root member known
  obtain ⟨l, node, found, there⟩ := find?_of_pathExists (pathExists_of_not_missing member known)
  have reached : s.reach? (cwd.join root).segments = some l := by
    rw [Snapshot.reach?, show s.follow _ _ _ = _ from found]
    rfl
  have pace := Snapshot.keepsPace_iff reached
  refine ⟨pace, fun retraces => ⟨l, node, found, ?_, there⟩⟩
  have whole := pace.mpr retraces (cwd.join root).segments.length (Nat.le_refl _)
  rw [List.take_length, ← Path.locationIn_eq, reached] at whole
  rw [Path.resolve, s.locate_ofLocation cwd (cwd.locationIn_proper root)]
  exact Snapshot.follow_eq_ok.mpr (Snapshot.reach?_eq_some.mp whole.symm)

/-- A file `/o/b.py`, directories `/o/s` and `/w/p`, and a link from `/w/l` to `/o/s`. -/
def linkedTree : Snapshot where
  entries := [
    (Utf8.encode ['o'], .directory [
      (Utf8.encode ['b', '.', 'p', 'y'], .file []),
      (Utf8.encode ['s'], .directory [])]),
    (Utf8.encode ['w'], .directory [
      (Utf8.encode ['l'], .link (.ofText ['.', '.', '/', 'o', '/', 's'])),
      (Utf8.encode ['p'], .directory [])])]
  ordered := by
    simp only [Node.WellOrderedEntries, Node.WellOrdered]
    decide

theorem root_taken_where_found_linkedTree :
    let cwd : Path := .ofText ['/', 'w']
    let root : Path := .ofText ['p', '/', '.', '.', '/', 'l']
    linkedTree.Retraces (cwd.join root).segments ∧
      ∃ l node, linkedTree.locate cwd root = .ok l ∧
        linkedTree.locate cwd (cwd.resolve root) = .ok l ∧ linkedTree.nodeAt? l = some node := by
  have retraces : linkedTree.Retraces
      ((Path.ofText ['/', 'w']).join (.ofText ['p', '/', '.', '.', '/', 'l'])).segments := by decide
  obtain ⟨found, collected, same⟩ := root_taken_where_found { exclusions := {} } linkedTree
    (.ofText ['/', 'w']) [.ofText ['p', '/', '.', '.', '/', 'l']] rfl
  have none : found = {} := Except.ok.inj (collected.symm.trans rfl)
  exact ⟨retraces, (same _ List.mem_cons_self (by simp [none])).2 retraces⟩

/-- A `..` after a link: the root `l/../b.py` is the file `/o/b.py`, it is not reported missing,
and nothing is collected for it, because its folded path `/w/b.py` leads nowhere. -/
theorem root_behind_link_lost :
    let cwd : Path := .ofText ['/', 'w']
    let root : Path := .ofText ['l', '/', '.', '.', '/', 'b', '.', 'p', 'y']
    collect { exclusions := {} } linkedTree cwd [root] = .ok { files := [], missing := [] } ∧
      linkedTree.pathExists cwd root = true ∧
      linkedTree.locate cwd root = .ok [Utf8.encode ['o'], Utf8.encode ['b', '.', 'p', 'y']] ∧
      linkedTree.locate cwd (cwd.resolve root) = .error .missing :=
  ⟨rfl, rfl, rfl, rfl⟩

end LineGauge
