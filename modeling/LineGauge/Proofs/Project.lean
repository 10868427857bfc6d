import LineGauge.Proofs.Roots

/-! A project: a tree without links, seen as a file system of its own. Where a snapshot holds it at
some location, names that follow that location lead to what they lead to from the root of the
project. What lies above the project, links included, decides nothing. -/
namespace LineGauge

namespace Node

mutual

/-- There is no link in the tree. -/
def linkless : Node → Bool
  | .file _ => true
  | .link _ => false
  | .directory es => linklessAmong es

def linklessAmong : List (Name × Node) → Bool
  | [] => true
  | (_, node) :: rest => node.linkless && linklessAmong rest

end

theorem lookup_linkless {es : Entries} (linkless : linklessAmong es = true) {name : Name}
    {node : Node} (found : es.lookup name = some node) : node.linkless = true := by
  induction es with
  | nil => simp at found
  | cons e rest ih =>
    rw [linklessAmong, Bool.and_eq_true] at linkless
    rw [List.lookup_cons] at found
    split at found
    · cases found
      exact linkless.1
    · exact ih linkless.2 found

theorem at?_linkless {node : Node} (linkless : node.linkless = true) {l : Location} {found : Node}
    (h : node.at? l = some found) : found.linkless = true := by
  induction l generalizing node with
  | nil =>
    rw [at?_nil] at h
    cases h
    exact linkless
  | cons name names ih =>
    cases node with
    | file content => simp [at?] at h
    | link target => simp [at?] at h
    | directory es =>
      simp only [at?_directory_cons, Option.bind_eq_some_iff] at h
      obtain ⟨child, hc, hl⟩ := h
      exact ih (lookup_linkless linkless hc) hl

/-- The content, if the node is a file. -/
def content? : Node → Option Bytes
  | .file content => some content
  | _ => none

end Node

namespace Path

/-- A relative path without `..`. -/
def isPlain (p : Path) : Bool := !p.isAbsolute && !p.components.contains .up

theorem isPlain_relative {p : Path} (plain : p.isPlain = true) : p.isAbsolute = false := by
  rw [isPlain, Bool.and_eq_true, Bool.not_eq_true'] at plain
  exact plain.1

theorem isPlain_segments {p : Path} (plain : p.isPlain = true) :
    ∀ segment ∈ p.segments, segment ≠ [dot, dot] := by
  rintro _ member rfl
  have listed : Component.up ∈ p.components := by
    rw [components_eq]
    exact List.mem_append_right _ (List.mem_filterMap.mpr ⟨_, member, rfl⟩)
  simp [isPlain, listed] at plain

theorem proper_plain {l : Location} (proper : ∀ n ∈ l, n.isProper = true) :
    ∀ n ∈ l, n ≠ [dot, dot] :=
  fun n hn => ((isProper_iff n).mp (proper n hn)).2.1

theorem getLast?_ofLocation {l : Location} (proper : ∀ n ∈ l, n.isProper = true) (more : l ≠ []) :
    (ofLocation l).bytes.getLast? ≠ some slash := by
  obtain ⟨init, n, rfl⟩ : ∃ init n, l = init ++ [n] :=
    ⟨_, _, (List.dropLast_concat_getLast more).symm⟩
  have spelled : (ofLocation (init ++ [n])).bytes = init.flatMap (slash :: ·) ++ slash :: n := by
    cases init <;> simp [ofLocation]
  obtain ⟨silent, _, inside⟩ := (isProper_iff n).mp (proper n (by simp))
  have named : n ≠ [] := by
    rintro rfl
    simp [isSilent] at silent
  rw [spelled, List.getLast?_append, List.getLast?_cons, List.getLast?_eq_some_getLast named]
  simpa using inside _ (List.getLast_mem named)

theorem segments_join {l : Location} (proper : ∀ n ∈ l, n.isProper = true) {p : Path}
    (relative : p.isAbsolute = false) :
    ((ofLocation l).join p).segments = [] :: (l ++ p.segments) := by
  by_cases empty : l = []
  · subst empty
    have spelled : ((ofLocation []).join p).bytes = [] ++ slash :: p.bytes := by
      simp [join, relative, ofLocation]
    rw [segments, spelled, pieces_slash]
    rfl
  · have last := getLast?_ofLocation proper empty
    have spells : (ofLocation l).bytes ≠ [] := by
      obtain ⟨n, ns, rfl⟩ := List.exists_cons_of_ne_nil empty
      exact List.cons_ne_nil _ _
    have spelled : ((ofLocation l).join p).bytes = (ofLocation l).bytes ++ slash :: p.bytes := by
      simp [join, relative, spells, last]
    have first := segments_proper proper empty
    rw [segments] at first
    rw [segments, spelled, pieces_slash, first]
    rfl

theorem fold_plain {ss : List Name} (plain : ∀ segment ∈ ss, segment ≠ [dot, dot])
    (l : Location) : (ss.filterMap component?).foldl walkTo l = l ++ foldSegments ss := by
  induction ss generalizing l with
  | nil => simp [foldSegments]
  | cons segment rest ih =>
    obtain ⟨ordinary, others⟩ := List.forall_mem_cons.mp plain
    rcases component?_cases segment with reads | reads | reads
    · simpa [foldSegments, reads] using ih others l
    · exact absurd (component?_eq_up.mp reads) ordinary
    · rw [foldSegments, List.filterMap_cons_some reads, List.foldl_cons, List.foldl_cons, ih others,
        ih others]
      simp [walkTo]

/-- A plain path leads on from the working directory, whatever that is. -/
theorem locationIn_plain {l : Location} (proper : ∀ n ∈ l, n.isProper = true) {p : Path}
    (plain : p.isPlain = true) : (ofLocation l).locationIn p = l ++ foldSegments p.segments := by
  have names : (l.filterMap component?).foldl walkTo [] = l := by
    rw [filterMap_component?_proper proper]
    exact fold_names l []
  have silent : component? [] = none := rfl
  rw [locationIn_eq, segments_join proper (isPlain_relative plain), foldSegments,
    List.filterMap_cons_none silent, List.filterMap_append, List.foldl_append, names]
  exact fold_plain (isPlain_segments plain) l

end Path

namespace Snapshot

/-- The tree of the project stands at this place, which may be reached through links. -/
structure Holds (s : Snapshot) (place real : Location) (project : Snapshot) : Prop where
  proper : ∀ n ∈ place, n.isProper = true
  leads : s.locate Visit.rootPath (.ofLocation place) = .ok real
  tree : s.nodeAt? real = some project.root

theorem Holds.reach {s project : Snapshot} {place real : Location}
    (holds : s.Holds place real project) : s.reach? place = some real := by
  rw [reach?, ← s.locate_ofLocation Visit.rootPath holds.proper, holds.leads]
  rfl

section
variable {s project : Snapshot} {real : Location} (tree : s.nodeAt? real = some project.root)
include tree

theorem nodeAt?_project (l : Location) : s.nodeAt? (real ++ l) = project.nodeAt? l :=
  nodeAt?_below tree l

variable (linkless : project.root.linkless = true)
include linkless

theorem followWith_project (onLink onOwn : Location → List Name → Except AccessFault Location)
    {ss : List Name} (plain : ∀ segment ∈ ss, segment ≠ [dot, dot]) (l : Location) :
    s.followWith onLink (real ++ l) ss = (project.followWith onOwn l ss).map (real ++ ·) := by
  induction ss generalizing l with
  | nil => rfl
  | cons segment rest ih =>
    obtain ⟨ordinary, others⟩ := List.forall_mem_cons.mp plain
    rcases Path.component?_cases segment with reads | reads | reads
    · simp only [followWith, reads]
      exact ih others l
    · exact absurd (Path.component?_eq_up.mp reads) ordinary
    · simp only [followWith, reads, List.append_assoc, nodeAt?_project tree]
      split
      · rfl
      · rcases found : project.nodeAt? (l ++ [segment]) with _ | content | target | es
        · rfl
        · simp only
          split <;> rfl
        · have none := Node.at?_linkless linkless found
          cases none
        · simp only
          exact ih others (l ++ [segment])

theorem follow_project (limit own : Nat) {ss : List Name}
    (plain : ∀ segment ∈ ss, segment ≠ [dot, dot]) :
    s.follow limit real ss = (project.follow own [] ss).map (real ++ ·) := by
  have start : real = real ++ [] := (List.append_nil real).symm
  cases limit <;> cases own <;> rw [follow, follow, start] <;>
    simpa using followWith_project tree linkless _ _ plain []

end

section
variable {s project : Snapshot} {place real : Location} (holds : s.Holds place real project)
  (linkless : project.root.linkless = true)
include holds linkless

theorem reach?_project {ss : List Name} (plain : ∀ segment ∈ ss, segment ≠ [dot, dot]) :
    s.reach? (place ++ ss) = (project.reach? ss).map (real ++ ·) := by
  have directory : s.IsDirectory real := ⟨project.entries, holds.tree⟩
  -- No link is met in the project, so any number of links left is enough for it: the limit is
  -- spent on the way to the project alone.
  have below (limit : Nat) := follow_project holds.tree linkless limit linkLimit plain
  have own (there : Location) : (project.reach? ss).map (real ++ ·) = some there ↔
      (project.follow linkLimit [] ss).map (real ++ ·) = .ok there := by
    rw [reach?]
    cases project.follow linkLimit [] ss <;> simp [Except.toOption, Except.map]
  ext there
  rw [own, reach?_eq_some]
  constructor
  · rintro ⟨links, enough, leads⟩
    by_cases ended : ss = []
    · subst ended
      rw [List.append_nil] at leads
      have same := holds.reach.symm.trans (reach?_eq_some.mpr ⟨links, enough, leads⟩)
      cases same
      rw [← below linkLimit]
      rfl
    · obtain ⟨i, j, middle, sum, first, _, second⟩ := leads_split s.isDirectory_root leads ended
      have same := holds.reach.symm.trans (reach?_eq_some.mpr ⟨i, by omega, first⟩)
      cases same
      rw [← below linkLimit]
      exact follow_eq_ok.mpr ⟨j, by omega, second⟩
  · intro found
    rw [← below 0] at found
    obtain ⟨none, few, second⟩ := follow_eq_ok.mp found
    obtain ⟨links, enough, first⟩ := reach?_eq_some.mp holds.reach
    exact ⟨links + none, by omega, leads_append first (fun _ => directory) second⟩

end

theorem reach?_silent (s : Snapshot) (ss : List Name) : s.reach? ([] :: ss) = s.reach? ss := by
  have silent : Path.component? [] = none := rfl
  rw [reach?, reach?, s.follow_silent linkLimit [] ss silent]

theorem find?_eq (s : Snapshot) (cwd p : Path) :
    s.find? cwd p = (s.reach? (cwd.join p).segments).bind s.nodeAt? := by
  rw [find?, locate, reach?]
  cases s.follow linkLimit [] (cwd.join p).segments <;> rfl

theorem find?_ofLocation (s : Snapshot) (cwd : Path) {l : Location}
    (proper : ∀ n ∈ l, n.isProper = true) :
    s.find? cwd (.ofLocation l) = (s.reach? l).bind s.nodeAt? := by
  rw [find?, s.locate_ofLocation cwd proper, reach?]
  cases s.follow linkLimit [] l <;> rfl

section
variable {s project : Snapshot} {place real : Location} (holds : s.Holds place real project)
  (linkless : project.root.linkless = true)
include holds linkless

theorem bind_reach?_project {ss : List Name} (plain : ∀ segment ∈ ss, segment ≠ [dot, dot]) :
    (s.reach? (place ++ ss)).bind s.nodeAt? = (project.reach? ss).bind project.nodeAt? := by
  rw [reach?_project holds linkless plain, Option.bind_map]
  exact congrArg _ (funext (nodeAt?_project holds.tree))

theorem find?_plain {p : Path} (plain : p.isPlain = true) :
    s.find? (.ofLocation place) p = project.find? (.ofLocation []) p := by
  have relative := Path.isPlain_relative plain
  rw [find?_eq, find?_eq, Path.segments_join holds.proper relative,
    Path.segments_join (by simp) relative, reach?_silent, reach?_silent, List.nil_append]
  exact bind_reach?_project holds linkless (Path.isPlain_segments plain)

theorem find?_within (cwd : Path) {l : Location} (proper : ∀ n ∈ l, n.isProper = true) :
    s.find? cwd (.ofLocation (place ++ l)) = project.find? (.ofLocation []) (.ofLocation l) := by
  rw [find?_ofLocation s cwd (List.forall_mem_append.mpr ⟨holds.proper, proper⟩),
    find?_ofLocation project _ proper]
  exact bind_reach?_project holds linkless (Path.proper_plain proper)

theorem pathExists_plain {p : Path} (plain : p.isPlain = true) :
    s.pathExists (.ofLocation place) p = project.pathExists (.ofLocation []) p := by
  rw [pathExists, pathExists, find?_plain holds linkless plain]

end

theorem read_toOption (s : Snapshot) (cwd p : Path) :
    (s.read cwd p).toOption = (s.find? cwd p).bind Node.content? := by
  rw [read, find?]
  cases s.locate cwd p with
  | error fault => rfl
  | ok l =>
    simp only
    rcases s.nodeAt? l with _ | content | target | es <;> rfl

end Snapshot

end LineGauge
