import Mathlib.Data.List.Basic
import LineGauge.Proofs.Strict

/-! What a check asks of the contents of files. Without ignore rules the files are collected as if
every file were empty, and each file is then measured by its own content alone. So a change to one
file shows in the problems of the paths that lead to it and nowhere else. -/
namespace LineGauge

namespace Node

mutual

/-- The tree with every file empty. -/
def emptied : Node → Node
  | .file _ => .file []
  | .link target => .link target
  | .directory es => .directory (emptiedAmong es)

def emptiedAmong : List (Name × Node) → List (Name × Node)
  | [] => []
  | (name, node) :: rest => (name, node.emptied) :: emptiedAmong rest

end

theorem emptiedAmong_eq_map (es : Entries) :
    emptiedAmong es = es.map fun e => (e.1, e.2.emptied) := by
  induction es with
  | nil => rfl
  | cons e rest ih => rw [emptiedAmong, ih, List.map_cons]

theorem lookup_emptiedAmong (es : Entries) (name : Name) :
    (emptiedAmong es).lookup name = (es.lookup name).map emptied := by
  induction es with
  | nil => rfl
  | cons e rest ih =>
    rw [emptiedAmong, List.lookup_cons, List.lookup_cons]
    split
    · rfl
    · exact ih

theorem at?_emptied (node : Node) (l : Location) :
    node.emptied.at? l = (node.at? l).map emptied := by
  induction l generalizing node with
  | nil => simp
  | cons name names ih =>
    cases node with
    | file content => rfl
    | link target => rfl
    | directory es =>
      simp only [emptied, at?_directory_cons, lookup_emptiedAmong]
      cases es.lookup name with
      | none => rfl
      | some child => exact ih child

theorem wellOrderedEntries_emptied {es : Entries} (ordered : WellOrderedEntries es) :
    WellOrderedEntries (emptiedAmong es) := by
  induction es using entries_induction (P := fun node => node.WellOrdered →
      node.emptied.WellOrdered) with
  | file content => trivial
  | link target => trivial
  | directory es ih inner =>
    rw [emptied]
    exact ih inner
  | nil => trivial
  | cons name node rest hnode hrest =>
    obtain ⟨proper, above, inner, others⟩ := ordered
    refine ⟨proper, ?_, hnode inner, hrest others⟩
    intro e he
    rw [emptiedAmong_eq_map] at he
    obtain ⟨original, member, rfl⟩ := List.mem_map.mp he
    exact above original member

theorem directoriesAmong_emptied (es : Entries) :
    directoriesAmong (emptiedAmong es) = directoriesAmong es := by
  induction es using entries_induction (P := fun node =>
      node.emptied.directories = node.directories) with
  | file content => rfl
  | link target => rfl
  | directory es ih => rw [emptied, directories, directories, ih]
  | nil => rfl
  | cons name node rest hnode hrest =>
    rw [emptiedAmong, directoriesAmong, directoriesAmong, hnode, hrest]

/-- The trees are the same, up to the content of the file at a location of both. -/
inductive SameBut : Location → Node → Node → Prop where
  | file (a b : Bytes) : SameBut [] (.file a) (.file b)
  | directory {l : Location} {x y : Node} (before : Entries) (name : Name) (after : Entries)
      (inner : SameBut l x y) :
      SameBut (name :: l) (.directory (before ++ (name, x) :: after))
        (.directory (before ++ (name, y) :: after))

theorem SameBut.symm {l : Location} {x y : Node} (same : SameBut l x y) : SameBut l y x := by
  induction same with
  | file a b => exact .file b a
  | directory before name after inner ih => exact .directory before name after ih

theorem SameBut.emptied {l : Location} {x y : Node} (same : SameBut l x y) :
    x.emptied = y.emptied := by
  induction same with
  | file a b => rfl
  | directory before name after inner ih =>
    simp only [Node.emptied, emptiedAmong_eq_map, List.map_append, List.map_cons, ih]

theorem SameBut.at? {l m : Location} {x y : Node} (same : SameBut l x y) (elsewhere : m ≠ l)
    {content : Bytes} (found : x.at? m = some (.file content)) :
    y.at? m = some (.file content) := by
  induction same generalizing m with
  | file a b =>
    cases m with
    | nil => contradiction
    | cons name names => simp [Node.at?] at found
  | @directory l x y before name after inner ih =>
    cases m with
    | nil => simp at found
    | cons other names =>
      simp only [at?_directory_cons, List.lookup_append, List.lookup_cons] at found ⊢
      -- A look-up stops at the first entry of its name, so one before the changed entry decides.
      cases first : before.lookup other with
      | some node => simpa [first] using found
      | none =>
        by_cases here : other = name
        · subst here
          have below : names ≠ l := fun h => elsewhere (by rw [h])
          simp only [first, beq_self_eq_true, Option.none_or, Option.bind_some] at found ⊢
          exact ih below found
        · have differs : (other == name) = false := by simpa using here
          simpa [first, differs] using found

end Node

namespace Snapshot

/-- The snapshot with every file empty. -/
def emptied (s : Snapshot) : Snapshot where
  entries := Node.emptiedAmong s.entries
  ordered := Node.wellOrderedEntries_emptied s.ordered

theorem nodeAt?_emptied (s : Snapshot) (l : Location) :
    s.emptied.nodeAt? l = (s.nodeAt? l).map Node.emptied :=
  s.root.at?_emptied l

theorem followWith_emptied (s : Snapshot)
    (onLink : Location → List Name → Except AccessFault Location) (here : Location)
    (ss : List Name) : s.emptied.followWith onLink here ss = s.followWith onLink here ss := by
  induction ss generalizing here with
  | nil => rfl
  | cons segment rest ih =>
    simp only [followWith, nodeAt?_emptied, ih]
    split
    · rfl
    · rename_i name reads
      cases s.nodeAt? (here ++ [name]) with
      | none => rfl
      | some node => cases node <;> rfl
    · rfl

theorem follow_emptied (s : Snapshot) (limit : Nat) : s.emptied.follow limit = s.follow limit := by
  induction limit with
  | zero =>
    funext here ss
    exact s.followWith_emptied _ here ss
  | succ limit ih =>
    funext here ss
    rw [follow, follow, ih]
    exact s.followWith_emptied _ here ss

@[simp] theorem locate_emptied (s : Snapshot) (cwd p : Path) :
    s.emptied.locate cwd p = s.locate cwd p := by
  rw [locate, locate, follow_emptied]

theorem find?_emptied (s : Snapshot) (cwd p : Path) :
    s.emptied.find? cwd p = (s.find? cwd p).map Node.emptied := by
  rw [find?, find?, locate_emptied]
  cases s.locate cwd p with
  | error fault => rfl
  | ok l => exact s.nodeAt?_emptied l

theorem isFile_emptied (s : Snapshot) (cwd p : Path) :
    s.emptied.isFile cwd p = s.isFile cwd p := by
  rw [isFile, isFile, find?_emptied]
  cases s.find? cwd p with
  | none => rfl
  | some node => cases node <;> rfl

theorem pathExists_emptied (s : Snapshot) (cwd p : Path) :
    s.emptied.pathExists cwd p = s.pathExists cwd p := by
  rw [pathExists, pathExists, find?_emptied, Option.isSome_map]

end Snapshot

/-- What is behind a link, with every file empty. -/
def LinkEnd.emptied : LinkEnd → LinkEnd
  | .directory real es => .directory real (Node.emptiedAmong es)
  | other => other

section
variable (c : Config) (s : Snapshot)

theorem linkEnd_emptied (v : Visit) (name : Name) :
    v.linkEnd c s.emptied name = (v.linkEnd c s name).emptied := by
  unfold Visit.linkEnd
  split
  · rfl
  · rw [s.locate_emptied]
    cases s.locate Visit.rootPath (v.pathOf name) with
    | error fault => rfl
    | ok real =>
      simp only [s.nodeAt?_emptied]
      rcases s.nodeAt? real with _ | content | target | es
      · rfl
      · rfl
      · rfl
      · simp only [Option.map_some, Node.emptied]
        split <;> rfl

variable (unruled : c.walk.respectIgnoreFiles = false)
include unruled

theorem enter_emptied (v : Visit) (name : Name) (real : Location) :
    v.enter c s.emptied name real = v.enter c s name real := by
  simp only [Visit.enter, Visit.rulesAt_unruled _ unruled]

theorem walkEntries_emptied {onLinked onEmptied : Visit → Entries → List Path}
    (linked : ∀ v es, onEmptied v (Node.emptiedAmong es) = onLinked v es) (v : Visit)
    (es : Entries) :
    walkEntries c s.emptied onEmptied v (Node.emptiedAmong es) = walkEntries c s onLinked v es := by
  induction es using Node.entries_induction (P := fun node => ∀ (v : Visit) name,
      walkNode c s.emptied onEmptied v name node.emptied =
        walkNode c s onLinked v name node) generalizing v with
  | file content v name => rfl
  | directory es ih v name => simp only [Node.emptied, walkNode, enter_emptied c s unruled, ih]
  | link target v name =>
    simp only [Node.emptied, walkNode_link, linkEnd_emptied]
    cases v.linkEnd c s name with
    | nothing => rfl
    | file => rfl
    | directory real es => simp only [LinkEnd.emptied, enter_emptied c s unruled, linked]
  | nil => rfl
  | cons name node rest hnode hrest =>
    rw [Node.emptiedAmong, walkEntries, walkEntries, hnode, hrest]

theorem walkThrough_emptied (links : Nat) (v : Visit) (es : Entries) :
    walkThrough c s.emptied links v (Node.emptiedAmong es) = walkThrough c s links v es := by
  induction links generalizing v es with
  | zero => exact walkEntries_emptied c s unruled (fun _ _ => rfl) v es
  | succ links ih => exact walkEntries_emptied c s unruled ih v es

theorem walk_emptied (root : Location) : walk c s.emptied root = walk c s root := by
  have count : s.emptied.root.directories = s.root.directories :=
    congrArg (· + 1) (Node.directoriesAmong_emptied s.entries)
  rw [walk, walk, s.locate_emptied]
  cases s.locate Visit.rootPath (.ofLocation root) with
  | error fault => rfl
  | ok real =>
    simp only [s.nodeAt?_emptied]
    rcases s.nodeAt? real with _ | content | target | es
    · rfl
    · rfl
    · rfl
    · simp only [Option.map_some, Node.emptied, Visit.start, Visit.rulesAt_unruled _ unruled, count,
        walkThrough_emptied c s unruled]

theorem collectAll_emptied (cwd : Path) (roots : List Path) :
    collectAll c s.emptied cwd roots = collectAll c s cwd roots := by
  have finding (root : Path) : findRoot c s.emptied cwd root = findRoot c s cwd root := by
    simp only [findRoot, s.pathExists_emptied, s.isFile_emptied, walk_emptied c s unruled]
  simp only [collectAll_eq, finding, s.pathExists_emptied]

end

namespace Snapshot

/-- The snapshots are the same, up to the content of the file at a location of both. -/
def SameBut (file : Location) (s t : Snapshot) : Prop := Node.SameBut file s.root t.root

/-- Whether a path leads to a location, as it is spelled or through links. -/
def leadsTo (s : Snapshot) (cwd : Path) (l : Location) (p : Path) : Bool :=
  match s.locate cwd p with
  | .ok there => there == l
  | .error _ => false

section
variable {file : Location} {s t : Snapshot} (same : SameBut file s t)
include same

theorem SameBut.emptied : s.emptied = t.emptied := by
  have entries := Node.directory.inj (Node.SameBut.emptied same)
  simp only [Snapshot.emptied, entries]

theorem SameBut.locate (cwd p : Path) : s.locate cwd p = t.locate cwd p := by
  rw [← s.locate_emptied, ← t.locate_emptied, SameBut.emptied same]

theorem SameBut.leadsTo (cwd : Path) (l : Location) (p : Path) :
    s.leadsTo cwd l p = t.leadsTo cwd l p := by
  rw [Snapshot.leadsTo, Snapshot.leadsTo, SameBut.locate same]

theorem SameBut.read {cwd p : Path} (elsewhere : s.leadsTo cwd file p = false) {content : Bytes}
    (found : s.read cwd p = .ok content) : t.read cwd p = .ok content := by
  rw [Snapshot.leadsTo] at elsewhere
  rw [Snapshot.read] at found ⊢
  rw [← SameBut.locate same]
  cases there : s.locate cwd p with
  | error fault => simp [there] at found
  | ok l =>
    simp only [there, beq_eq_false_iff_ne] at elsewhere found ⊢
    split at found
    · rename_i bytes held
      cases found
      have kept : t.nodeAt? l = some (.file content) := Node.SameBut.at? same elsewhere held
      rw [kept]
    · cases found
    · cases found

theorem SameBut.textAt? {cwd p : Path} (elsewhere : s.leadsTo cwd file p = false) :
    s.textAt? cwd p = t.textAt? cwd p := by
  have back : t.leadsTo cwd file p = false := SameBut.leadsTo same cwd file p ▸ elsewhere
  -- Two failed reads may differ in their fault; the text is missing after either.
  have contents : (s.read cwd p).toOption = (t.read cwd p).toOption := by
    cases here : s.read cwd p with
    | ok content => rw [SameBut.read same elsewhere here]
    | error fault =>
      cases there : t.read cwd p with
      | error other => rfl
      | ok content =>
        rw [SameBut.read (Node.SameBut.symm same) back there] at here
        cases here
  rw [Snapshot.textAt?, Snapshot.textAt?, contents]

end

end Snapshot

theorem problems_elsewhere (c : Config) {s t : Snapshot} {file : Location}
    (same : s.SameBut file t) (cwd : Path) (files : List Path) :
    (files.flatMap (problemsOf c s cwd)).filter (fun p => !s.leadsTo cwd file p.path) =
      (files.flatMap (problemsOf c t cwd)).filter (fun p => !t.leadsTo cwd file p.path) := by
  have tests : (fun p => !s.leadsTo cwd file p) = fun p => !t.leadsTo cwd file p :=
    funext fun p => congrArg not (same.leadsTo cwd file p)
  rw [← problems_filter c s cwd (fun p => !s.leadsTo cwd file p),
    ← problems_filter c t cwd (fun p => !t.leadsTo cwd file p), ← tests]
  apply List.flatMap_congr
  intro p member
  have elsewhere : s.leadsTo cwd file p = false := by simpa using (List.mem_filter.mp member).2
  rw [problemsOf_eq, problemsOf_eq, same.textAt? elsewhere]

/-- A change to the content of one file shows in that file's problems only. Two checks before and
after it measure equally many files, miss the same roots, and report the same problems in the same
order once those are dropped whose path leads to the file, by its own location or through links;
which paths these are is the same before and after. With markers that cannot be used there is no
report before or after. -/
theorem content_stays_with_file (c : Config) (s t : Snapshot) (cwd : Path) (roots : List Path)
    (file : Location) (same : s.SameBut file t) (lenient : c.strict = false)
    (unruled : c.walk.respectIgnoreFiles = false) :
    (c.markers.isUsable = true → ∃ before after,
      check c s cwd roots = .ok before ∧ check c t cwd roots = .ok after ∧
      before.filesChecked = after.filesChecked ∧ before.missing = after.missing ∧
      (∀ p, s.leadsTo cwd file p = t.leadsTo cwd file p) ∧
      before.problems.filter (fun p => !s.leadsTo cwd file p.path) =
        after.problems.filter (fun p => !t.leadsTo cwd file p.path)) ∧
    (c.markers.isUsable = false → check c s cwd roots = .error .unusableMarkers ∧
      check c t cwd roots = .error .unusableMarkers) := by
  have collected : collectAll c s cwd roots = collectAll c t cwd roots := by
    rw [← collectAll_emptied c s unruled, ← collectAll_emptied c t unruled, same.emptied]
  constructor
  · intro usable
    refine ⟨_, _, check_lenient c s cwd roots lenient usable,
      check_lenient c t cwd roots lenient usable, ?_, ?_, same.leadsTo cwd file, ?_⟩
    · rw [collected]
      rfl
    · rw [collected]
      rfl
    · rw [← collected]
      exact problems_elsewhere c same cwd (collectAll c s cwd roots).files
  · intro unusable
    exact ⟨check_unusable c s cwd roots unusable, check_unusable c t cwd roots unusable⟩

/-- A directory `/w` with the files `/w/a.py` and `/w/b.py`, the first with the given content and
the second with a line of three characters, and a link `/w/l.py` to the first. -/
def sharedTree (content : Bytes) : Snapshot where
  entries := [(Utf8.encode ['w'], .directory [
    (Utf8.encode ['a', '.', 'p', 'y'], .file content),
    (Utf8.encode ['b', '.', 'p', 'y'], .file (Utf8.encode ['x', '=', '1'])),
    (Utf8.encode ['l', '.', 'p', 'y'], .link (.ofText ['a', '.', 'p', 'y']))])]
  ordered := by
    simp only [Node.WellOrderedEntries, Node.WellOrdered]
    decide

theorem content_stays_with_file_sharedTree :
    let cwd : Path := .ofText ['/', 'w']
    let file : Location := [Utf8.encode ['w'], Utf8.encode ['a', '.', 'p', 'y']]
    let roots : List Path := [.ofText ['.'], .ofText ['x'], .ofText ['b', '.', 'p', 'y']]
    let c : Config :=
      { exclusions := {}, limits := { code := 2, docs := 3 }, walk := { followLinks := true } }
    let s := sharedTree (Utf8.encode ['y', '=', '1', '\n', '"', '"', '"', 'z'])
    let t := sharedTree [0xFF]
    s.SameBut file t ∧ ∃ before after,
      check c s cwd roots = .ok before ∧ check c t cwd roots = .ok after ∧
      before.problems.length = 6 ∧ after.problems.length = 2 ∧
      before.filesChecked = after.filesChecked ∧ before.missing = after.missing ∧
      before.problems.filter (fun p => !s.leadsTo cwd file p.path) =
        after.problems.filter (fun p => !t.leadsTo cwd file p.path) := by
  intro cwd file roots c s t
  have same : s.SameBut file t := .directory [] _ [] (.directory [] _ _ (.file _ _))
  obtain ⟨before, after, first, second, files, missing, _, problems⟩ :=
    (content_stays_with_file c s t cwd roots file same rfl rfl).1 rfl
  have report := Except.ok.inj (first.symm.trans (check_lenient c s cwd roots rfl rfl))
  have changed := Except.ok.inj (second.symm.trans (check_lenient c t cwd roots rfl rfl))
  refine ⟨same, before, after, first, second, ?_, ?_, files, missing, problems⟩
  · rw [report]
    decide
  · rw [changed]
    decide

end LineGauge
