import LineGauge.Tree.Basic

/-! The files of a tree as one list of locations, depth first. In a well ordered tree these are
exactly the locations that hold a file. -/
namespace LineGauge

namespace Node

/- Entries are nested in nodes, so every induction runs over both at once. -/
mutual

theorem node_induction {P : Node → Prop} {Q : Entries → Prop}
    (file : ∀ content, P (.file content)) (link : ∀ target, P (.link target))
    (directory : ∀ es, Q es → P (.directory es)) (nil : Q [])
    (cons : ∀ name node rest, P node → Q rest → Q ((name, node) :: rest)) :
    ∀ node, P node
  | .file content => file content
  | .link target => link target
  | .directory es => directory es (entries_induction file link directory nil cons es)

theorem entries_induction {P : Node → Prop} {Q : Entries → Prop}
    (file : ∀ content, P (.file content)) (link : ∀ target, P (.link target))
    (directory : ∀ es, Q es → P (.directory es)) (nil : Q [])
    (cons : ∀ name node rest, P node → Q rest → Q ((name, node) :: rest)) :
    ∀ es : List (Name × Node), Q es
  | [] => nil
  | (name, node) :: rest =>
    cons name node rest (node_induction file link directory nil cons node)
      (entries_induction file link directory nil cons rest)

end

mutual

/-- Where the files of a tree are, counted from it. Links are no files. -/
def files : Node → List Location
  | .file _ => [[]]
  | .link _ => []
  | .directory es => filesAmong es

def filesAmong : List (Name × Node) → List Location
  | [] => []
  | (name, node) :: rest => node.files.map (name :: ·) ++ filesAmong rest

end

@[simp] theorem at?_nil (node : Node) : node.at? [] = some node := by
  cases node <;> rfl

@[simp] theorem at?_directory_cons (es : Entries) (name : Name) (names : Location) :
    (directory es).at? (name :: names) = (es.lookup name).bind (·.at? names) := by
  rw [at?]
  cases es.lookup name <;> rfl

theorem at?_append (node : Node) (l m : Location) :
    node.at? (l ++ m) = (node.at? l).bind (·.at? m) := by
  induction l generalizing node with
  | nil => simp
  | cons name names ih =>
    cases node with
    | file content => rfl
    | link target => rfl
    | directory es =>
      simp only [List.cons_append, at?_directory_cons, Option.bind_assoc]
      exact congrArg (Option.bind (es.lookup name)) (funext fun child => ih child)

theorem lookup_wellOrdered {es : Entries} (ordered : WellOrderedEntries es) {name : Name}
    {node : Node} (found : es.lookup name = some node) :
    name.isProper = true ∧ node.WellOrdered ∧ ∃ e ∈ es, e.1 = name := by
  induction es with
  | nil => simp at found
  | cons e rest ih =>
    obtain ⟨n, child⟩ := e
    obtain ⟨proper, _, inner, others⟩ := ordered
    rw [List.lookup_cons] at found
    split at found
    · rename_i same
      cases Option.some.inj found
      have key : name = n := by simpa using same
      exact ⟨key ▸ proper, inner, _, List.mem_cons_self, key.symm⟩
    · obtain ⟨hp, hw, e, he, key⟩ := ih others found
      exact ⟨hp, hw, e, List.mem_cons_of_mem _ he, key⟩

theorem wellOrderedEntries_proper {es : Entries} (ordered : WellOrderedEntries es) :
    ∀ e ∈ es, e.1.isProper = true := by
  induction es with
  | nil => simp
  | cons e rest ih =>
    obtain ⟨name, node⟩ := e
    obtain ⟨proper, _, _, others⟩ := ordered
    exact List.forall_mem_cons.mpr ⟨proper, ih others⟩

theorem at?_wellOrdered {node : Node} (ordered : node.WellOrdered) {l : Location} {found : Node}
    (h : node.at? l = some found) : found.WellOrdered ∧ ∀ n ∈ l, n.isProper = true := by
  induction l generalizing node with
  | nil =>
    rw [at?_nil] at h
    cases Option.some.inj h
    exact ⟨ordered, by simp⟩
  | cons name names ih =>
    cases node with
    | file content => simp [at?] at h
    | link target => simp [at?] at h
    | directory es =>
      simp only [at?_directory_cons, Option.bind_eq_some_iff] at h
      obtain ⟨child, hc, hl⟩ := h
      obtain ⟨proper, inner, _⟩ := lookup_wellOrdered ordered hc
      obtain ⟨hw, hp⟩ := ih inner hl
      exact ⟨hw, List.forall_mem_cons.mpr ⟨proper, hp⟩⟩

theorem filesAmong_key (es : Entries) :
    ∀ l ∈ filesAmong es, ∃ e ∈ es, ∃ names, l = e.1 :: names := by
  induction es with
  | nil => simp [filesAmong]
  | cons e rest ih =>
    obtain ⟨name, node⟩ := e
    intro l hl
    rcases List.mem_append.mp hl with first | later
    · obtain ⟨names, _, rfl⟩ := List.mem_map.mp first
      exact ⟨(name, node), List.mem_cons_self, names, rfl⟩
    · obtain ⟨e, he, names, hn⟩ := ih l later
      exact ⟨e, List.mem_cons_of_mem _ he, names, hn⟩

theorem mem_files {node : Node} (ordered : node.WellOrdered) (l : Location) :
    l ∈ node.files ↔ ∃ content, node.at? l = some (.file content) := by
  revert ordered l
  apply node_induction (P := fun node => node.WellOrdered → ∀ l,
      l ∈ node.files ↔ ∃ content, node.at? l = some (.file content))
    (Q := fun es => WellOrderedEntries es → ∀ l,
      l ∈ filesAmong es ↔ ∃ content, (directory es).at? l = some (.file content))
  case file =>
    intro content _ l
    cases l <;> simp [files, at?]
  case link =>
    intro target _ l
    cases l <;> simp [files, at?]
  case directory => exact fun es h => h
  case nil =>
    intro _ l
    cases l <;> simp [filesAmong]
  case cons =>
    rintro name node rest hnode hrest ⟨_, above, inner, others⟩ l
    cases l with
    | nil =>
      have none : [] ∉ filesAmong rest := by
        intro h
        obtain ⟨_, _, names, he⟩ := filesAmong_key rest [] h
        cases he
      simp [filesAmong, none]
    | cons n names =>
      by_cases same : n = name
      · subst same
        -- Below the first name stands only its own node: the other names are greater.
        have only : n :: names ∉ filesAmong rest := by
          intro h
          obtain ⟨e, he, _, hk⟩ := filesAmong_key rest _ h
          have less := above e he
          rw [← (List.cons.inj hk).1] at less
          exact List.lt_irrefl n less
        simp [filesAmong, only, hnode inner]
      · have other : (n == name) = false := by simpa using same
        have later := hrest others (n :: names)
        simp only [at?_directory_cons] at later
        simp only [filesAmong, List.mem_append, later, at?_directory_cons, List.lookup_cons, other]
        simp [Ne.symm same]

end Node

namespace Snapshot

theorem nodeAt?_append (s : Snapshot) (l m : Location) :
    s.nodeAt? (l ++ m) = (s.nodeAt? l).bind (·.at? m) :=
  s.root.at?_append l m

theorem nodeAt?_below {s : Snapshot} {l : Location} {node : Node} (found : s.nodeAt? l = some node)
    (names : Location) : s.nodeAt? (l ++ names) = node.at? names := by
  rw [nodeAt?_append, found, Option.bind_some]

theorem nodeAt?_wellOrdered {s : Snapshot} {l : Location} {node : Node}
    (found : s.nodeAt? l = some node) : node.WellOrdered := by
  have ordered : s.root.WellOrdered := s.ordered
  exact (Node.at?_wellOrdered ordered found).1

theorem nodeAt?_proper {s : Snapshot} {l : Location} {node : Node}
    (found : s.nodeAt? l = some node) : ∀ n ∈ l, n.isProper = true := by
  have ordered : s.root.WellOrdered := s.ordered
  exact (Node.at?_wellOrdered ordered found).2

end Snapshot

end LineGauge
