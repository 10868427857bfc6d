import LineGauge.Walk
import LineGauge.Proofs.Exclusion
import LineGauge.Proofs.Tree

/-! What a walk yields. Every path continues the location shown for the directory the walk is in,
and what is true of every file that is met is true of all paths of the walk. Without links and
ignore rules a walk is a selection from the list of all files of the tree: those that are not too
deep and are eligible. Leaving out excluded directories on the way loses nothing, because nothing
below them is eligible. -/
namespace LineGauge

/-- The path continues the location shown for the directory. -/
def Visit.Below (v : Visit) (p : Path) : Prop := ∃ names, p = .ofLocation (v.shown ++ names)

/-- The path is that of an entry of the directory, or continues it. -/
def Visit.BelowEntry (v : Visit) (name : Name) (p : Path) : Prop :=
  ∃ names, p = .ofLocation (v.shown ++ name :: names)

theorem Visit.fileAt_below (c : Config) (v : Visit) (name : Name) :
    ∀ p ∈ v.fileAt c name, v.BelowEntry name p := by
  intro p hp
  unfold fileAt at hp
  split at hp
  · exact ⟨[], List.mem_singleton.mp hp⟩
  · cases hp

theorem Visit.belowEntry_of_enter {c : Config} {s : Snapshot} {v : Visit} {name : Name}
    {real : Location} {p : Path} (h : (v.enter c s name real).Below p) : v.BelowEntry name p := by
  obtain ⟨names, rfl⟩ := h
  exact ⟨names, by simp [enter]⟩

/-- What the walk finds behind a link. A directory that it is in is nothing. -/
inductive LinkEnd where
  | nothing
  | file
  | directory (real : Location) (es : Entries)

def Visit.linkEnd (c : Config) (s : Snapshot) (v : Visit) (name : Name) : LinkEnd :=
  if !c.walk.followLinks then .nothing
  else match s.locate rootPath (v.pathOf name) with
    | .error _ => .nothing
    | .ok real =>
      match s.nodeAt? real with
      | some (.file _) => .file
      | some (.directory es) => if v.opened.contains real then .nothing else .directory real es
      | _ => .nothing

theorem walkNode_link (c : Config) (s : Snapshot) (onLinked : Visit → Entries → List Path)
    (v : Visit) (name : Name) (target : Path) :
    walkNode c s onLinked v name (.link target) =
      match v.linkEnd c s name with
      | .nothing => []
      | .file => v.fileAt c name
      | .directory real es =>
        if v.admits c name true && v.room != some 1 then onLinked (v.enter c s name real) es
        else [] := by
  rw [walkNode, Visit.linkEnd]
  split
  · rfl
  · cases s.locate Visit.rootPath (v.pathOf name) with
    | error fault => rfl
    | ok real =>
      rcases found : s.nodeAt? real with _ | content | other | es
      · simp only [found]
      · simp only [found]
      · simp only [found]
      · simp only [found]
        split <;> rfl

theorem walkEntries_key (c : Config) (s : Snapshot) {onLinked : Visit → Entries → List Path}
    (linked : ∀ v es, ∀ p ∈ onLinked v es, v.Below p) (v : Visit) (es : Entries) :
    ∀ p ∈ walkEntries c s onLinked v es, ∃ e ∈ es, v.BelowEntry e.1 p := by
  induction es using Node.entries_induction (P := fun node => ∀ (v : Visit) name,
      ∀ p ∈ walkNode c s onLinked v name node, v.BelowEntry name p) generalizing v with
  | file content v name p hp => exact v.fileAt_below c name p hp
  | directory es ih v name p hp =>
    rw [walkNode] at hp
    split at hp
    · obtain ⟨e, _, names, hn⟩ := ih _ p hp
      exact Visit.belowEntry_of_enter ⟨e.1 :: names, hn⟩
    · cases hp
  | link target v name p hp =>
    rw [walkNode_link] at hp
    cases ends : v.linkEnd c s name with
    | nothing => simp [ends] at hp
    | file =>
      rw [ends] at hp
      exact v.fileAt_below c name p hp
    | directory real es =>
      rw [ends] at hp
      simp only at hp
      split at hp
      · exact Visit.belowEntry_of_enter (linked _ _ p hp)
      · cases hp
  | nil => simp [walkEntries]
  | cons name node rest hnode hrest =>
    intro p hp
    rw [walkEntries] at hp
    rcases List.mem_append.mp hp with first | later
    · exact ⟨(name, node), List.mem_cons_self, hnode v name p first⟩
    · obtain ⟨e, he, below⟩ := hrest v p later
      exact ⟨e, List.mem_cons_of_mem _ he, below⟩

theorem walkNode_key (c : Config) (s : Snapshot) {onLinked : Visit → Entries → List Path}
    (linked : ∀ v es, ∀ p ∈ onLinked v es, v.Below p) (v : Visit) (name : Name) (node : Node) :
    ∀ p ∈ walkNode c s onLinked v name node, v.BelowEntry name p := by
  intro p hp
  have alone : p ∈ walkEntries c s onLinked v [(name, node)] := by simpa [walkEntries] using hp
  obtain ⟨e, he, below⟩ := walkEntries_key c s linked v [(name, node)] p alone
  cases List.mem_singleton.mp he
  exact below

theorem walkEntries_below (c : Config) (s : Snapshot) {onLinked : Visit → Entries → List Path}
    (linked : ∀ v es, ∀ p ∈ onLinked v es, v.Below p) (v : Visit) (es : Entries) :
    ∀ p ∈ walkEntries c s onLinked v es, v.Below p := by
  intro p hp
  obtain ⟨e, _, names, hn⟩ := walkEntries_key c s linked v es p hp
  exact ⟨e.1 :: names, hn⟩

theorem walkThrough_below (c : Config) (s : Snapshot) (links : Nat) (v : Visit) (es : Entries) :
    ∀ p ∈ walkThrough c s links v es, v.Below p := by
  induction links generalizing v es with
  | zero => exact walkEntries_below c s (by simp) v es
  | succ links ih => exact walkEntries_below c s ih v es

theorem Visit.linkEnd_wellOrdered {c : Config} {s : Snapshot} {v : Visit} {name : Name}
    {real : Location} {es : Entries} (ends : v.linkEnd c s name = .directory real es) :
    Node.WellOrderedEntries es := by
  unfold linkEnd at ends
  split at ends
  · cases ends
  · split at ends
    · cases ends
    · split at ends
      · cases ends
      · rename_i found
        split at ends
        · cases ends
        · cases ends
          exact Snapshot.nodeAt?_wellOrdered found
      · cases ends

theorem walk_cases (c : Config) (s : Snapshot) (root : Location) :
    walk c s root = [] ∨ ∃ real es, s.nodeAt? real = some (.directory es) ∧
      walk c s root = walkThrough c s s.root.directories (.start c s root real) es := by
  unfold walk
  split
  · exact .inl rfl
  · split
    · rename_i found
      split
      · exact .inl rfl
      · exact .inr ⟨_, _, found, rfl⟩
    · exact .inl rfl

section
variable (c : Config) (s : Snapshot) (inv : Visit → Prop) {good : Path → Prop}
  (enter : ∀ v name real, inv v → name.isProper = true → inv (v.enter c s name real))
  (file : ∀ v name, inv v → name.isProper = true → ∀ p ∈ v.fileAt c name, good p)
include enter file

theorem walkEntries_forall {onLinked : Visit → Entries → List Path}
    (linked : ∀ v es, inv v → Node.WellOrderedEntries es → ∀ p ∈ onLinked v es, good p)
    (v : Visit) (es : Entries) (given : inv v) (ordered : Node.WellOrderedEntries es) :
    ∀ p ∈ walkEntries c s onLinked v es, good p := by
  induction es using Node.entries_induction (P := fun node => ∀ (v : Visit) (name : Name),
      inv v → name.isProper = true → node.WellOrdered →
        ∀ p ∈ walkNode c s onLinked v name node, good p) generalizing v with
  | file content v name given proper _ p hp => exact file v name given proper p hp
  | directory es ih v name given proper ordered p hp =>
    rw [walkNode] at hp
    split at hp
    · exact ih _ (enter v name _ given proper) ordered p hp
    · cases hp
  | link target v name given proper _ p hp =>
    rw [walkNode_link] at hp
    cases ends : v.linkEnd c s name with
    | nothing => simp [ends] at hp
    | file => exact file v name given proper p (by simpa only [ends] using hp)
    | directory real es =>
      have ordered := Visit.linkEnd_wellOrdered ends
      simp only [ends] at hp
      split at hp
      · exact linked _ es (enter v name real given proper) ordered p hp
      · cases hp
  | nil => simp [walkEntries]
  | cons name node rest hnode hrest =>
    obtain ⟨proper, _, inner, others⟩ := ordered
    rw [walkEntries]
    exact List.forall_mem_append.mpr ⟨hnode v name given proper inner, hrest v given others⟩

theorem walkThrough_forall (links : Nat) (v : Visit) (es : Entries) (given : inv v)
    (ordered : Node.WellOrderedEntries es) : ∀ p ∈ walkThrough c s links v es, good p := by
  induction links generalizing v es with
  | zero => exact walkEntries_forall c s inv enter file (by simp) v es given ordered
  | succ links ih => exact walkEntries_forall c s inv enter file ih v es given ordered

/-- A property of paths holds of all that a walk yields, if it holds of every file that is met under
an invariant of the visits: it is there at the start, and every step into a directory keeps it. -/
theorem walk_forall {root : Location} (start : ∀ real, inv (.start c s root real)) :
    ∀ p ∈ walk c s root, good p := by
  rcases walk_cases c s root with none | ⟨real, es, found, walked⟩
  · simp [none]
  · rw [walked]
    exact walkThrough_forall c s inv enter file _ _ es (start real)
      (Snapshot.nodeAt?_wellOrdered found)

end

namespace Config

theorem isEligible_below_excluded {c : Config} {l : Location}
    (excluded : c.exclusions.excludes (.ofLocation l) = true) (m : Location) :
    c.isEligible (.ofLocation (l ++ m)) = false := by
  simp [isEligible, Exclusions.excludes_below excluded m]

/-- A walk with this room below the directory shown at a location takes the file at `l`. -/
def selects (c : Config) (room : Option Nat) (shown l : Location) : Bool :=
  room.all (fun depth => decide (l.length ≤ depth)) && c.isEligible (.ofLocation (shown ++ l))

theorem selects_iff {c : Config} {room : Option Nat} {shown l : Location} :
    c.selects room shown l = true ↔ (∀ depth, room = some depth → l.length ≤ depth) ∧
      c.isEligible (.ofLocation (shown ++ l)) = true := by
  simp [selects, Option.all_eq_true]

theorem selects_step (c : Config) {room : Option Nat} (deep : room ≠ some 0) (shown : Location)
    (name : Name) (l : Location) :
    c.selects (room.map (· - 1)) (shown ++ [name]) l = c.selects room shown (name :: l) := by
  cases room with
  | none => simp [selects]
  | some depth =>
    have positive : depth ≠ 0 := fun zero => deep (zero ▸ rfl)
    have lengths : l.length ≤ depth - 1 ↔ l.length + 1 ≤ depth := by omega
    simp [selects, lengths]

theorem selects_last (c : Config) (shown : Location) (name : Name) {l : Location} (h : l ≠ []) :
    c.selects (some 1) shown (name :: l) = false := by
  simp [selects, h]

end Config

theorem Visit.rulesAt_unruled {c : Config} (s : Snapshot)
    (unruled : c.walk.respectIgnoreFiles = false) (shown : Location) : rulesAt c s shown = [] := by
  simp [rulesAt, unruled]

theorem Visit.admits_plain (c : Config) (v : Visit) (rules : v.rules = []) (name : Name)
    (isDirectory : Bool) :
    v.admits c name isDirectory = !c.exclusions.excludes (v.pathOf name) := by
  simp [admits, verdict?, rules]

theorem Visit.fileAt_plain (c : Config) (v : Visit) (rules : v.rules = []) (deep : v.room ≠ some 0)
    (name : Name) :
    v.fileAt c name = if c.selects v.room v.shown [name] then [v.pathOf name] else [] := by
  have room : v.room.all (fun depth => decide (1 ≤ depth)) = true := by
    cases h : v.room with
    | none => rfl
    | some depth =>
      have positive : depth ≠ 0 := fun zero => deep (zero ▸ h)
      simpa using Nat.one_le_iff_ne_zero.mpr positive
  simp only [fileAt, admits_plain c v rules, Config.selects, List.length_singleton, room,
    Bool.true_and, pathOf, Config.isEligible]
  congr 1
  grind

theorem Visit.room_enter (c : Config) (s : Snapshot) {v : Visit} (deep : v.room ≠ some 0)
    (deeper : v.room ≠ some 1) (name : Name) (real : Location) :
    (v.enter c s name real).room ≠ some 0 := by
  simp only [enter]
  cases h : v.room with
  | none => simp
  | some depth =>
    have zero : depth ≠ 0 := fun hz => deep (hz ▸ h)
    have one : depth ≠ 1 := fun ho => deeper (ho ▸ h)
    simp only [Option.map_some, ne_eq, Option.some.injEq]
    omega

/-- The walk below a directory selects from the files of the tree, in their order. -/
theorem walkEntries_plain (c : Config) (s : Snapshot) (onLinked : Visit → Entries → List Path)
    (unfollowed : c.walk.followLinks = false) (unruled : c.walk.respectIgnoreFiles = false)
    (es : Entries) (v : Visit) (rules : v.rules = []) (deep : v.room ≠ some 0) :
    walkEntries c s onLinked v es =
      ((Node.filesAmong es).filter (c.selects v.room v.shown)).map
        (fun l => .ofLocation (v.shown ++ l)) := by
  induction es using Node.entries_induction (P := fun node => ∀ v : Visit, v.rules = [] →
      v.room ≠ some 0 → ∀ name, walkNode c s onLinked v name node =
        (node.files.filter (fun l => c.selects v.room v.shown (name :: l))).map
          (fun l => .ofLocation (v.shown ++ name :: l))) generalizing v with
  | file content v rules deep name =>
    rw [walkNode, v.fileAt_plain c rules deep]
    split <;> simp_all [Node.files, Visit.pathOf]
  | link target => simp [walkNode, unfollowed, Node.files]
  | directory es ih v rules deep name =>
    rw [walkNode, v.admits_plain c rules]
    have inner : (v.enter c s name (v.real ++ [name])).rules = [] := by
      simp [Visit.enter, Visit.rulesAt_unruled s unruled, rules]
    split
    · rename_i taken
      simp only [Bool.and_eq_true, bne_iff_ne] at taken
      have step := funext (Config.selects_step c deep v.shown name)
      rw [ih _ inner (Visit.room_enter c s deep taken.2 name _)]
      simp [Visit.enter, Node.files, step]
    · rename_i refused
      -- The directory is not entered: it is excluded, or its files are too deep.
      symm
      simp only [List.map_eq_nil_iff, List.filter_eq_nil_iff, Node.files]
      intro l hl
      by_cases excluded : c.exclusions.excludes (v.pathOf name) = true
      · have below := Config.isEligible_below_excluded excluded l
        simp_all [Config.selects]
      · have last : v.room = some 1 := by simpa [excluded] using refused
        obtain ⟨e, _, names, rfl⟩ := Node.filesAmong_key es l hl
        simp [last, Config.selects_last]
  | nil => simp [walkEntries, Node.filesAmong]
  | cons name node rest hnode hrest =>
    rw [walkEntries, hnode v rules deep, hrest v rules deep]
    simp [Node.filesAmong, List.filter_map, Function.comp_def]

/-- The walk below a root that leads to a directory, as a selection from the files there. -/
theorem walk_plain (c : Config) (s : Snapshot) (unfollowed : c.walk.followLinks = false)
    (unruled : c.walk.respectIgnoreFiles = false) {root real : Location} {es : Entries}
    (leads : s.locate Visit.rootPath (.ofLocation root) = .ok real)
    (directory : s.nodeAt? real = some (.directory es)) :
    walk c s root = ((Node.filesAmong es).filter (c.selects c.walk.maxDepth root)).map
      (fun l => .ofLocation (root ++ l)) := by
  simp only [walk, leads, directory]
  split
  · rename_i shallow
    symm
    simp only [List.map_eq_nil_iff, List.filter_eq_nil_iff]
    intro l hl
    obtain ⟨e, _, names, rfl⟩ := Node.filesAmong_key es l hl
    simp [Config.selects, eq_of_beq shallow]
  · rename_i room
    have rules : (Visit.start c s root real).rules = [] := by
      simp [Visit.start, Visit.rulesAt_unruled s unruled]
    have deep : (Visit.start c s root real).room ≠ some 0 := by simpa [Visit.start] using room
    cases s.root.directories with
    | zero => exact walkEntries_plain c s _ unfollowed unruled es _ rules deep
    | succ links => exact walkEntries_plain c s _ unfollowed unruled es _ rules deep

/-- The two configurations say the same about which files count and how to walk. -/
structure Config.SelectsAlike (c d : Config) : Prop where
  exclusions : c.exclusions = d.exclusions
  extensions : c.extensions = d.extensions
  walk : c.walk = d.walk

section
variable {c d : Config} (alike : c.SelectsAlike d)
include alike

theorem isEligible_alike (p : Path) : c.isEligible p = d.isEligible p := by
  simp only [Config.isEligible, alike.extensions, alike.exclusions]

theorem admits_alike (v : Visit) (name : Name) (isDirectory : Bool) :
    v.admits c name isDirectory = v.admits d name isDirectory := by
  simp only [Visit.admits, alike.exclusions]

theorem fileAt_alike (v : Visit) (name : Name) : v.fileAt c name = v.fileAt d name := by
  simp only [Visit.fileAt, admits_alike alike, isEligible_alike alike]

theorem rulesAt_alike (s : Snapshot) (shown : Location) :
    Visit.rulesAt c s shown = Visit.rulesAt d s shown := by
  simp only [Visit.rulesAt, alike.walk]

theorem enter_alike (s : Snapshot) (v : Visit) (name : Name) (real : Location) :
    v.enter c s name real = v.enter d s name real := by
  simp only [Visit.enter, rulesAt_alike alike]

theorem linkEnd_alike (s : Snapshot) (v : Visit) (name : Name) :
    v.linkEnd c s name = v.linkEnd d s name := by
  simp only [Visit.linkEnd, alike.walk]

theorem walkEntries_alike (s : Snapshot) (onLinked : Visit → Entries → List Path) (v : Visit)
    (es : Entries) : walkEntries c s onLinked v es = walkEntries d s onLinked v es := by
  induction es using Node.entries_induction (P := fun node => ∀ (v : Visit) name,
      walkNode c s onLinked v name node = walkNode d s onLinked v name node) generalizing v with
  | file content v name => exact fileAt_alike alike v name
  | directory es ih v name => simp only [walkNode, admits_alike alike, enter_alike alike, ih]
  | link target v name =>
    simp only [walkNode_link, linkEnd_alike alike, fileAt_alike alike, admits_alike alike,
      enter_alike alike]
  | nil => rfl
  | cons name node rest hnode hrest => rw [walkEntries, walkEntries, hnode, hrest]

theorem walkThrough_alike (s : Snapshot) (links : Nat) :
    walkThrough c s links = walkThrough d s links := by
  induction links with
  | zero =>
    funext v es
    exact walkEntries_alike alike s _ v es
  | succ links ih =>
    funext v es
    rw [walkThrough, walkThrough, ih]
    exact walkEntries_alike alike s _ v es

/-- A walk asks nothing of the limits, the markers or the strictness. -/
theorem walk_alike (s : Snapshot) (root : Location) : walk c s root = walk d s root := by
  simp only [walk, Visit.start, rulesAt_alike alike, walkThrough_alike alike, alike.walk]

end

end LineGauge
