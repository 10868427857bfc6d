import LineGauge.Tree.Locate

/-! Changing a tree: placing files, directories and links, and removing what is there. Every change
keeps the tree well ordered. -/
namespace LineGauge

namespace Node

/-- Changes the entry of a name, adds it in its place, or takes it out. A name that cannot stand
in a directory changes nothing. -/
def setEntry (name : Name) (change : Option Node → Option Node) : Entries → Entries
  | [] =>
    match change none with
    | some node => if name.isProper then [(name, node)] else []
    | none => []
  | (n, node) :: rest =>
    if n = name then
      match change (some node) with
      | some new => (n, new) :: rest
      | none => rest
    else if name < n then
      match change none with
      | some new => if name.isProper then (name, new) :: (n, node) :: rest else (n, node) :: rest
      | none => (n, node) :: rest
    else (n, node) :: setEntry name change rest

/-- Changes the entry at a location; nothing happens where a directory on the way is missing, and
the root stays. -/
def alterEntries (change : Option Node → Option Node) : Location → Entries → Entries
  | [], es => es
  | [name], es => setEntry name change es
  | name :: next :: names, es =>
    setEntry name (fun
      | some (.directory inner) => some (.directory (alterEntries change (next :: names) inner))
      | other => other) es

/-- A change that makes no unordered tree out of a well ordered one or of nothing. -/
def Keeps (change : Option Node → Option Node) : Prop :=
  ∀ before after, (∀ node, before = some node → node.WellOrdered) →
    change before = some after → after.WellOrdered

theorem mem_setEntry {name : Name} {change : Option Node → Option Node} {es : Entries}
    {e : Name × Node} (h : e ∈ setEntry name change es) : e.1 = name ∨ ∃ e' ∈ es, e'.1 = e.1 := by
  induction es with
  | nil =>
    simp only [setEntry] at h
    split at h
    · split at h <;> simp_all
    · simp at h
  | cons a rest ih =>
    obtain ⟨n, node⟩ := a
    simp only [setEntry] at h
    split at h
    · rename_i hn
      subst hn
      split at h
      · rcases List.mem_cons.1 h with rfl | h
        · exact .inl rfl
        · exact .inr ⟨e, List.mem_cons_of_mem _ h, rfl⟩
      · exact .inr ⟨e, List.mem_cons_of_mem _ h, rfl⟩
    · split at h
      · split at h
        · split at h
          · rcases List.mem_cons.1 h with rfl | h
            · exact .inl rfl
            · exact .inr ⟨e, h, rfl⟩
          · exact .inr ⟨e, h, rfl⟩
        · exact .inr ⟨e, h, rfl⟩
      · rcases List.mem_cons.1 h with rfl | h
        · exact .inr ⟨_, List.mem_cons_self, rfl⟩
        · rcases ih h with h | ⟨e', he', h⟩
          · exact .inl h
          · exact .inr ⟨e', List.mem_cons_of_mem _ he', h⟩

theorem wellOrderedEntries_setEntry {name : Name} {change : Option Node → Option Node}
    (keeps : Keeps change) {es : Entries} (h : WellOrderedEntries es) :
    WellOrderedEntries (setEntry name change es) := by
  induction es with
  | nil =>
    simp only [setEntry]
    split
    · rename_i node hnode
      split
      · rename_i proper
        exact ⟨proper, by simp, keeps none node (by simp) hnode, trivial⟩
      · trivial
    · trivial
  | cons a rest ih =>
    obtain ⟨n, node⟩ := a
    obtain ⟨hproper, hless, hnode, hrest⟩ := h
    simp only [setEntry]
    split
    · split
      · rename_i new hnew
        exact ⟨hproper, hless, keeps _ _ (by simp_all) hnew, hrest⟩
      · exact hrest
    · rename_i hne
      split
      · rename_i hlt
        split
        · rename_i new hnew
          split
          · rename_i proper
            refine ⟨proper, ?_, keeps none new (by simp) hnew, hproper, hless, hnode, hrest⟩
            intro e he
            rcases List.mem_cons.1 he with rfl | he
            · exact hlt
            · exact List.lt_trans hlt (hless e he)
          · exact ⟨hproper, hless, hnode, hrest⟩
        · exact ⟨hproper, hless, hnode, hrest⟩
      · rename_i hnlt
        refine ⟨hproper, ?_, hnode, ih hrest⟩
        intro e he
        rcases mem_setEntry he with hname | ⟨e', he', hname⟩
        · rw [hname]
          exact Std.lt_of_le_of_ne (List.not_lt.1 hnlt) hne
        · rw [← hname]
          exact hless e' he'

theorem wellOrderedEntries_alterEntries {change : Option Node → Option Node} (keeps : Keeps change)
    (l : Location) {es : Entries} (h : WellOrderedEntries es) :
    WellOrderedEntries (alterEntries change l es) := by
  induction l generalizing es with
  | nil => exact h
  | cons name names ih =>
    cases names with
    | nil => exact wellOrderedEntries_setEntry keeps h
    | cons next names =>
      refine wellOrderedEntries_setEntry ?_ h
      intro before after hbefore hafter
      dsimp only at hafter
      split at hafter
      · cases hafter
        exact ih (hbefore _ rfl)
      · exact hbefore after hafter

end Node

namespace Snapshot

/-- Changes the entry at a location. -/
def alter (s : Snapshot) (l : Location) (change : Option Node → Option Node)
    (keeps : Node.Keeps change) : Snapshot :=
  ⟨Node.alterEntries change l s.entries, Node.wellOrderedEntries_alterEntries keeps l s.ordered⟩

/-- What can be placed in a tree. -/
inductive Item where
  | file (content : Bytes)
  | directory
  | link (target : Path)

/-- An empty directory where nothing stands yet. -/
def orDirectory : Option Node → Option Node
  | some node => some node
  | none => some (.directory [])

theorem keeps_orDirectory : Node.Keeps orDirectory := by
  intro before after hbefore hafter
  cases before with
  | none => cases hafter; trivial
  | some node => cases hafter; exact hbefore _ rfl

/-- A file instead of anything but a directory. -/
def fileOver (content : Bytes) : Option Node → Option Node
  | some (.directory es) => some (.directory es)
  | _ => some (.file content)

theorem keeps_fileOver (content : Bytes) : Node.Keeps (fileOver content) := by
  intro before after hbefore hafter
  unfold fileOver at hafter
  split at hafter
  · cases hafter; exact hbefore _ rfl
  · cases hafter; trivial

/-- A link instead of anything but a directory. -/
def linkOver (target : Path) : Option Node → Option Node
  | some (.directory es) => some (.directory es)
  | _ => some (.link target)

theorem keeps_linkOver (target : Path) : Node.Keeps (linkOver target) := by
  intro before after hbefore hafter
  unfold linkOver at hafter
  split at hafter
  · cases hafter; exact hbefore _ rfl
  · cases hafter; trivial

theorem keeps_none : Node.Keeps fun _ => none := by
  intro before after _ hafter
  cases hafter

/-- Follows segments from a directory and makes the directories that are missing; `none` where
something else is in the way. -/
def settle (s : Snapshot) (here : Location) : List Name → Option (Snapshot × Location)
  | [] => some (s, here)
  | segment :: rest =>
    match Path.component? segment with
    | none => s.settle here rest
    | some (.name name) =>
      match s.follow linkLimit here [name] with
      | .ok there =>
        if (s.nodeAt? there).any (·.isDirectory) then s.settle there rest else none
      | .error .missing =>
        (s.alter (here ++ [name]) orDirectory keeps_orDirectory).settle (here ++ [name]) rest
      | .error _ => none
    | some _ => s.settle here.dropLast rest

/-- The segments of a path from the root, up to its last component. -/
def segmentsFrom (cwd p : Path) : List Name := Path.dropSilentEnd (cwd.join p).segments

/-- Places a file, a directory or a link, with the directories above it. A file is written through
a link that is already there. -/
def place (s : Snapshot) (cwd p : Path) (item : Item) : Snapshot :=
  let segments := segmentsFrom cwd p
  match item, s.settle [] segments.dropLast, segments.getLast? with
  | .directory, _, _ => ((s.settle [] segments).map (·.1)).getD s
  | .file content, some (s, here), some name =>
    match s.follow linkLimit here [name] with
    | .ok there => s.alter there (fileOver content) (keeps_fileOver content)
    | .error _ => s.alter (here ++ [name]) (fileOver content) (keeps_fileOver content)
  | .link target, some (s, here), some name =>
    s.alter (here ++ [name]) (linkOver target) (keeps_linkOver target)
  | _, _, _ => s

/-- Removes a file, a link or a whole directory. -/
def remove (s : Snapshot) (cwd p : Path) : Snapshot :=
  let segments := segmentsFrom cwd p
  match s.follow linkLimit [] segments.dropLast, segments.getLast? with
  | .ok here, some name => s.alter (here ++ [name]) (fun _ => none) keeps_none
  | _, _ => s

end Snapshot

end LineGauge
