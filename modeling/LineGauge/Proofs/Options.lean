import Mathlib.Data.List.Flatten
import LineGauge.Proofs.Collect

/-! Wider walk options. A greater depth, links followed and ignore files left unread each let a walk
take more, and none of them costs an entry elsewhere: the two walks visit the directories of the
narrower one in the same order, with the same directories open, so that a link is a loop for both
or for neither. -/
namespace LineGauge

/-- The second depth reaches at least as far; no depth is no limit. -/
def DepthWithin (narrow wide : Option Nat) : Prop :=
  ∀ most, wide = some most → ∃ depth, narrow = some depth ∧ depth ≤ most

theorem DepthWithin.pred {narrow wide : Option Nat} (within : DepthWithin narrow wide) :
    DepthWithin (narrow.map (· - 1)) (wide.map (· - 1)) := by
  intro most hm
  obtain ⟨limit, hl, rfl⟩ := Option.map_eq_some_iff.mp hm
  obtain ⟨depth, hd, less⟩ := within limit hl
  exact ⟨depth - 1, by rw [hd, Option.map_some], by omega⟩

/-- Where the narrower depth leaves room, the wider one does. -/
theorem DepthWithin.ne_some {narrow wide : Option Nat} (within : DepthWithin narrow wide)
    {limit : Nat} (deeper : ∀ depth ≤ limit, narrow ≠ some depth) : wide ≠ some limit := by
  intro hw
  obtain ⟨depth, hd, less⟩ := within limit hw
  exact deeper depth less hd

/-- The second options let a walk take whatever the first do. -/
structure WalkOptions.Within (narrow wide : WalkOptions) : Prop where
  depth : DepthWithin narrow.maxDepth wide.maxDepth
  links : narrow.followLinks = true → wide.followLinks = true
  rules : narrow.respectIgnoreFiles = false → wide.respectIgnoreFiles = false

/-- Two walks are in the same directory, the second under the wider options. -/
structure Visit.Within (wide : WalkOptions) (v w : Visit) : Prop where
  shown : w.shown = v.shown
  real : w.real = v.real
  opened : w.opened = v.opened
  room : DepthWithin v.room w.room
  deep : v.room ≠ some 0
  rules : w.rules = if wide.respectIgnoreFiles then v.rules else []

section
variable {c : Config} {wide : WalkOptions} (wider : c.walk.Within wide) (s : Snapshot)
include wider

theorem rulesAt_within (shown : Location) :
    Visit.rulesAt { c with walk := wide } s shown =
      if wide.respectIgnoreFiles then Visit.rulesAt c s shown else [] := by
  cases reads : c.walk.respectIgnoreFiles with
  | false => simp [Visit.rulesAt, wider.rules reads]
  | true =>
    simp only [Visit.rulesAt, reads]
    split <;> rfl

theorem start_within {shown real : Location} (deep : c.walk.maxDepth ≠ some 0) :
    (Visit.start c s shown real).Within wide
      (Visit.start { c with walk := wide } s shown real) where
  shown := rfl
  real := rfl
  opened := rfl
  room := wider.depth
  deep := deep
  rules := rulesAt_within wider s shown

variable {v w : Visit} (within : v.Within wide w)
include within

theorem enter_within (deeper : v.room ≠ some 1) (name : Name) (real : Location) :
    (v.enter c s name real).Within wide (w.enter { c with walk := wide } s name real) where
  shown := congrArg (· ++ [name]) within.shown
  real := rfl
  opened := congrArg (real :: ·) within.opened
  room := within.room.pred
  deep := Visit.room_enter c s within.deep deeper name real
  rules := by
    simp only [Visit.enter, within.shown, rulesAt_within wider s, within.rules]
    split <;> rfl

theorem linkEnd_within (name : Name) :
    v.linkEnd c s name = .nothing ∨
      w.linkEnd { c with walk := wide } s name = v.linkEnd c s name := by
  cases follows : c.walk.followLinks with
  | false =>
    left
    simp [Visit.linkEnd, follows]
  | true =>
    -- The same directories are open in both visits, so the link closes a loop in both or in none.
    right
    simp only [Visit.linkEnd, Visit.pathOf, within.shown, within.opened, follows,
      wider.links follows]

omit wider in
theorem admits_within {name : Name} {isDirectory : Bool}
    (admitted : v.admits c name isDirectory = true) :
    w.admits { c with walk := wide } name isDirectory = true := by
  simp only [Visit.admits, Bool.and_eq_true, bne_iff_ne] at admitted ⊢
  refine ⟨?_, by simpa only [Visit.pathOf, within.shown] using admitted.2⟩
  rw [Visit.verdict?, within.rules, within.shown]
  split
  · exact admitted.1
  · simp

omit wider in
theorem fileAt_within (name : Name) :
    (v.fileAt c name).Sublist (w.fileAt { c with walk := wide } name) := by
  have path : w.pathOf name = v.pathOf name := by simp only [Visit.pathOf, within.shown]
  unfold Visit.fileAt
  split
  · rename_i taken
    rw [Bool.and_eq_true] at taken
    have eligible : Config.isEligible { c with walk := wide } (v.pathOf name) = true := taken.2
    rw [path, admits_within within taken.1, eligible]
    exact List.Sublist.refl _
  · exact List.nil_sublist _

/-- The step into a directory: the wider walk enters it whenever the narrower one does. -/
theorem entered_within (name : Name) (real : Location) {few many : List Path}
    (inner : (v.enter c s name real).Within wide (w.enter { c with walk := wide } s name real) →
      few.Sublist many) :
    (if v.admits c name true && v.room != some 1 then few else []).Sublist
      (if w.admits { c with walk := wide } name true && w.room != some 1 then many else []) := by
  split
  · rename_i entered
    rw [Bool.and_eq_true, bne_iff_ne] at entered
    -- The narrower walk goes at least two levels on, so the wider one does.
    have room : w.room ≠ some 1 := by
      apply within.room.ne_some
      intro depth less held
      obtain rfl | rfl : depth = 0 ∨ depth = 1 := by omega
      · exact within.deep held
      · exact entered.2 held
    rw [admits_within within entered.1, bne_iff_ne.mpr room]
    exact inner (enter_within wider s within entered.2 name real)
  · exact List.nil_sublist _

end

section
variable {c : Config} {wide : WalkOptions} (wider : c.walk.Within wide) (s : Snapshot)
include wider

theorem walkEntries_within {onFew onMany : Visit → Entries → List Path}
    (linked : ∀ v w es, v.Within wide w → (onFew v es).Sublist (onMany w es)) {v w : Visit}
    (within : v.Within wide w) (es : Entries) :
    (walkEntries c s onFew v es).Sublist (walkEntries { c with walk := wide } s onMany w es) := by
  induction es using Node.entries_induction (P := fun node => ∀ (v w : Visit) name,
      v.Within wide w → (walkNode c s onFew v name node).Sublist
        (walkNode { c with walk := wide } s onMany w name node)) generalizing v w with
  | file content v w name within => exact fileAt_within within name
  | directory es ih v w name within =>
    rw [walkNode, walkNode, within.real]
    exact entered_within wider s within name _ fun inner => ih inner
  | link target v w name within =>
    rw [walkNode_link, walkNode_link]
    rcases linkEnd_within wider s within name with none | same
    · rw [none]
      exact List.nil_sublist _
    · rw [same]
      cases v.linkEnd c s name with
      | nothing => exact List.nil_sublist _
      | file => exact fileAt_within within name
      | directory real es => exact entered_within wider s within name real (linked _ _ es)
  | nil => exact List.nil_sublist _
  | cons name node rest hnode hrest =>
    rw [walkEntries, walkEntries]
    exact (hnode v w name within).append (hrest within)

theorem walkThrough_within (links : Nat) {v w : Visit} (within : v.Within wide w) (es : Entries) :
    (walkThrough c s links v es).Sublist
      (walkThrough { c with walk := wide } s links w es) := by
  induction links generalizing v w es with
  | zero => exact walkEntries_within wider s (fun _ _ _ _ => List.nil_sublist _) within es
  | succ links ih => exact walkEntries_within wider s (fun _ _ es inner => ih inner es) within es

theorem walk_within (root : Location) :
    (walk c s root).Sublist (walk { c with walk := wide } s root) := by
  unfold walk
  split
  · exact List.nil_sublist _
  · split
    · split
      · exact List.nil_sublist _
      · rename_i room
        have deep : c.walk.maxDepth ≠ some 0 := by simpa using room
        have deeper : wide.maxDepth ≠ some 0 := by
          apply wider.depth.ne_some
          intro depth less
          rwa [Nat.le_zero.mp less]
        rw [if_neg (by simpa using deeper)]
        exact walkThrough_within wider s _ (start_within wider s deep) _
    · exact List.nil_sublist _

theorem findRoot_within (cwd root : Path) :
    (findRoot c s cwd root).paths.Sublist
      (findRoot { c with walk := wide } s cwd root).paths := by
  have eligible (p : Path) : Config.isEligible { c with walk := wide } p = c.isEligible p := rfl
  simp only [findRoot, eligible]
  split
  · exact List.Sublist.refl _
  · split
    · exact List.Sublist.refl _
    · exact walk_within wider s (cwd.locationIn root)

end

/-- Wider walk options lose nothing: with at least the depth, with links followed where they were and
with ignore files unread where they were, whatever was collected is collected again in the same
order, and the same roots are missing. -/
theorem wider_walk_keeps_files (c : Config) (s : Snapshot) (cwd : Path) (roots : List Path)
    (wide : WalkOptions) (wider : c.walk.Within wide) (lenient : c.strict = false) :
    ∃ before after, collect c s cwd roots = .ok before ∧
      collect { c with walk := wide } s cwd roots = .ok after ∧
      before.files.Sublist after.files ∧ before.missing = after.missing := by
  refine ⟨_, _, collect_lenient c s cwd roots lenient,
    collect_lenient { c with walk := wide } s cwd roots lenient, ?_, ?_⟩
  · simp only [collectAll_eq]
    apply List.Sublist.flatMap_right
    intro root _
    exact findRoot_within wider s cwd root
  · simp only [collectAll_eq]

/-- A directory `/w` with the files `/w/a.py`, `/w/b.py` and `/w/d/c.py`, an ignore file against the
first of them, and a link from `/w/d/u` back to `/w`. -/
def ruledTree : Snapshot where
  entries := [(Utf8.encode ['w'], .directory [
    (Visit.ignoreFile, .file (Utf8.encode ['a', '.', 'p', 'y'])),
    (Utf8.encode ['a', '.', 'p', 'y'], .file []),
    (Utf8.encode ['b', '.', 'p', 'y'], .file []),
    (Utf8.encode ['d'], .directory [
      (Utf8.encode ['c', '.', 'p', 'y'], .file []),
      (Utf8.encode ['u'], .link (.ofText ['.', '.']))])])]
  ordered := by
    simp only [Node.WellOrderedEntries, Node.WellOrdered]
    decide

theorem wider_walk_keeps_files_ruledTree :
    let cwd : Path := .ofText ['/', 'w']
    let roots : List Path := [.ofText ['x'], .ofText ['.']]
    let narrow : WalkOptions := { maxDepth := some 1, respectIgnoreFiles := true }
    let wide : WalkOptions := { maxDepth := some 3, followLinks := true }
    let c : Config := { exclusions := {}, walk := narrow }
    narrow.Within wide ∧ ∃ before after, collect c ruledTree cwd roots = .ok before ∧
      collect { c with walk := wide } ruledTree cwd roots = .ok after ∧
      before.files.length = 1 ∧ after.files.length = 3 ∧
      before.files.Sublist after.files ∧ before.missing = after.missing := by
  intro cwd roots narrow wide c
  have wider : narrow.Within wide :=
    ⟨fun _ most => ⟨1, rfl, by cases most; decide⟩, fun _ => rfl, fun _ => rfl⟩
  obtain ⟨before, after, first, second, files, missing⟩ :=
    wider_walk_keeps_files c ruledTree cwd roots wide wider rfl
  have few := Except.ok.inj (first.symm.trans (collect_lenient c ruledTree cwd roots rfl))
  have many := Except.ok.inj
    (second.symm.trans (collect_lenient { c with walk := wide } ruledTree cwd roots rfl))
  refine ⟨wider, before, after, first, second, ?_, ?_, files, missing⟩
  · rw [few]
    decide
  · rw [many]
    decide

end LineGauge
