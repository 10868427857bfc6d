import LineGauge.Tree.Locate
import LineGauge.Proofs.Path
import LineGauge.Proofs.Tree

/-! Looking up segments as a relation that counts the links passed. A look-up with a limit is a
look-up that passes no more links than the limit, and it can be cut at any segment: the links of
its parts add up, and only the last part may end at a file. -/
namespace LineGauge

theorem Path.component?_cases (segment : Name) :
    component? segment = none ∨ component? segment = some .up ∨
      component? segment = some (.name segment) := by
  unfold component?
  split
  · exact .inl rfl
  · split
    · exact .inr (.inl rfl)
    · exact .inr (.inr rfl)

namespace Snapshot

def IsDirectory (s : Snapshot) (l : Location) : Prop := ∃ es, s.nodeAt? l = some (.directory es)

theorem isDirectory_root (s : Snapshot) : s.IsDirectory [] := ⟨s.entries, rfl⟩

theorem isDirectory_dropLast {s : Snapshot} {l : Location} (h : s.IsDirectory l) :
    s.IsDirectory l.dropLast := by
  obtain ⟨es, found⟩ := h
  by_cases empty : l = []
  · subst empty
    exact ⟨es, found⟩
  · rw [← List.dropLast_concat_getLast empty, nodeAt?_append, Option.bind_eq_some_iff] at found
    obtain ⟨node, above, below⟩ := found
    cases node with
    | file content => cases below
    | link target => cases below
    | directory inner => exact ⟨inner, above⟩

/-- The segments lead from a directory to a place, through this many links. -/
inductive Leads (s : Snapshot) : Nat → Location → List Name → Location → Prop where
  | done {here : Location} : Leads s 0 here [] here
  | silent {links : Nat} {here there : Location} {segment : Name} {rest : List Name}
      (reads : Path.component? segment = none) (tail : Leads s links here rest there) :
      Leads s links here (segment :: rest) there
  | up {links : Nat} {here there : Location} {segment : Name} {rest : List Name}
      (reads : Path.component? segment = some .up) (tail : Leads s links here.dropLast rest there) :
      Leads s links here (segment :: rest) there
  | directory {links : Nat} {here there : Location} {name : Name} {rest : List Name}
      {es : Entries} (reads : Path.component? name = some (.name name))
      (short : name.length ≤ longestName) (found : s.nodeAt? (here ++ [name]) = some (.directory es))
      (tail : Leads s links (here ++ [name]) rest there) : Leads s links here (name :: rest) there
  | file {here : Location} {name : Name} {content : Bytes}
      (reads : Path.component? name = some (.name name)) (short : name.length ≤ longestName)
      (found : s.nodeAt? (here ++ [name]) = some (.file content)) :
      Leads s 0 here [name] (here ++ [name])
  | link {links : Nat} {here there : Location} {name : Name} {rest : List Name} {target : Path}
      (reads : Path.component? name = some (.name name)) (short : name.length ≤ longestName)
      (found : s.nodeAt? (here ++ [name]) = some (.link target))
      (tail : Leads s links (if target.isAbsolute then [] else here) (target.segments ++ rest)
        there) :
      Leads s (links + 1) here (name :: rest) there

theorem leads_of_followWith {s : Snapshot} {limit : Nat} {there : Location}
    {onLink : Location → List Name → Except AccessFault Location}
    (linked : ∀ here ss, onLink here ss = .ok there → ∃ links, links < limit ∧
      Leads s links here ss there) (here : Location) (ss : List Name)
    (accepted : s.followWith onLink here ss = .ok there) :
    ∃ links, links ≤ limit ∧ Leads s links here ss there := by
  induction ss generalizing here with
  | nil =>
    cases accepted
    exact ⟨0, Nat.zero_le limit, .done⟩
  | cons segment rest ih =>
    rcases Path.component?_cases segment with reads | reads | reads
    · simp only [followWith, reads] at accepted
      obtain ⟨links, hl, tail⟩ := ih here accepted
      exact ⟨links, hl, .silent reads tail⟩
    · simp only [followWith, reads] at accepted
      obtain ⟨links, hl, tail⟩ := ih here.dropLast accepted
      exact ⟨links, hl, .up reads tail⟩
    · simp only [followWith, reads] at accepted
      split at accepted
      · cases accepted
      · rename_i long
        have short : segment.length ≤ longestName := Nat.le_of_not_lt long
        split at accepted
        · cases accepted
        · rename_i es found
          obtain ⟨links, hl, tail⟩ := ih _ accepted
          exact ⟨links, hl, .directory reads short found tail⟩
        · rename_i content found
          split at accepted
          · rename_i last
            cases accepted
            cases List.isEmpty_iff.mp last
            exact ⟨0, Nat.zero_le limit, .file reads short found⟩
          · cases accepted
        · rename_i target found
          obtain ⟨links, hl, tail⟩ := linked _ _ accepted
          exact ⟨links + 1, hl, .link reads short found tail⟩

theorem followWith_of_leads {s : Snapshot} {limit links : Nat} {here there : Location}
    {ss : List Name} {onLink : Location → List Name → Except AccessFault Location}
    (linked : ∀ links here ss there, links < limit → Leads s links here ss there →
      onLink here ss = .ok there) (leads : Leads s links here ss there) (enough : links ≤ limit) :
    s.followWith onLink here ss = .ok there := by
  induction leads with
  | done => rfl
  | silent reads tail ih => simpa [followWith, reads] using ih enough
  | up reads tail ih => simpa [followWith, reads] using ih enough
  | directory reads short found tail ih =>
    simpa [followWith, reads, Nat.not_lt.mpr short, found] using ih enough
  | file reads short found => simp [followWith, reads, Nat.not_lt.mpr short, found]
  | link reads short found tail ih =>
    simpa [followWith, reads, Nat.not_lt.mpr short, found] using linked _ _ _ _ enough tail

theorem follow_eq_ok {s : Snapshot} {limit : Nat} {here there : Location} {ss : List Name} :
    s.follow limit here ss = .ok there ↔ ∃ links, links ≤ limit ∧ Leads s links here ss there := by
  induction limit generalizing here there ss with
  | zero =>
    constructor
    · exact leads_of_followWith (by simp) here ss
    · rintro ⟨links, enough, leads⟩
      exact followWith_of_leads (by simp) leads enough
  | succ limit ih =>
    constructor
    · apply leads_of_followWith
      intro here ss accepted
      obtain ⟨links, hl, leads⟩ := ih.mp accepted
      exact ⟨links, Nat.lt_succ_of_le hl, leads⟩
    · rintro ⟨links, enough, leads⟩
      refine followWith_of_leads ?_ leads enough
      intro links here ss there hl leads
      exact ih.mpr ⟨links, Nat.le_of_lt_succ hl, leads⟩

theorem leads_nil {s : Snapshot} {links : Nat} {here there : Location}
    (leads : Leads s links here [] there) : there = here := by
  cases leads
  rfl

theorem leads_silent {s : Snapshot} {links : Nat} {here there : Location} {segment : Name}
    {rest : List Name} (reads : Path.component? segment = none) :
    Leads s links here (segment :: rest) there ↔ Leads s links here rest there := by
  refine ⟨fun leads => ?_, .silent reads⟩
  cases leads <;> simp_all

theorem leads_up {s : Snapshot} {links : Nat} {here there : Location} {segment : Name}
    {rest : List Name} (reads : Path.component? segment = some .up) :
    Leads s links here (segment :: rest) there ↔ Leads s links here.dropLast rest there := by
  refine ⟨fun leads => ?_, .up reads⟩
  cases leads <;> simp_all

theorem leads_split {s : Snapshot} {links : Nat} {here there : Location} {a b : List Name}
    (start : s.IsDirectory here) (leads : Leads s links here (a ++ b) there) (more : b ≠ []) :
    ∃ i j middle, i + j = links ∧ Leads s i here a middle ∧ s.IsDirectory middle ∧
      Leads s j middle b there := by
  generalize whole : a ++ b = ss at leads
  induction leads generalizing a with
  | done => exact absurd (List.append_eq_nil_iff.mp whole).2 more
  | @silent links here there segment rest reads tail ih =>
    rcases List.append_eq_cons_iff.mp whole with ⟨rfl, rfl⟩ | ⟨a', rfl, rfl⟩
    · exact ⟨0, links, here, Nat.zero_add links, .done, start, .silent reads tail⟩
    · obtain ⟨i, j, middle, sum, first, directory, second⟩ := ih start rfl
      exact ⟨i, j, middle, sum, .silent reads first, directory, second⟩
  | @up links here there segment rest reads tail ih =>
    rcases List.append_eq_cons_iff.mp whole with ⟨rfl, rfl⟩ | ⟨a', rfl, rfl⟩
    · exact ⟨0, links, here, Nat.zero_add links, .done, start, .up reads tail⟩
    · obtain ⟨i, j, middle, sum, first, directory, second⟩ := ih (isDirectory_dropLast start) rfl
      exact ⟨i, j, middle, sum, .up reads first, directory, second⟩
  | @directory links here there name rest es reads short found tail ih =>
    rcases List.append_eq_cons_iff.mp whole with ⟨rfl, rfl⟩ | ⟨a', rfl, rfl⟩
    · exact ⟨0, links, here, Nat.zero_add links, .done, start, .directory reads short found tail⟩
    · obtain ⟨i, j, middle, sum, first, directory, second⟩ := ih ⟨es, found⟩ rfl
      exact ⟨i, j, middle, sum, .directory reads short found first, directory, second⟩
  | @file here name content reads short found =>
    rcases List.append_eq_cons_iff.mp whole with ⟨rfl, rfl⟩ | ⟨a', rfl, ended⟩
    · exact ⟨0, 0, here, rfl, .done, start, .file reads short found⟩
    · exact absurd (List.append_eq_nil_iff.mp ended.symm).2 more
  | @link links here there name rest target reads short found tail ih =>
    rcases List.append_eq_cons_iff.mp whole with ⟨rfl, rfl⟩ | ⟨a', rfl, rfl⟩
    · exact ⟨0, links + 1, here, Nat.zero_add _, .done, start, .link reads short found tail⟩
    · have base : s.IsDirectory (if target.isAbsolute then [] else here) := by
        split
        · exact s.isDirectory_root
        · exact start
      obtain ⟨i, j, middle, sum, first, directory, second⟩ := ih base (List.append_assoc ..)
      exact ⟨i + 1, j, middle, by omega, .link reads short found first, directory, second⟩

theorem leads_append {s : Snapshot} {i j : Nat} {here middle there : Location} {a b : List Name}
    (first : Leads s i here a middle) (directory : b ≠ [] → s.IsDirectory middle)
    (second : Leads s j middle b there) : Leads s (i + j) here (a ++ b) there := by
  induction first with
  | done => simpa using second
  | silent reads tail ih => exact .silent reads (ih directory second)
  | up reads tail ih => exact .up reads (ih directory second)
  | directory reads short found tail ih => exact .directory reads short found (ih directory second)
  | file reads short found =>
    by_cases ended : b = []
    · subst ended
      cases second
      exact .file reads short found
    · obtain ⟨es, other⟩ := directory ended
      rw [found] at other
      cases other
  | link reads short found tail ih =>
    have both := ih directory second
    rw [List.append_assoc] at both
    rw [Nat.add_right_comm]
    exact .link reads short found both

theorem locate_absolute (s : Snapshot) (cwd base : Path) {p : Path}
    (absolute : p.isAbsolute = true) : s.locate cwd p = s.locate base p := by
  rw [locate, locate, cwd.join_absolute p absolute, base.join_absolute p absolute]

end Snapshot

end LineGauge
