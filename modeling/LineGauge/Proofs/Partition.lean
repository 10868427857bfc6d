import Mathlib.Data.List.Chain
import LineGauge.Report.Basic

/-! Grouping neighbours. The groups cut the problems where one file gives way to another, each under
the spelling of its path that came first. Nothing else cuts them so; in particular they are what a
reader keeps who takes the problems one by one and looks at the last group only. -/
namespace LineGauge

theorem Path.sameAs_iff {p q : Path} : p.sameAs q = true ↔ p.components = q.components :=
  beq_iff_eq

@[simp] theorem Path.sameAs_self (p : Path) : p.sameAs p = true := sameAs_iff.mpr rfl

theorem Path.sameAs_comm (p q : Path) : p.sameAs q = q.sameAs p := by
  rw [Bool.eq_iff_iff, sameAs_iff, sameAs_iff]
  exact eq_comm

namespace Report

/-- A group is under the path of its first problem, and its problems are all in that file. -/
structure Group.Led (g : Group) : Prop where
  first : ∃ p others, g.problems = p :: others ∧ p.path = g.path
  alike : ∀ p ∈ g.problems, p.path.components = g.path.components

/-- The problems in their order, cut into groups of which the next is always of another file. -/
structure Grouped (gs : List Group) (problems : List Problem) : Prop where
  joined : gs.flatMap (·.problems) = problems
  led : ∀ g ∈ gs, g.Led
  apart : gs.IsChain fun g h => g.path.components ≠ h.path.components

theorem grouped_nil : Grouped [] [] := ⟨rfl, nofun, .nil⟩

theorem grouped_one {g : Group} (led : g.Led) : Grouped [g] g.problems :=
  ⟨List.flatMap_singleton _ g, by simpa using led, .singleton g⟩

/-- Groups one after another are groups of the problems one after another, if the file changes
between them. -/
theorem grouped_append {gs hs : List Group} {problems : List Problem} :
    Grouped (gs ++ hs) problems ↔ ∃ earlier later, problems = earlier ++ later ∧
      Grouped gs earlier ∧ Grouped hs later ∧
      ∀ g ∈ gs.getLast?, ∀ h ∈ hs.head?, g.path.components ≠ h.path.components := by
  constructor
  · rintro ⟨joined, led, apart⟩
    obtain ⟨before, after, between⟩ := List.isChain_append.mp apart
    rw [List.forall_mem_append] at led
    exact ⟨_, _, by rw [← joined, List.flatMap_append], ⟨rfl, led.1, before⟩, ⟨rfl, led.2, after⟩,
      between⟩
  · rintro ⟨earlier, later, rfl, before, after, between⟩
    constructor
    · rw [List.flatMap_append, before.joined, after.joined]
    · exact List.forall_mem_append.mpr ⟨before.led, after.led⟩
    · exact List.isChain_append.mpr ⟨before.apart, after.apart, between⟩

theorem Group.Led.alone (p : Problem) : Group.Led ⟨p.path, [p]⟩ :=
  ⟨⟨p, [], rfl, rfl⟩, by simp⟩

theorem Group.Led.push {g : Group} (led : g.Led) {p : Problem}
    (same : p.path.components = g.path.components) : Group.Led ⟨g.path, g.problems ++ [p]⟩ := by
  obtain ⟨⟨first, others, starts, named⟩, alike⟩ := led
  constructor
  · exact ⟨first, others ++ [p], by rw [starts, List.cons_append], named⟩
  · intro q member
    rcases List.mem_append.mp member with old | new
    · exact alike q old
    · rw [List.mem_singleton.mp new, same]

/-- One more problem at the end: in the last group if it is of that file, else in its own. -/
def addLast (gs : List Group) (p : Problem) : List Group :=
  match gs.getLast? with
  | some g =>
    if p.path.sameAs g.path then gs.dropLast ++ [⟨g.path, g.problems ++ [p]⟩]
    else gs ++ [⟨p.path, [p]⟩]
  | none => [⟨p.path, [p]⟩]

theorem Grouped.addLast {gs : List Group} {problems : List Problem} (grouped : Grouped gs problems)
    (p : Problem) : Grouped (addLast gs p) (problems ++ [p]) := by
  have alone : Grouped [⟨p.path, [p]⟩] [p] := grouped_one (.alone p)
  rcases gs.eq_nil_or_concat' with rfl | ⟨before, g, rfl⟩
  · obtain rfl : [] = problems := grouped.joined
    exact alone
  · rw [Report.addLast, List.getLast?_concat]
    by_cases same : p.path.components = g.path.components
    · -- only the last group changes, and under the same path
      obtain ⟨earlier, later, rfl, whole, last, between⟩ := grouped_append.mp grouped
      obtain rfl : g.problems = later := by simpa using last.joined
      have grown := grouped_one ((last.led g List.mem_cons_self).push same)
      simp only [Path.sameAs_iff.mpr same, if_true, List.dropLast_concat]
      exact grouped_append.mpr
        ⟨earlier, _, List.append_assoc .., whole, grown, by simpa using between⟩
    · simp only [Path.sameAs_iff, same, if_false]
      refine grouped_append.mpr ⟨problems, [p], rfl, grouped, alone, ?_⟩
      simpa using Ne.symm same

theorem Grouped.foldl {gs : List Group} {problems : List Problem} (grouped : Grouped gs problems)
    (more : List Problem) : Grouped (more.foldl Report.addLast gs) (problems ++ more) := by
  induction more generalizing gs problems with
  | nil => rwa [List.append_nil]
  | cons p more ih =>
    rw [← List.singleton_append, ← List.append_assoc]
    exact ih (grouped.addLast p)

theorem groupsOf_cons (p : Problem) (problems : List Problem) :
    groupsOf (p :: problems) = addFirst p (groupsOf problems) := rfl

/-- Problems of one file are a group of their own if the next group is of another file. -/
theorem groupsOf_block {first : Problem} {others rest : List Problem}
    (alike : ∀ p ∈ others, p.path.components = first.path.components)
    (apart : ∀ g ∈ (groupsOf rest).head?, first.path.components ≠ g.path.components) :
    groupsOf (first :: others ++ rest) = ⟨first.path, first :: others⟩ :: groupsOf rest := by
  induction others generalizing first with
  | nil =>
    rw [List.cons_append, List.nil_append, groupsOf_cons]
    cases later : groupsOf rest with
    | nil => rfl
    | cons g gs =>
      have differs : first.path.components ≠ g.path.components := apart g (by simp [later])
      simp [addFirst, Path.sameAs_iff, differs]
  | cons second others ih =>
    obtain ⟨next, later⟩ := List.forall_mem_cons.mp alike
    rw [List.cons_append, groupsOf_cons, ih]
    · simp [addFirst, Path.sameAs_iff, next]
    · exact fun p member => (later p member).trans next.symm
    · exact fun g member => next ▸ apart g member

theorem Grouped.unique {gs : List Group} {problems : List Problem}
    (grouped : Grouped gs problems) : gs = groupsOf problems := by
  induction gs generalizing problems with
  | nil =>
    obtain rfl : [] = problems := grouped.joined
    rfl
  | cons g gs ih =>
    have split : Grouped ([g] ++ gs) problems := grouped
    obtain ⟨own, later, rfl, one, others, between⟩ := grouped_append.mp split
    obtain rfl : g.problems = own := by simpa using one.joined
    obtain ⟨⟨first, rest, starts, named⟩, alike⟩ := one.led g List.mem_cons_self
    have whole : g = ⟨first.path, first :: rest⟩ := by rw [named, ← starts]
    subst whole
    rw [groupsOf_block, ← ih others]
    · exact fun p member => alike p (List.mem_cons_of_mem first member)
    · rw [← ih others]
      exact between _ rfl

theorem groupsOf_grouped (problems : List Problem) : Grouped (groupsOf problems) problems := by
  have read : Grouped (problems.foldl addLast []) problems := grouped_nil.foldl problems
  exact read.unique ▸ read

theorem flatMap_groupsOf (problems : List Problem) :
    (groupsOf problems).flatMap (·.problems) = problems :=
  (groupsOf_grouped problems).joined

theorem groupsOf_path (problems : List Problem) :
    ∀ g ∈ groupsOf problems, ∃ p ∈ problems, p.path = g.path := by
  intro g member
  obtain ⟨p, others, starts, named⟩ := ((groupsOf_grouped problems).led g member).first
  refine ⟨p, ?_, named⟩
  rw [← flatMap_groupsOf problems]
  exact List.mem_flatMap.mpr ⟨g, member, starts ▸ List.mem_cons_self⟩

/-- The groups of a report are the one way to cut its problems, in their order, into groups that
hold at least one problem each, all in the file of the first, under the path of the first, and such
that the next group is of another file. Taking the problems one by one, each into the last group or
into a new one, gives them. -/
theorem groups_partition (r : Report) :
    (∀ gs : List Group, Grouped gs r.problems ↔ gs = r.groups) ∧
      r.groups = r.problems.foldl addLast [] := by
  constructor
  · intro gs
    constructor
    · exact Grouped.unique
    · rintro rfl
      exact groupsOf_grouped r.problems
  · exact (grouped_nil.foldl r.problems).unique.symm

-- Other spellings of a path join its group, but not over a problem of another file.
example :
    let problem (path : String) (line : Nat) : Problem := ⟨⟨line, 9, 2⟩, .ofText path.toList⟩
    groupsOf [problem "/a/./b" 1, problem "/a//b/" 2, problem "/a/../b" 3, problem "/a/b" 4] =
      [⟨.ofText "/a/./b".toList, [problem "/a/./b" 1, problem "/a//b/" 2]⟩,
        ⟨.ofText "/a/../b".toList, [problem "/a/../b" 3]⟩,
        ⟨.ofText "/a/b".toList, [problem "/a/b" 4]⟩] := by
  decide

end Report

end LineGauge
