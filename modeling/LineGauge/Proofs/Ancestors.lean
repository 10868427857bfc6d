import Mathlib.Data.List.DropRight
import LineGauge.Proofs.Folded

/-! Exclusion by ancestors. An entry is asked about in two ways, whether the candidate begins with
it, and whether its name stands among the directories that follow its parent. On folded paths the
two are one condition on the ancestors of the candidate: below the entry's parent, one of them has
the entry's name. The candidate's own last name counts only if it is the entry itself. -/
namespace LineGauge.Path

/-- The other path lies strictly below this one. -/
def IsAbove (a p : Path) : Prop := a.components <+: p.components ∧ a.components ≠ p.components

instance (a p : Path) : Decidable (a.IsAbove p) := inferInstanceAs (Decidable (_ ∧ _))

theorem isFolded_iff {p : Path} :
    p.IsFolded ↔ ∃ l : Location, (∀ n ∈ l, n.isProper = true) ∧ p = ofLocation l := by
  constructor
  · intro folded
    have proper : ∀ n ∈ fold p.components, n.isProper = true :=
      fold_from_proper (fun _ named => name_proper named) (by simp)
    exact ⟨fold p.components, proper, folded.symm⟩
  · rintro ⟨l, proper, rfl⟩
    exact isFolded_ofLocation proper

theorem dropSilentEnd_proper {l : Location} (proper : ∀ n ∈ l, n.isProper = true) :
    dropSilentEnd l = l := by
  apply List.rdropWhile_eq_self_iff.mpr
  intro some
  have last := proper _ (List.getLast_mem some)
  simp [((isProper_iff _).mp last).1]

section
variable {l : Location} {n : Name} (proper : ∀ m ∈ l ++ [n], m.isProper = true)
include proper

theorem fileName?_ofLocation : (ofLocation (l ++ [n])).fileName? = some n := by
  unfold fileName?
  rw [components_proper proper]
  simp [List.getLast?_cons]

theorem parent?_ofLocation : (ofLocation (l ++ [n])).parent? = some (ofLocation l) := by
  have above := (List.forall_mem_append.mp proper).1
  have start : (ofLocation (l ++ [n])).start = some .root := by simp [start]
  have body : (ofLocation (l ++ [n])).body = l ++ [n] := by
    simp [body, start, segments_proper proper]
  have whole := dropSilentEnd_proper proper
  unfold parent?
  rw [start, body, whole]
  simp [dropSilentEnd_proper above, ofLocation_eq]

end

section
variable {l m : Location} (hl : ∀ n ∈ l, n.isProper = true) (hm : ∀ n ∈ m, n.isProper = true)
include hl hm

theorem prefix_ofLocation :
    (ofLocation l).components <+: (ofLocation m).components ↔ l <+: m := by
  rw [components_proper hl, components_proper hm, List.cons_prefix_cons,
    List.prefix_map_iff_of_injective fun _ _ => Component.name.inj]
  exact and_iff_right rfl

theorem components_inj : (ofLocation l).components = (ofLocation m).components ↔ l = m := by
  constructor
  · intro same
    rw [← fold_ofLocation hl, same, fold_ofLocation hm]
  · rintro rfl
    rfl

theorem ofLocation_inj : ofLocation l = ofLocation m ↔ l = m := by
  constructor
  · intro same
    exact (components_inj hl hm).mp (congrArg components same)
  · rintro rfl
    rfl

theorem isAbove_ofLocation :
    (ofLocation l).IsAbove (ofLocation m) ↔ ∃ rest, rest ≠ [] ∧ m = l ++ rest := by
  unfold IsAbove
  rw [prefix_ofLocation hl hm, Ne, components_inj hl hm]
  constructor
  · rintro ⟨⟨rest, rfl⟩, differs⟩
    exact ⟨rest, by simpa using differs, rfl⟩
  · rintro ⟨rest, some, rfl⟩
    exact ⟨List.prefix_append l rest, by simpa using some⟩

end

theorem mem_dropLast_iff {α : Type} {a : α} {as : List α} :
    a ∈ as.dropLast ↔ ∃ front rest, rest ≠ [] ∧ as = front ++ a :: rest := by
  constructor
  · intro member
    obtain ⟨front, back, split⟩ := List.append_of_mem member
    have some : as ≠ [] := by
      rintro rfl
      cases member
    refine ⟨front, back ++ [as.getLast some], by simp, ?_⟩
    rw [← List.cons_append, ← List.append_assoc, ← split, List.dropLast_concat_getLast]
  · rintro ⟨front, rest, some, rfl⟩
    rw [← List.singleton_append, ← List.append_assoc, List.dropLast_append_of_ne_nil some]
    simp

theorem after?_ofLocation {c e : Location} (hc : ∀ m ∈ c, m.isProper = true)
    (he : ∀ m ∈ e, m.isProper = true) {below : List Component} :
    after? (ofLocation e).components (ofLocation c).components = some below ↔
      ∃ rest, c = e ++ rest ∧ below = rest.map .name := by
  have injective : Function.Injective Component.name := fun _ _ => Component.name.inj
  rw [after?_eq_some, components_proper hc, components_proper he, List.cons_append,
    List.cons_inj_right, List.map_eq_append_iff]
  constructor
  · rintro ⟨first, rest, rfl, same, rfl⟩
    cases List.map_injective_iff.mpr injective same
    exact ⟨rest, rfl, rfl⟩
  · rintro ⟨rest, rfl, rfl⟩
    exact ⟨e, rest, rfl, rfl, rfl⟩

theorem excludedBy_ofLocation {c e : Location} {n : Name} (hc : ∀ m ∈ c, m.isProper = true)
    (he : ∀ m ∈ e ++ [n], m.isProper = true) :
    (ofLocation c).excludedBy (ofLocation (e ++ [n])) = true ↔
      e ++ [n] <+: c ∨ ∃ below, c = e ++ below ∧ n ∈ below.dropLast := by
  have parent := (List.forall_mem_append.mp he).1
  have spelled : (ofLocation (e ++ [n])).components = (ofLocation e).components ++ [.name n] := by
    simp [components_proper he, components_proper parent]
  unfold excludedBy
  rw [Bool.or_eq_true, List.isPrefixOf_iff_prefix, prefix_ofLocation he hc]
  apply or_congr_right
  simp only [spelled, List.getLast?_concat, List.dropLast_concat]
  constructor
  · intro named
    split at named
    · rename_i found
      obtain ⟨rest, rfl, rfl⟩ := (after?_ofLocation hc parent).mp found
      refine ⟨rest, rfl, ?_⟩
      simpa [← List.map_dropLast] using named
    · cases named
  · rintro ⟨rest, rfl, member⟩
    simp only [(after?_ofLocation hc parent).mpr ⟨rest, rfl, rfl⟩]
    simpa [← List.map_dropLast] using member

theorem excludedBy_root (l : Location) : (ofLocation l).excludedBy (ofLocation []) = true := by
  have first : (ofLocation []).components <+: (ofLocation l).components := components_append [] l
  simp [excludedBy, List.isPrefixOf_iff_prefix.mpr first]

/-- The two tests of an entry as one: the candidate is the entry, or a name like the entry's comes
after its parent and is not the last one. -/
theorem excludedBy_iff_named {c e : Location} {n : Name} (hc : ∀ m ∈ c, m.isProper = true)
    (he : ∀ m ∈ e ++ [n], m.isProper = true) :
    (ofLocation c).excludedBy (ofLocation (e ++ [n])) = true ↔
      c = e ++ [n] ∨ ∃ dirs rest, rest ≠ [] ∧ c = e ++ dirs ++ [n] ++ rest := by
  rw [excludedBy_ofLocation hc he]
  constructor
  · rintro (⟨rest, rfl⟩ | ⟨below, rfl, member⟩)
    · cases rest with
      | nil => exact .inl (List.append_nil _)
      | cons first rest => exact .inr ⟨[], first :: rest, List.cons_ne_nil _ _, by simp⟩
    · obtain ⟨dirs, rest, some, rfl⟩ := mem_dropLast_iff.mp member
      exact .inr ⟨dirs, rest, some, by simp⟩
  · rintro (rfl | ⟨dirs, rest, some, rfl⟩)
    · exact .inl List.prefix_rfl
    · exact .inr ⟨dirs ++ n :: rest, by simp, mem_dropLast_iff.mpr ⟨dirs, rest, some, rfl⟩⟩

theorem fileName?_eq_some {l : Location} (proper : ∀ m ∈ l, m.isProper = true) {n : Name} :
    (ofLocation l).fileName? = some n ↔ ∃ dirs, l = dirs ++ [n] := by
  constructor
  · intro named
    rcases List.eq_nil_or_concat l with rfl | ⟨dirs, last, rfl⟩
    · cases named
    · rw [List.concat_eq_append] at proper named ⊢
      rw [fileName?_ofLocation proper] at named
      cases named
      exact ⟨dirs, rfl⟩
  · rintro ⟨dirs, rfl⟩
    exact fileName?_ofLocation proper

theorem exists_ancestor_iff {c e : Location} (hc : ∀ m ∈ c, m.isProper = true)
    (he : ∀ m ∈ e, m.isProper = true) (n : Name) :
    (∃ a : Path, a.IsFolded ∧ (ofLocation e).IsAbove a ∧ a.IsAbove (ofLocation c) ∧
        a.fileName? = some n) ↔
      ∃ dirs rest, rest ≠ [] ∧ c = e ++ dirs ++ [n] ++ rest := by
  constructor
  · rintro ⟨a, folded, below, above, named⟩
    obtain ⟨l, hl, rfl⟩ := isFolded_iff.mp folded
    obtain ⟨front, rfl⟩ := (fileName?_eq_some hl).mp named
    obtain ⟨rest, some, rfl⟩ := (isAbove_ofLocation hl hc).mp above
    obtain ⟨back, more, split⟩ := (isAbove_ofLocation he hl).mp below
    refine ⟨back.dropLast, rest, some, ?_⟩
    rw [← List.dropLast_append_of_ne_nil more, ← split, List.dropLast_concat]
  · rintro ⟨dirs, rest, some, rfl⟩
    have proper := (List.forall_mem_append.mp hc).1
    refine ⟨ofLocation (e ++ dirs ++ [n]), isFolded_ofLocation proper, ?_, ?_,
      fileName?_ofLocation proper⟩
    · exact (isAbove_ofLocation he proper).mpr ⟨dirs ++ [n], by simp, List.append_assoc e dirs [n]⟩
    · exact (isAbove_ofLocation proper hc).mpr ⟨rest, some, rfl⟩

/-- The root excludes every path. Any other entry excludes, of the folded paths, itself and those
that lie below a directory with the entry's name, wherever that is below the entry's parent. What
lies below an excluded path is excluded as well. -/
theorem excludedBy_iff_ancestor (c e : Path) (candidate : c.IsFolded) (entry : e.IsFolded) :
    (e = .ofText ['/'] → c.excludedBy e = true) ∧
    (e ≠ .ofText ['/'] → ∃ p n, e.parent? = some p ∧ e.fileName? = some n ∧
      (c.excludedBy e = true ↔
        c = e ∨ ∃ a : Path, a.IsFolded ∧ p.IsAbove a ∧ a.IsAbove c ∧ a.fileName? = some n)) ∧
    (c.excludedBy e = true → ∀ d, c.IsAbove d → d.excludedBy e = true) := by
  obtain ⟨lc, hc, rfl⟩ := isFolded_iff.mp candidate
  obtain ⟨le, he, rfl⟩ := isFolded_iff.mp entry
  refine ⟨?_, ?_, fun excluded d below => excludedBy_mono below.1 excluded⟩
  · intro root
    rw [root]
    exact excludedBy_root lc
  · intro other
    rcases List.eq_nil_or_concat le with rfl | ⟨parent, n, rfl⟩
    · exact absurd rfl other
    · rw [List.concat_eq_append] at he ⊢
      have above := (List.forall_mem_append.mp he).1
      refine ⟨_, n, parent?_ofLocation he, fileName?_ofLocation he, ?_⟩
      rw [excludedBy_iff_named hc he, exists_ancestor_iff hc above, ofLocation_inj hc he]

theorem excludedBy_iff_ancestor_nested :
    let entry : Path := .ofText "/w/v".toList
    let named (c : Path) := ∃ a : Path, a.IsFolded ∧ (Path.ofText "/w".toList).IsAbove a ∧
      a.IsAbove c ∧ a.fileName? = some (Utf8.encode ['v'])
    let nested : Path := .ofText "/w/a/v/b".toList
    let last : Path := .ofText "/w/a/v".toList
    (entry.IsFolded ∧ nested.IsFolded ∧ last.IsFolded) ∧ named nested ∧ ¬ named last ∧
      ∀ d, nested.IsAbove d → d.excludedBy entry = true := by
  intro entry named nested last
  have entryFolded : entry.IsFolded := by decide
  have nestedFolded : nested.IsFolded := by decide
  have lastFolded : last.IsFolded := by decide
  have other : entry ≠ .ofText ['/'] := by decide
  obtain ⟨_, inside, below⟩ := excludedBy_iff_ancestor nested entry nestedFolded entryFolded
  obtain ⟨_, outside, _⟩ := excludedBy_iff_ancestor last entry lastFolded entryFolded
  obtain ⟨p, n, parent, name, excluded⟩ := inside other
  obtain ⟨q, m, again, same, kept⟩ := outside other
  cases parent
  cases name
  cases again
  cases same
  have taken : nested.excludedBy entry = true := by decide
  have left : last.excludedBy entry = false := by decide
  refine ⟨⟨entryFolded, nestedFolded, lastFolded⟩, ?_, ?_, below taken⟩
  · rcases excluded.mp taken with same | ancestor
    · exact absurd same (by decide)
    · exact ancestor
  · intro ancestor
    rw [kept.mpr (.inr ancestor)] at left
    cases left

end LineGauge.Path
