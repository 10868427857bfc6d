import Mathlib.Data.List.Lex
import LineGauge.Proofs.Walk

/-! The order of a walk. Whatever the options, a walk yields its paths in strictly ascending order,
component by component: what an entry leads to continues the entry's name, and the names of a
directory ascend. This holds behind a link too, since the path goes by the name of the link. -/
namespace LineGauge

/-- The order of components: the root, `.` and `..` come before the names, which are in the order
of their bytes. -/
def Component.Before : Component → Component → Prop
  | .name m, .name n => m < n
  | .root, b => b ≠ .root
  | .here, b => b ≠ .root ∧ b ≠ .here
  | .up, .name _ => True
  | _, _ => False

/-- The order of paths, component by component. -/
def Path.Before (p q : Path) : Prop := List.Lex Component.Before p.components q.components

theorem Component.before_irrefl (a : Component) : ¬ a.Before a := by
  cases a with
  | root => simp [Before]
  | here => simp [Before]
  | up => simp [Before]
  | name n => exact List.lt_irrefl n

theorem Path.not_sameAs_of_before {p q : Path} (less : p.Before q) : p.sameAs q = false := by
  rw [sameAs, beq_eq_false_iff_ne]
  intro same
  rw [Before, same] at less
  exact List.lex_irrefl Component.before_irrefl q.components less

theorem nodup_of_before {paths : List Path} (ascending : paths.Pairwise Path.Before) :
    paths.Nodup := by
  apply ascending.imp
  rintro p q less rfl
  have other := Path.not_sameAs_of_before less
  simp [Path.sameAs] at other

theorem Path.before_of_entries {l : Location} {m n : Name} {p q : Path}
    (proper : ∀ k ∈ l, k.isProper = true) (hm : m.isProper = true) (hn : n.isProper = true)
    (less : m < n) (hp : ∃ names, p = ofLocation (l ++ m :: names))
    (hq : ∃ names, q = ofLocation (l ++ n :: names)) : p.Before q := by
  obtain ⟨ms, rfl⟩ := hp
  obtain ⟨ns, rfl⟩ := hq
  have beyond : ∀ k names, k.isProper = true → ∃ more,
      (ofLocation (l ++ k :: names)).components = (.root :: l.map .name) ++ .name k :: more := by
    intro k names hk
    have whole := components_append (l ++ [k]) names
    rw [components_proper (List.forall_mem_append.mpr ⟨proper, by simpa using hk⟩)] at whole
    obtain ⟨more, hw⟩ := whole
    exact ⟨more, by simpa using hw.symm⟩
  obtain ⟨more, first⟩ := beyond m ms hm
  obtain ⟨other, second⟩ := beyond n ns hn
  have names : Component.Before (.name m) (.name n) := less
  rw [Before, first, second]
  exact List.Lex.append_left _ (.rel names) _

theorem Visit.fileAt_ascending (c : Config) (v : Visit) (name : Name) :
    (v.fileAt c name).Pairwise Path.Before := by
  unfold fileAt
  split
  · exact List.pairwise_singleton _ _
  · exact .nil

section
variable (c : Config) (s : Snapshot)

theorem walkEntries_ascending {onLinked : Visit → Entries → List Path}
    (below : ∀ v es, ∀ p ∈ onLinked v es, v.Below p)
    (linked : ∀ v es, (∀ n ∈ v.shown, n.isProper = true) → Node.WellOrderedEntries es →
      (onLinked v es).Pairwise Path.Before)
    (v : Visit) (es : Entries) (proper : ∀ n ∈ v.shown, n.isProper = true)
    (ordered : Node.WellOrderedEntries es) :
    (walkEntries c s onLinked v es).Pairwise Path.Before := by
  induction es using Node.entries_induction (P := fun node => ∀ (v : Visit) name,
      (∀ n ∈ v.shown ++ [name], n.isProper = true) → node.WellOrdered →
        (walkNode c s onLinked v name node).Pairwise Path.Before) generalizing v with
  | file content v name => exact v.fileAt_ascending c name
  | directory es ih v name proper ordered =>
    rw [walkNode]
    split
    · exact ih _ proper ordered
    · exact .nil
  | link target v name proper =>
    rw [walkNode_link]
    cases ends : v.linkEnd c s name with
    | nothing => exact .nil
    | file => exact v.fileAt_ascending c name
    | directory real es =>
      simp only
      split
      · exact linked _ es proper (Visit.linkEnd_wellOrdered ends)
      · exact .nil
  | nil => exact .nil
  | cons name node rest hnode hrest =>
    obtain ⟨hn, above, inner, others⟩ := ordered
    have extended : ∀ n ∈ v.shown ++ [name], n.isProper = true :=
      List.forall_mem_append.mpr ⟨proper, by simpa using hn⟩
    rw [walkEntries]
    -- across the two parts the names decide, as neither `hnode` nor `hrest` compares them
    refine List.pairwise_append.mpr ⟨hnode v name extended inner, hrest v proper others, ?_⟩
    intro p hp q hq
    obtain ⟨e, he, later⟩ := walkEntries_key c s below v rest q hq
    exact Path.before_of_entries proper hn (Node.wellOrderedEntries_proper others e he) (above e he)
      (walkNode_key c s below v name node p hp) later

theorem walkThrough_ascending (links : Nat) (v : Visit) (es : Entries)
    (proper : ∀ n ∈ v.shown, n.isProper = true) (ordered : Node.WellOrderedEntries es) :
    (walkThrough c s links v es).Pairwise Path.Before := by
  induction links generalizing v es with
  | zero => exact walkEntries_ascending c s (by simp) (fun _ _ _ _ => .nil) v es proper ordered
  | succ links ih =>
    exact walkEntries_ascending c s (walkThrough_below c s links) ih v es proper ordered

theorem walk_ascending {root : Location} (proper : ∀ n ∈ root, n.isProper = true) :
    (walk c s root).Pairwise Path.Before := by
  rcases walk_cases c s root with none | ⟨real, es, found, walked⟩
  · rw [none]
    exact .nil
  · rw [walked]
    exact walkThrough_ascending c s _ _ es proper (Snapshot.nodeAt?_wellOrdered found)

theorem walk_below (root : Location) :
    ∀ p ∈ walk c s root, ∃ names, p = .ofLocation (root ++ names) := by
  intro p hp
  rcases walk_cases c s root with none | ⟨real, es, _, walked⟩
  · rw [none] at hp
    cases hp
  · rw [walked] at hp
    exact walkThrough_below c s _ _ es p hp

end

end LineGauge
