import Mathlib.Data.List.DropRight
import LineGauge.Text.Fold
import LineGauge.Proofs.Utf8

/-! Blanks around a text. A text without blanks is found at the start of another, or at its end,
whatever blanks are added on the other side of that. Folding the case of letters never makes a blank
of a letter or a letter of a blank, so the same holds of letters in any case. -/
namespace LineGauge.Text

def Blank (t : Text) : Prop := ∀ c ∈ t, isBlank c = true

/-- Without any blank. -/
def Solid (t : Text) : Prop := ∀ c ∈ t, isBlank c = false

instance : DecidablePred Blank := fun t => t.decidableBAll (isBlank · = true)

instance : DecidablePred Solid := fun t => t.decidableBAll (isBlank · = false)

theorem Blank.reverse {t : Text} (blank : Blank t) : Blank t.reverse := by
  intro c member
  exact blank c (List.mem_reverse.mp member)

theorem Solid.reverse {t : Text} (solid : Solid t) : Solid t.reverse := by
  intro c member
  exact solid c (List.mem_reverse.mp member)

theorem trimEnd_append_blanks (t : Text) : ∃ blanks, Blank blanks ∧ t = t.trimEnd ++ blanks := by
  refine ⟨t.rtakeWhile isBlank, ?_, List.rdropWhile_append_rtakeWhile.symm⟩
  intro c member
  exact List.mem_rtakeWhile_imp member

theorem trimEnd_trimEnd (t : Text) : t.trimEnd.trimEnd = t.trimEnd :=
  List.rdropWhile_idempotent isBlank t

theorem trimStart_solid {t : Text} (solid : Solid t) : t.trimStart = t := by
  cases t with
  | nil => rfl
  | cons c t => simp [trimStart, solid c List.mem_cons_self]

theorem trim_solid {t : Text} (solid : Solid t) : t.trim = t := by
  change (trimStart t.trimStart.reverse).reverse = t
  rw [trimStart_solid solid, trimStart_solid solid.reverse, List.reverse_reverse]

theorem trimStart_indented {indent : Text} (blank : Blank indent) (t : Text) :
    trimStart (indent ++ t) = trimStart t :=
  List.dropWhile_append_of_pos blank

theorem trimStart_append_blanks {blanks : Text} (blank : Blank blanks) (t : Text) :
    (trimStart t = [] ∧ trimStart (t ++ blanks) = []) ∨
      trimStart (t ++ blanks) = trimStart t ++ blanks := by
  unfold trimStart
  rw [List.dropWhile_append]
  split
  · rename_i empty
    left
    exact ⟨List.isEmpty_iff.mp empty, List.dropWhile_eq_nil_iff.mpr blank⟩
  · right
    rfl

theorem trimEnd_indented {indent : Text} (blank : Blank indent) (t : Text) :
    (trimEnd t = [] ∧ trimEnd (indent ++ t) = []) ∨
      trimEnd (indent ++ t) = indent ++ trimEnd t := by
  -- seen from the end, an indented text is one with blanks after it
  have mirrored : trimEnd (indent ++ t) = (trimStart (t.reverse ++ indent.reverse)).reverse := by
    rw [← List.reverse_append]
    rfl
  have own : trimEnd t = (trimStart t.reverse).reverse := rfl
  rcases trimStart_append_blanks blank.reverse t.reverse with ⟨none, still⟩ | more
  · left
    rw [mirrored, own, none, still]
    exact ⟨rfl, rfl⟩
  · right
    rw [mirrored, own, more, List.reverse_append, List.reverse_reverse]

/-- The start of a text is that of the text without trailing blanks, but for blanks at its end. -/
theorem trimStart_eq_append (t : Text) : ∃ blanks, Blank blanks ∧
    t.trimStart = t.trimEnd.trimStart ++ blanks := by
  obtain ⟨blanks, blank, whole⟩ := trimEnd_append_blanks t
  rcases trimStart_append_blanks blank t.trimEnd with ⟨none, still⟩ | more
  · rw [← whole] at still
    refine ⟨[], ?_, ?_⟩
    · intro c member
      cases member
    · rw [none, still, List.append_nil]
  · rw [← whole] at more
    exact ⟨blanks, blank, more⟩

theorem isPrefixOf_append_blanks {p blanks : Text} (solid : Solid p) (blank : Blank blanks)
    (t : Text) : p.isPrefixOf (t ++ blanks) = p.isPrefixOf t := by
  induction p generalizing t with
  | nil => simp
  | cons c p ih =>
    obtain ⟨first, others⟩ := List.forall_mem_cons.mp solid
    cases t with
    | cons d t => simp only [List.cons_append, List.isPrefixOf, ih others]
    | nil =>
      cases blanks with
      | nil => rfl
      | cons d blanks =>
        have differ : c ≠ d := by
          rintro rfl
          rw [blank c List.mem_cons_self] at first
          cases first
        simp [List.isPrefixOf, differ]

theorem isSuffixOf_indented {p indent : Text} (solid : Solid p) (blank : Blank indent)
    (t : Text) : p.isSuffixOf (indent ++ t) = p.isSuffixOf t := by
  unfold List.isSuffixOf
  rw [List.reverse_append]
  exact isPrefixOf_append_blanks solid.reverse blank.reverse t.reverse

/-- The runs of blanks among the code points, each with its last one. -/
def blankRuns : List (Nat × Nat) :=
  [(0x09, 0x0D), (0x20, 0x20), (0x85, 0x85), (0xA0, 0xA0), (0x1680, 0x1680), (0x2000, 0x200A),
   (0x2028, 0x2029), (0x202F, 0x202F), (0x205F, 0x205F), (0x3000, 0x3000)]

theorem isBlank_eq_false {c : Char}
    (apart : ∀ run ∈ blankRuns, c.toNat < run.1 ∨ run.2 < c.toNat) : isBlank c = false := by
  simp only [blankRuns, List.forall_mem_cons] at apart
  simp only [isBlank, Bool.or_eq_false_iff, Bool.and_eq_false_iff, decide_eq_false_iff_not,
    beq_eq_false_iff_ne]
  omega

theorem table_apart : ∀ r ∈ FoldRun.table, ∀ run ∈ blankRuns,
    (r.last < run.1 ∨ run.2 < r.first) ∧
      (r.image + (r.last - r.first) < run.1 ∨ run.2 < r.image) := by
  decide +kernel

theorem isBlank_ofNat_eq_false {n : Nat} (apart : ∀ run ∈ blankRuns, n < run.1 ∨ run.2 < n) :
    isBlank (Char.ofNat n) = false := by
  by_cases valid : n.isValidChar
  · apply isBlank_eq_false
    rwa [Utf8.toNat_ofNat valid]
  · rw [Char.ofNat, dif_neg valid]
    rfl

theorem isBlank_foldChar (c : Char) : isBlank (foldChar c) = isBlank c := by
  unfold foldChar
  split
  · rename_i r found
    have apart := table_apart r (List.mem_of_find?_eq_some found)
    have covered := List.find?_some found
    simp only [FoldRun.covers, Bool.and_eq_true, decide_eq_true_eq] at covered
    have image : isBlank (Char.ofNat (r.image + (c.toNat - r.first))) = false := by
      apply isBlank_ofNat_eq_false
      intro run member
      have := apart run member
      omega
    have source : isBlank c = false := by
      apply isBlank_eq_false
      intro run member
      have := apart run member
      omega
    rw [image, source]
  · rfl

theorem isBlank_eq_of_sameLetter {a b : Char} (same : sameLetter a b = true) :
    isBlank a = isBlank b := by
  rw [← isBlank_foldChar a, ← isBlank_foldChar b, beq_iff_eq.mp same]

theorem dropFolded?_append_blanks {leader blanks : Text} (solid : Solid leader)
    (blank : Blank blanks) (t : Text) :
    dropFolded? leader (t ++ blanks) = (dropFolded? leader t).map (· ++ blanks) := by
  fun_induction dropFolded? leader t with
  | case1 t => rfl
  | case2 c leader =>
    cases blanks with
    | nil => rfl
    | cons d blanks =>
      have differ : sameLetter c d = false := by
        apply Bool.eq_false_iff.mpr
        intro same
        have kind := isBlank_eq_of_sameLetter same
        rw [solid c List.mem_cons_self, blank d List.mem_cons_self] at kind
        cases kind
      simp [dropFolded?, differ]
  | case3 c leader d t same ih =>
    simp only [List.cons_append, dropFolded?, same, if_true]
    exact ih (List.forall_mem_cons.mp solid).2
  | case4 c leader d t differ =>
    simp only [List.cons_append, dropFolded?, differ]
    rfl

end LineGauge.Text
