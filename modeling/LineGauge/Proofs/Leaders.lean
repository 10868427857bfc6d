import Mathlib.Computability.Language
import LineGauge.Proofs.Margins

/-! The pattern of an opening line, as a language of texts: the leaders in any case as alternatives,
or none of them, then the delimiter as it is written, and then anything. Without leaders the pattern
is made of the delimiter alone, which comes to the same. As a set of texts it hides the order in
which the leaders are tried, repetitions, the case of letters and empty leaders, and so does a
scan, which asks about leaders in no other way. -/
namespace LineGauge

namespace Text

def fold (t : Text) : Text := t.map foldChar

/-- The text in every case its letters may have. -/
def inAnyCase (t : Text) : Language Char := {u | fold u = fold t}

theorem mem_inAnyCase {t u : Text} : u ∈ t.inAnyCase ↔ fold u = fold t := Iff.rfl

theorem nil_mem_inAnyCase {t : Text} : [] ∈ t.inAnyCase ↔ t = [] := by
  rw [mem_inAnyCase, fold, fold, List.map_nil, eq_comm, List.map_eq_nil_iff]

theorem cons_mem_inAnyCase {c d : Char} {t u : Text} :
    d :: u ∈ inAnyCase (c :: t) ↔ sameLetter c d = true ∧ u ∈ t.inAnyCase := by
  rw [mem_inAnyCase, mem_inAnyCase, sameLetter, beq_iff_eq, eq_comm (a := foldChar c)]
  exact List.cons_eq_cons

theorem dropFolded?_eq_some {leader t rest : Text} :
    dropFolded? leader t = some rest ↔ ∃ front ∈ leader.inAnyCase, front ++ rest = t := by
  fun_induction dropFolded? leader t with
  | case1 t =>
    constructor
    · intro all
      exact ⟨[], nil_mem_inAnyCase.mpr rfl, (Option.some.inj all).symm⟩
    · rintro ⟨front, found, rfl⟩
      cases List.map_eq_nil_iff.mp (mem_inAnyCase.mp found)
      rfl
  | case2 c leader =>
    constructor
    · intro none
      cases none
    · rintro ⟨front, found, split⟩
      obtain ⟨rfl, _⟩ := List.append_eq_nil_iff.mp split
      cases nil_mem_inAnyCase.mp found
  | case3 c leader d t same ih =>
    rw [ih]
    constructor
    · rintro ⟨front, found, rfl⟩
      exact ⟨d :: front, cons_mem_inAnyCase.mpr ⟨same, found⟩, rfl⟩
    · rintro ⟨front, found, split⟩
      cases front with
      | nil => cases nil_mem_inAnyCase.mp found
      | cons e front =>
        cases split
        exact ⟨front, (cons_mem_inAnyCase.mp found).2, rfl⟩
  | case4 c leader d t differ =>
    constructor
    · intro none
      cases none
    · rintro ⟨front, found, split⟩
      cases front with
      | nil => cases nil_mem_inAnyCase.mp found
      | cons e front =>
        cases split
        exact absurd (cons_mem_inAnyCase.mp found).1 differ

end Text

theorem mem_sum_map {α β : Type} {f : β → Language α} {bs : List β} {t : List α} :
    t ∈ (bs.map f).sum ↔ ∃ b ∈ bs, t ∈ f b := by
  induction bs with
  | nil => simp
  | cons b bs ih => simp [Language.mem_add, ih]

namespace Markers

/-- What may stand in front of an opening delimiter: a leader in any case, or nothing. -/
def fronts (leaders : List Text) : Language Char := 1 + (leaders.map Text.inAnyCase).sum

/-- The texts that start with the pattern of an opening line. Only the leaders have the choice of
case, and without leaders there is nothing to choose. -/
def openings (m : Markers) : Language Char :=
  if m.leaders.isEmpty then {m.delimiter} * ⊤ else fronts m.leaders * {m.delimiter} * ⊤

theorem openings_eq (m : Markers) : m.openings = fronts m.leaders * ({m.delimiter} * ⊤) := by
  unfold openings
  split
  · rename_i none
    have bare : fronts m.leaders = 1 := by
      rw [List.isEmpty_iff.mp none, fronts, List.map_nil, List.sum_nil, add_zero]
    rw [bare, one_mul]
  · rw [mul_assoc]

theorem mem_fronts {leaders : List Text} {t : Text} :
    t ∈ fronts leaders ↔ ∃ leader ∈ [] :: leaders, t ∈ Text.inAnyCase leader := by
  have bare : t ∈ Text.inAnyCase [] ↔ t = [] := List.map_eq_nil_iff
  unfold fronts
  rw [Language.mem_add, Language.mem_one, mem_sum_map, List.exists_mem_cons_iff, bare]

theorem mem_delimiter {m : Markers} {t : Text} :
    t ∈ ({m.delimiter} * ⊤ : Language Char) ↔ m.delimiter.isPrefixOf t = true := by
  rw [Language.mem_mul, List.isPrefixOf_iff_prefix]
  constructor
  · rintro ⟨_, rfl, rest, _, rfl⟩
    exact ⟨rest, rfl⟩
  · rintro ⟨rest, rfl⟩
    exact ⟨_, rfl, rest, trivial, rfl⟩

theorem opensWith_iff {m : Markers} {t leader : Text} :
    m.opensWith t leader = true ↔
      ∃ front ∈ leader.inAnyCase, ∃ rest ∈ ({m.delimiter} * ⊤ : Language Char),
        front ++ rest = t := by
  rw [opensWith, Option.any_eq_true]
  constructor
  · rintro ⟨rest, left, delimiter⟩
    obtain ⟨front, found, split⟩ := Text.dropFolded?_eq_some.mp left
    exact ⟨front, found, rest, mem_delimiter.mpr delimiter, split⟩
  · rintro ⟨front, found, rest, delimiter, split⟩
    exact ⟨rest, Text.dropFolded?_eq_some.mpr ⟨front, found, split⟩, mem_delimiter.mp delimiter⟩

/-- A line opens documentation exactly if the pattern is found at its start, blanks apart. -/
theorem isOpening_iff {m : Markers} {line : Text} :
    m.isOpening line = true ↔ line.trimStart ∈ m.openings := by
  have any : m.isOpening line = ([] :: m.leaders).any (m.opensWith line.trimStart) := rfl
  rw [any, List.any_eq_true, openings_eq, Language.mem_mul]
  constructor
  · rintro ⟨leader, member, opens⟩
    obtain ⟨front, found, after⟩ := opensWith_iff.mp opens
    exact ⟨front, mem_fronts.mpr ⟨leader, member, found⟩, after⟩
  · rintro ⟨front, found, after⟩
    obtain ⟨leader, member, folded⟩ := mem_fronts.mp found
    exact ⟨leader, member, opensWith_iff.mpr ⟨front, folded, after⟩⟩

/-- Every leader that is not empty is among the others, letter by letter up to case. -/
def Covered (leaders others : List Text) : Prop :=
  ∀ leader ∈ leaders, leader ≠ [] → ∃ other ∈ others, Text.fold leader = Text.fold other

instance (leaders others : List Text) : Decidable (Covered leaders others) :=
  inferInstanceAs (Decidable (∀ leader ∈ leaders, _))

theorem fronts_mono {leaders others : List Text} (covered : Covered leaders others) {t : Text}
    (member : t ∈ fronts leaders) : t ∈ fronts others := by
  obtain ⟨leader, listed, found⟩ := mem_fronts.mp member
  apply mem_fronts.mpr
  by_cases empty : leader = []
  · exact ⟨[], List.mem_cons_self, empty ▸ found⟩
  · have own : leader ∈ leaders := List.mem_of_ne_of_mem empty listed
    obtain ⟨other, member', same⟩ := covered leader own empty
    exact ⟨other, List.mem_cons_of_mem _ member', found.trans same⟩

end Markers

namespace Line

theorem alike_leaders {m : Markers} {leaders others : List Text}
    (covered : Markers.Covered leaders others) (covers : Markers.Covered others leaders)
    (line : Text) : Alike { m with leaders } { m with leaders := others } 0 line line := by
  have fronts : Markers.fronts leaders = Markers.fronts others := by
    apply Language.ext
    intro t
    exact ⟨Markers.fronts_mono covered, Markers.fronts_mono covers⟩
  constructor
  · rfl
  · rw [Bool.eq_iff_iff, Markers.isOpening_iff, Markers.isOpening_iff, Markers.openings_eq,
      Markers.openings_eq, fronts]
  · rfl
  · left
    rfl

/-- Of the leaders only those that are not empty matter, up to the case of their letters, and
neither their order nor how often they are listed: two lists with the same ones give the same
overlong lines. -/
theorem scan_same_leaders (limits : Limits) (m : Markers) (leaders others : List Text)
    (covered : Markers.Covered leaders others) (covers : Markers.Covered others leaders)
    (lines : List Text) :
    scan limits { m with leaders } lines = scan limits { m with leaders := others } lines := by
  have same := scan_alike (alike_leaders (m := m) covered covers) limits lines
  rw [List.map_id'] at same
  exact same.symm

theorem scan_same_leaders_shuffled :
    let limits : Limits := { code := 9, docs := 3 }
    let m : Markers := {}
    let leaders := ["r", "rB", "", "k", "\"", "R"].map String.toList
    let others := ["\"", "\u212A", "RB", "r"].map String.toList
    let lines :=
      ["x", "K\"\"\"doc", "\"\"\"", "Rb\"\"\"\"", "\"\"\"\"", "kr\"\"\"long"].map String.toList
    (Markers.Covered leaders others ∧ Markers.Covered others leaders) ∧
      scan limits { m with leaders } lines = [⟨2, 7, 3⟩, ⟨4, 6, 3⟩, ⟨5, 4, 3⟩] ∧
      scan limits { m with leaders } lines = scan limits { m with leaders := others } lines := by
  intro limits m leaders others lines
  have covered : Markers.Covered leaders others := by decide
  have covers : Markers.Covered others leaders := by decide
  refine ⟨⟨covered, covers⟩, ?_, ?_⟩
  · decide
  · exact scan_same_leaders limits m leaders others covered covers lines

end Line

end LineGauge
