import LineGauge.Proofs.Folded
import LineGauge.Proofs.Grouping
import LineGauge.Proofs.Json
import LineGauge.Proofs.Utf8

/-! Reading the text of a report back. It is read line by line: a line that starts with a slash
names a file, an indented line tells a problem of the file named last, and the empty lines and the
total add nothing. A path that goes on in a second line could be taken for anything, and a path that
is not UTF-8 is not shown as it is; folded paths without either are read back from their listing,
and with them all problems in their order. -/
namespace LineGauge

/-- A folded path that is UTF-8 and keeps to one line. -/
structure Path.IsListable (p : Path) : Prop where
  folded : p.IsFolded
  oneLine : ∃ t ∈ p.text?, '\n' ∉ t

instance (p : Path) : Decidable p.IsListable :=
  decidable_of_iff (p.IsFolded ∧ ∃ t ∈ p.text?, '\n' ∉ t)
    ⟨fun ⟨folded, oneLine⟩ => ⟨folded, oneLine⟩, fun ⟨folded, oneLine⟩ => ⟨folded, oneLine⟩⟩

theorem Path.IsListable.display {p : Path} (listable : p.IsListable) :
    Path.ofText p.display = p ∧ '\n' ∉ p.display := by
  obtain ⟨t, read, line⟩ := listable.oneLine
  have shown : p.display = t := Utf8.decodeLossy_of_decode? read
  have bytes : Utf8.encode t = p.bytes := Utf8.encode_decode? read
  rw [shown]
  exact ⟨congrArg Path.mk bytes, line⟩

theorem Path.IsFolded.display_head {p : Path} (folded : p.IsFolded) :
    p.display.head? = some '/' := by
  obtain ⟨bs, begins⟩ : ∃ bs, p.bytes = slash :: bs := by
    simpa [Path.isAbsolute, List.head?_eq_some_iff] using folded.isAbsolute
  unfold display
  rw [begins]
  rfl

namespace Report

/-- The number that follows a text, and what follows it. -/
def numberAfter? (before t : Text) : Option (Nat × Text) := do
  let (digits, rest) ← Json.digits? (← Path.after? before t)
  return (Nat.ofDigitChars 10 digits 0, rest)

/-- The problem of a file that a line tells. -/
def problemIn? (file : Path) (text : Text) : Option Problem := do
  let (line, rest) ← numberAfter? "  * Line ".toList text
  let (observed, rest) ← numberAfter? " (".toList rest
  let (limit, rest) ← numberAfter? "/".toList rest
  if rest = ")".toList then some { path := file, line, observed, limit } else none

/-- The problems that lines tell after one that named a file, if there was any. -/
def problemsAfter? (file : Option Path) : List Text → Option (List Problem)
  | [] => some []
  | line :: lines =>
    match line.head? with
    | some '/' => problemsAfter? (some (.ofText line)) lines
    | some ' ' => do
      let problem ← problemIn? (← file) line
      return problem :: (← problemsAfter? file lines)
    | _ => problemsAfter? file lines

/-- The problems that the text of a report tells. -/
def problemsIn? (t : Text) : Option (List Problem) :=
  problemsAfter? none (pieces (· == '\n') t)

theorem numberAfter?_decimal (before : Text) (n : Nat) {rest : Text}
    (ends : Json.EndsNumber rest) :
    numberAfter? before (before ++ (Number.decimal n ++ rest)) = some (n, rest) := by
  have left : Path.after? before (before ++ (Number.decimal n ++ rest)) = _ :=
    Path.after?_eq_some.mpr rfl
  have value : Nat.ofDigitChars 10 (Number.decimal n) 0 = n :=
    Nat.ofDigitChars_toDigits (by decide) (by decide)
  unfold numberAfter?
  simp [left, Json.digits?_decimal n ends, value]

theorem problemIn?_problemLine (p : Problem) : problemIn? p.path (problemLine p) = some p := by
  have observed (t : Text) : Json.EndsNumber (" (".toList ++ t) := Json.endsNumber_cons rfl _
  have limit (t : Text) : Json.EndsNumber ("/".toList ++ t) := Json.endsNumber_cons rfl _
  have last : Json.EndsNumber ")".toList := Json.endsNumber_cons rfl _
  unfold problemIn? problemLine
  simp only [List.append_assoc, Option.bind_eq_bind]
  rw [numberAfter?_decimal _ _ (observed _), Option.bind_some]
  rw [numberAfter?_decimal _ _ (limit _), Option.bind_some]
  rw [numberAfter?_decimal _ _ last, Option.bind_some]
  exact if_pos rfl

/-- Without control characters. -/
def Visible (t : Text) : Prop := ∀ c ∈ t, ' ' ≤ c

instance : DecidablePred Visible := fun t => t.decidableBAll (' ' ≤ ·)

theorem Visible.append {s t : Text} (first : Visible s) (second : Visible t) : Visible (s ++ t) :=
  List.forall_mem_append.mpr ⟨first, second⟩

theorem Visible.not_mem {t : Text} (visible : Visible t) {c : Char} (control : c < ' ') : c ∉ t :=
  fun member => absurd (visible c member) (Char.not_le.mpr control)

theorem visible_decimal (n : Nat) : Visible (Number.decimal n) := by
  intro c member
  have digit := Char.isDigit_iff_toNat.mp (Json.decimal_digits n c member)
  have low : ' '.toNat ≤ c.toNat := Nat.le_trans (by decide) digit.1
  exact low

theorem visible_problemLine (p : Problem) : Visible (problemLine p) := by
  have start : Visible "  * Line ".toList := by decide
  have between : Visible " (".toList ∧ Visible "/".toList ∧ Visible ")".toList := by decide
  exact (((((start.append (visible_decimal _)).append between.1).append (visible_decimal _)).append
    between.2.1).append (visible_decimal _)).append between.2.2

theorem visible_totalLine (count : Nat) : Visible (totalLine count) := by
  have start : Visible "Found ".toList := by decide
  have word : Visible (if count == 1 then " problem" else " problems").toList := by
    split <;> decide
  exact (start.append (visible_decimal count)).append word

/-- The lines that a file with its problems takes in a listing. -/
def groupLines (g : Group) : List Text := g.path.display :: g.problems.map problemLine ++ [[]]

theorem groupText_plain (g : Group) :
    groupText .plain g = (groupLines g).flatMap (· ++ ['\n']) := by
  simp [groupText, groupLines, Style.plain, List.flatMap_map]

theorem newline_not_mem_groupLines {g : Group} (listable : g.path.IsListable) :
    ∀ line ∈ groupLines g, '\n' ∉ line := by
  intro line member
  rcases List.mem_append.mp member with first | last
  · rcases List.mem_cons.mp first with rfl | told
    · exact listable.display.2
    · obtain ⟨p, _, rfl⟩ := List.mem_map.mp told
      exact (visible_problemLine p).not_mem (by decide)
  · cases List.mem_singleton.mp last
    simp

theorem display_lines (r : Report) (bad : r.problems ≠ []) :
    r.display =
      (r.groups.flatMap groupLines).flatMap (· ++ ['\n']) ++ totalLine r.problems.length := by
  have shown : r.display = listing .plain r := by simp [display, isClean, bad]
  have groups : r.groups.flatMap (groupText .plain) =
      (r.groups.flatMap groupLines).flatMap (· ++ ['\n']) := by
    rw [List.flatMap_assoc]
    exact congrArg (fun text => r.groups.flatMap text) (funext groupText_plain)
  rw [shown, listing, groups]
  simp [Style.plain]

theorem pieces_lines {lines : List Text} {last : Text} (apart : ∀ line ∈ lines, '\n' ∉ line)
    (unbroken : '\n' ∉ last) :
    pieces (· == '\n') (lines.flatMap (· ++ ['\n']) ++ last) = lines ++ [last] := by
  have whole {line : Text} (h : '\n' ∉ line) : pieces (· == '\n') line = [line] := by
    apply pieces_of_none
    intro c hc
    rw [beq_eq_false_iff_ne]
    rintro rfl
    exact h hc
  induction lines with
  | nil => exact whole unbroken
  | cons line lines ih =>
    obtain ⟨first, others⟩ := List.forall_mem_cons.mp apart
    rw [List.flatMap_cons, List.append_assoc, List.append_assoc, List.singleton_append,
      pieces_append _ _ _ '\n' rfl, whole first, ih others]
    rfl

theorem problemsAfter?_problems (file : Path) {problems : List Problem}
    (own : ∀ p ∈ problems, p.path = file) (lines : List Text) :
    problemsAfter? (some file) (problems.map problemLine ++ lines) =
      (problemsAfter? (some file) lines).map (problems ++ ·) := by
  induction problems with
  | nil => simp
  | cons p problems ih =>
    obtain ⟨rfl, others⟩ := List.forall_mem_cons.mp own
    have head : (problemLine p).head? = some ' ' := by
      unfold problemLine
      rfl
    rw [List.map_cons, List.cons_append, problemsAfter?, head]
    simp only [Option.bind_eq_bind, Option.bind_some, problemIn?_problemLine, ih others]
    cases problemsAfter? (some p.path) lines <;> rfl

theorem problemsAfter?_group (file : Option Path) {g : Group} (listable : g.path.IsListable)
    (own : ∀ p ∈ g.problems, p.path = g.path) (lines : List Text) :
    problemsAfter? file (groupLines g ++ lines) =
      (problemsAfter? (some g.path) lines).map (g.problems ++ ·) := by
  have read : Path.ofText g.path.display = g.path := listable.display.1
  unfold groupLines
  rw [List.cons_append, List.cons_append, problemsAfter?, listable.folded.display_head]
  simp only [read, List.append_assoc]
  rw [problemsAfter?_problems g.path own]
  rfl

theorem problemsAfter?_groups (file : Option Path) {groups : List Group} (count : Nat)
    (listable : ∀ g ∈ groups, g.path.IsListable)
    (own : ∀ g ∈ groups, ∀ p ∈ g.problems, p.path = g.path) :
    problemsAfter? file (groups.flatMap groupLines ++ [totalLine count]) =
      some (groups.flatMap (·.problems)) := by
  -- each group names its own file, so the one named before it is arbitrary
  induction groups generalizing file with
  | nil => rfl
  | cons g groups ih =>
    obtain ⟨first, others⟩ := List.forall_mem_cons.mp listable
    obtain ⟨ownFirst, ownOthers⟩ := List.forall_mem_cons.mp own
    rw [List.flatMap_cons, List.append_assoc, problemsAfter?_group file first ownFirst,
      ih (some g.path) others ownOthers]
    rfl

section
variable {r : Report} (listable : ∀ p ∈ r.problems, p.path.IsListable)
include listable

theorem groups_listable : ∀ g ∈ r.groups, g.path.IsListable := by
  intro g hg
  obtain ⟨p, hp, same⟩ := groupsOf_path r.problems g hg
  exact same ▸ listable p hp

theorem groups_own : ∀ g ∈ r.groups, ∀ p ∈ g.problems, p.path = g.path := by
  intro g hg p hp
  have known : p ∈ r.problems := by
    rw [← flatMap_groupsOf r.problems]
    exact List.mem_flatMap.mpr ⟨g, hg, hp⟩
  -- grouping only compares components; folded paths with the same ones are the same
  have same := ((groupsOf_grouped r.problems).led g hg).alike p hp
  exact (listable p known).folded.eq_of_components (groups_listable listable g hg).folded same

theorem problemsIn?_display : problemsIn? r.display = some r.problems := by
  by_cases clean : r.problems = []
  · have nothing : r.display = [] := by simp [display, isClean, clean]
    rw [nothing, clean]
    rfl
  · have apart : ∀ line ∈ r.groups.flatMap groupLines, '\n' ∉ line := by
      intro line member
      obtain ⟨g, hg, hl⟩ := List.mem_flatMap.mp member
      exact newline_not_mem_groupLines (groups_listable listable g hg) line hl
    unfold problemsIn?
    rw [display_lines r clean, pieces_lines apart ((visible_totalLine _).not_mem (by decide)),
      problemsAfter?_groups none _ (groups_listable listable) (groups_own listable)]
    exact congrArg some (flatMap_groupsOf r.problems)

end

/-- The text of a report tells its problems: reading it gives back their paths, lines, lengths and
limits in their order, if all paths are folded, UTF-8 and without line ends. So two such reports
have the same text only if they have the same problems. -/
theorem display_tells_problems (r other : Report)
    (listable : ∀ p ∈ r.problems, p.path.IsListable)
    (otherListable : ∀ p ∈ other.problems, p.path.IsListable) :
    problemsIn? r.display = some r.problems ∧
      (r.display = other.display ↔ r.problems = other.problems) := by
  have read := problemsIn?_display listable
  refine ⟨read, ?_, ?_⟩
  · intro same
    rw [same, problemsIn?_display otherListable] at read
    exact (Option.some.inj read).symm
  · intro same
    unfold display listing groups isClean
    rw [same]

/-- Behind their slashes, these paths look like the other lines of a listing, and the first of them
comes back after the second. -/
def misleadingReport : Report where
  problems := [
    { path := .ofText "/  * Line 1 (80/79)".toList, line := 1, observed := 80, limit := 79 },
    { path := .ofText "/Found 3 problems".toList, line := 18, observed := 0, limit := 79 },
    { path := .ofText "/  * Line 1 (80/79)".toList, line := 2, observed := 100, limit := 7 }]

theorem display_tells_problems_misleading :
    let cwd : Path := .ofText ['/', 'w']
    let c : Config := { exclusions := {}, limits := { code := 2, docs := 2 } }
    let roots : List Path := [.ofText ['.']]
    ∃ report, check c lineTree cwd roots = .ok report ∧ report.problems.length = 3 ∧
      (∀ p ∈ misleadingReport.problems, p.path.IsListable) ∧
      (∀ p ∈ report.problems, p.path.IsListable) ∧
      problemsIn? misleadingReport.display = some misleadingReport.problems ∧
      misleadingReport.display ≠ report.display := by
  intro cwd c roots
  have misleading : ∀ p ∈ misleadingReport.problems, p.path.IsListable := by decide
  have found : ∀ p ∈ (lenientReport c lineTree cwd roots).problems, p.path.IsListable := by
    intro p hp
    refine ⟨lenientReport_isFolded c lineTree cwd roots p hp, ?_⟩
    revert p
    decide
  obtain ⟨read, told⟩ := display_tells_problems misleadingReport _ misleading found
  refine ⟨_, check_without_strict c lineTree cwd roots rfl, ?_, misleading, found, read, ?_⟩
  · decide
  · intro same
    exact absurd (told.mp same) (by decide)

end Report

end LineGauge
