import LineGauge.Line.Scan

/-! The scan without its state. Which limit a line has can be read off the lines alone: the header
is the longest run of comment lines at the top, and a line lies in documentation if some line
after the header, at or before it, opens a block that no line in between closes. The two flags
of the scan are exactly this, one line at a time. -/
namespace LineGauge.Line

def headerLength (m : Markers) (lines : List Text) : Nat := (lines.takeWhile m.isComment).length

/-- The line at an index lies in a block of documentation. -/
def InDocs (m : Markers) (lines : List Text) (i : Nat) : Prop :=
  ∃ j, j ≤ i ∧ headerLength m lines ≤ j ∧ m.isOpening (lines.getD j []) = true ∧
    ∀ k, k < i → j ≤ k → m.isClosing (lines.getD k []) = false

instance (m : Markers) (lines : List Text) : DecidablePred (InDocs m lines) := fun i =>
  inferInstanceAs (Decidable (∃ j, j ≤ i ∧ _))

def limitAt (limits : Limits) (m : Markers) (lines : List Text) (i : Nat) : Nat :=
  if m.isComment (lines.getD i []) = true ∨ InDocs m lines i then limits.docs else limits.code

def observedAt (lines : List Text) (i : Nat) : Nat := measure (lines.getD i [])

/-- The lines from an index on that are over their limits; the first of all has the number
`number`. -/
def overLimit (limit : Nat → Nat) (number first : Nat) (lines : List Text) : List Overlong :=
  ((List.range lines.length).filter fun i =>
    decide (first ≤ i) && decide (limit i < observedAt lines i)).map fun i =>
      { line := i + number, observed := observedAt lines i, limit := limit i }

theorem overLimit_cons (limit : Nat → Nat) (number : Nat) (line : Text) (rest : List Text) :
    overLimit limit number 0 (line :: rest) =
      let later := overLimit (fun i => limit (i + 1)) (number + 1) 0 rest
      if limit 0 < measure line then
        { line := number, observed := measure line, limit := limit 0 } :: later
      else later := by
  simp only [overLimit, List.length_cons, List.range_succ_eq_map, List.filter_cons,
    List.filter_map]
  have shift (i : Nat) : observedAt (line :: rest) (i + 1) = observedAt rest i := rfl
  have first : observedAt (line :: rest) 0 = measure line := rfl
  by_cases long : limit 0 < measure line <;>
    simp [Function.comp_def, shift, first, long, Nat.add_assoc, Nat.add_comm 1]

theorem overLimit_skip (limit : Nat → Nat) (number first : Nat) (line : Text)
    (rest : List Text) :
    overLimit limit number (first + 1) (line :: rest) =
      overLimit (fun i => limit (i + 1)) (number + 1) first rest := by
  simp only [overLimit, List.length_cons, List.range_succ_eq_map, List.filter_cons,
    List.filter_map]
  have shift (i : Nat) : observedAt (line :: rest) (i + 1) = observedAt rest i := rfl
  simp [Function.comp_def, shift, Nat.add_assoc, Nat.add_comm 1]

/-- A block is open at an index of lines without a header: one that was open before them and is
not closed since, or one that they open themselves. -/
def OpenAt (m : Markers) (before : Bool) (lines : List Text) (i : Nat) : Prop :=
  (before = true ∧ ∀ k, k < i → m.isClosing (lines.getD k []) = false) ∨
    ∃ j, j ≤ i ∧ m.isOpening (lines.getD j []) = true ∧
      ∀ k, k < i → j ≤ k → m.isClosing (lines.getD k []) = false

instance (m : Markers) (before : Bool) (lines : List Text) :
    DecidablePred (OpenAt m before lines) := fun i =>
  inferInstanceAs (Decidable (_ ∨ ∃ j, j ≤ i ∧ _))

theorem openAt_zero (m : Markers) (before : Bool) (line : Text) (rest : List Text) :
    OpenAt m before (line :: rest) 0 ↔ (before || m.isOpening line) = true := by
  simp [OpenAt]

theorem openAt_succ (m : Markers) (before : Bool) (line : Text) (rest : List Text) (i : Nat) :
    OpenAt m before (line :: rest) (i + 1) ↔
      OpenAt m ((before || m.isOpening line) && !m.isClosing line) rest i := by
  constructor
  -- An opener in the line itself becomes what the line leaves open; a later one stays an opener.
  · rintro (⟨opened, closed⟩ | ⟨j, hj, opening, closed⟩)
    · left
      have now := closed 0 (by omega)
      refine ⟨by simp_all, fun k hk => closed (k + 1) (by omega)⟩
    · cases j with
      | zero =>
        left
        have now := closed 0 (by omega) (by omega)
        refine ⟨by simp_all, fun k hk => closed (k + 1) (by omega) (by omega)⟩
      | succ j =>
        right
        exact ⟨j, by omega, opening, fun k hk hjk => closed (k + 1) (by omega) (by omega)⟩
  · rintro (⟨opened, closed⟩ | ⟨j, hj, opening, closed⟩)
    · simp only [Bool.and_eq_true, Bool.or_eq_true, Bool.not_eq_true'] at opened
      have all : ∀ k, k < i + 1 → m.isClosing ((line :: rest).getD k []) = false := by
        intro k hk
        cases k with
        | zero => exact opened.2
        | succ k => exact closed k (by omega)
      rcases opened.1 with hb | ho
      · exact .inl ⟨hb, all⟩
      · exact .inr ⟨0, by omega, ho, fun k hk _ => all k hk⟩
    · refine .inr ⟨j + 1, by omega, opening, ?_⟩
      intro k hk hjk
      cases k with
      | zero => omega
      | succ k => exact closed k (by omega) (by omega)

theorem scanFrom_body (limits : Limits) (m : Markers) (before : Bool) (number : Nat)
    (lines : List Text) :
    scanFrom limits m { inDocs := before, inHeader := false } number lines =
      overLimit (fun i => if m.isComment (lines.getD i []) = true ∨ OpenAt m before lines i
        then limits.docs else limits.code) number 0 lines := by
  -- The flag carried from line to line is the block that the lines before left open.
  induction lines generalizing before number with
  | nil => rfl
  | cons line rest ih =>
    have limit : limitFor limits m (before || m.isOpening line) line =
        if m.isComment line = true ∨ OpenAt m before (line :: rest) 0
          then limits.docs else limits.code := by
      simp only [limitFor, openAt_zero, Bool.or_eq_true, or_comm]
    rw [overLimit_cons]
    simp only [scanFrom, Bool.false_and, Bool.false_eq_true, if_false, ih, List.getD_cons_zero,
      List.getD_cons_succ, openAt_succ, limit]

theorem scanFrom_header (limits : Limits) (m : Markers) (number : Nat) (lines : List Text) :
    scanFrom limits m {} number lines =
      scanFrom limits m { inHeader := false } (number + headerLength m lines)
        (lines.drop (headerLength m lines)) := by
  induction lines generalizing number with
  | nil => rfl
  | cons line rest ih =>
    by_cases comment : m.isComment line = true
    · have length : headerLength m (line :: rest) = headerLength m rest + 1 := by
        simp [headerLength, comment]
      rw [length, List.drop_succ_cons, Nat.add_comm _ 1, ← Nat.add_assoc, ← ih]
      simp [scanFrom, comment]
    · have length : headerLength m (line :: rest) = 0 := by simp [headerLength, comment]
      simp [length, scanFrom, comment]

theorem overLimit_drop (limit : Nat → Nat) (number first : Nat) (lines : List Text) :
    overLimit (fun i => limit (i + first)) (number + first) 0 (lines.drop first) =
      overLimit limit number first lines := by
  induction first generalizing limit number lines with
  | zero => rfl
  | succ first ih =>
    cases lines with
    | nil => simp [overLimit]
    | cons line rest =>
      rw [overLimit_skip, List.drop_succ_cons, ← ih]
      simp only [Nat.add_assoc, Nat.add_comm 1]

theorem overLimit_ascending (limit : Nat → Nat) (number first : Nat) (lines : List Text) :
    (overLimit limit number first lines).Pairwise (fun o p => o.line < p.line) := by
  rw [overLimit, List.pairwise_map]
  apply (List.pairwise_lt_range.filter _).imp
  intro i j less
  exact Nat.add_lt_add_right less number

theorem scan_ascending (limits : Limits) (m : Markers) (lines : List Text) :
    (scan limits m lines).Pairwise (fun o p => o.line < p.line) := by
  rw [scan, scanFrom_header, scanFrom_body]
  exact overLimit_ascending ..

theorem getD_drop (lines : List Text) (first i : Nat) :
    (lines.drop first).getD i [] = lines.getD (i + first) [] := by
  simp [List.getD_eq_getElem?_getD, Nat.add_comm]

theorem inDocs_iff_openAt (m : Markers) (lines : List Text) (i : Nat) :
    InDocs m lines (i + headerLength m lines) ↔
      OpenAt m false (lines.drop (headerLength m lines)) i := by
  simp only [OpenAt, Bool.false_eq_true, false_and, false_or, getD_drop]
  constructor
  · rintro ⟨j, hj, hh, opening, closed⟩
    refine ⟨j - headerLength m lines, by omega, by rwa [Nat.sub_add_cancel hh], ?_⟩
    intro k hk hjk
    exact closed _ (by omega) (by omega)
  · rintro ⟨j, hj, opening, closed⟩
    refine ⟨j + headerLength m lines, by omega, by omega, opening, ?_⟩
    intro k hk hjk
    have := closed (k - headerLength m lines) (by omega) (by omega)
    rwa [Nat.sub_add_cancel (by omega)] at this

end LineGauge.Line
