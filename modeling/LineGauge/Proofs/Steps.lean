import LineGauge.Proofs.Scan

/-! A scan one line at a time. A line is reported by itself, given the state that the lines before
it leave, and a scan of two parts is the scan of the first and then that of the second from the
state after the first. A header only moves the numbers of the lines below it. A closing line below
the header leaves one and the same state whatever came before it, so it hides all earlier lines
from the later ones. -/
namespace LineGauge

/-- The same line of a file that has more lines in front. -/
def Overlong.shift (offset : Nat) (o : Overlong) : Overlong := { o with line := o.line + offset }

namespace Line

/-- The state that a line leaves to the lines after it. -/
def State.next (m : Markers) (state : State) (line : Text) : State :=
  if state.inHeader && m.isComment line then state
  else { inDocs := (state.inDocs || m.isOpening line) && !m.isClosing line, inHeader := false }

def State.after (m : Markers) (state : State) (lines : List Text) : State :=
  lines.foldl (State.next m) state

section
variable (limits : Limits) (m : Markers)

theorem scanFrom_cons (state : State) (number : Nat) (line : Text) (rest : List Text) :
    scanFrom limits m state number (line :: rest) =
      scanFrom limits m state number [line] ++
        scanFrom limits m (state.next m line) (number + 1) rest := by
  simp only [scanFrom, State.next]
  split
  · rfl
  · split <;> rfl

theorem scanFrom_append (state : State) (number : Nat) (before later : List Text) :
    scanFrom limits m state number (before ++ later) =
      scanFrom limits m state number before ++
        scanFrom limits m (state.after m before) (number + before.length) later := by
  induction before generalizing state number with
  | nil => rfl
  | cons line rest ih =>
    have count : number + 1 + rest.length = number + (line :: rest).length := by
      rw [List.length_cons, Nat.add_assoc, Nat.add_comm 1]
    rw [List.cons_append, scanFrom_cons, ih, ← List.append_assoc, ← scanFrom_cons, count]
    rfl

theorem scanFrom_line (state : State) (number : Nat) (line : Text) :
    ∀ o ∈ scanFrom limits m state number [line], o.line = number := by
  intro o reported
  simp only [scanFrom] at reported
  split at reported
  · cases reported
  · split at reported
    · cases List.mem_singleton.mp reported
      rfl
    · cases reported

theorem scanFrom_within (state : State) (number : Nat) (lines : List Text) :
    ∀ o ∈ scanFrom limits m state number lines,
      number ≤ o.line ∧ o.line < number + lines.length := by
  induction lines generalizing state number with
  | nil =>
    intro o reported
    cases reported
  | cons line rest ih =>
    intro o reported
    rw [scanFrom_cons] at reported
    simp only [List.length_cons]
    rcases List.mem_append.mp reported with now | later
    · have place := scanFrom_line limits m state number line o now
      omega
    · have place := ih (state.next m line) (number + 1) o later
      omega

theorem scanFrom_shift_line (state : State) (number offset : Nat) (line : Text) :
    scanFrom limits m state (number + offset) [line] =
      (scanFrom limits m state number [line]).map (Overlong.shift offset) := by
  simp only [scanFrom]
  split
  · rfl
  · split <;> rfl

theorem scanFrom_shift (state : State) (number offset : Nat) (lines : List Text) :
    scanFrom limits m state (number + offset) lines =
      (scanFrom limits m state number lines).map (Overlong.shift offset) := by
  induction lines generalizing state number with
  | nil => rfl
  | cons line rest ih =>
    rw [scanFrom_cons, scanFrom_cons limits m state number, List.map_append, scanFrom_shift_line,
      Nat.add_right_comm, ih]

end

theorem headerLength_append {m : Markers} {header : List Text}
    (comments : ∀ line ∈ header, m.isComment line = true) (lines : List Text) :
    headerLength m (header ++ lines) = header.length + headerLength m lines := by
  unfold headerLength
  rw [List.takeWhile_append_of_pos comments, List.length_append]

/-- Comment lines at the top of a file only move the numbers of the lines after them, whatever they
hold themselves, and a file of comment lines alone has nothing to report. -/
theorem scan_below_header (limits : Limits) (m : Markers) (header lines : List Text)
    (comments : ∀ line ∈ header, m.isComment line = true) :
    scan limits m (header ++ lines) =
        (scan limits m lines).map (Overlong.shift header.length) ∧
      scan limits m header = [] := by
  have moved (lines : List Text) : scan limits m (header ++ lines) =
      (scan limits m lines).map (Overlong.shift header.length) := by
    unfold scan
    rw [scanFrom_header, headerLength_append comments, List.drop_length_add_append,
      scanFrom_header limits m 1 lines, ← scanFrom_shift, Nat.add_left_comm, Nat.add_comm]
  have alone := moved []
  rw [List.append_nil] at alone
  exact ⟨moved lines, alone⟩

theorem scan_below_header_quoting :
    let limits : Limits := { code := 4, docs := 2 }
    let header := ["# \"\"\"open", "  #\"\"\""].map String.toList
    let lines := ["#long comment", "x", "\"\"\"", "long = 1"].map String.toList
    (∀ line ∈ header, ({} : Markers).isComment line = true) ∧
      scan limits {} lines = [⟨3, 3, 2⟩, ⟨4, 8, 4⟩] ∧
      scan limits {} (header ++ lines) = [⟨5, 3, 2⟩, ⟨6, 8, 4⟩] ∧ scan limits {} header = [] := by
  intro limits header lines
  have comments : ∀ line ∈ header, ({} : Markers).isComment line = true := by decide
  have below : scan limits {} lines = [⟨3, 3, 2⟩, ⟨4, 8, 4⟩] := by decide
  obtain ⟨moved, none⟩ := scan_below_header limits {} header lines comments
  rw [below] at moved
  exact ⟨comments, below, moved, none⟩

theorem next_inHeader (m : Markers) (state : State) (line : Text) :
    (state.next m line).inHeader = (state.inHeader && m.isComment line) := by
  unfold State.next
  cases header : state.inHeader && m.isComment line with
  | false => rfl
  | true => exact (Bool.and_eq_true_iff.mp header).1

theorem after_inHeader (m : Markers) (state : State) (lines : List Text) :
    (state.after m lines).inHeader = (state.inHeader && lines.all m.isComment) := by
  induction lines generalizing state with
  | nil => exact (Bool.and_true _).symm
  | cons line rest ih =>
    change ((state.next m line).after m rest).inHeader = _
    rw [ih, next_inHeader, List.all_cons, Bool.and_assoc]

theorem next_closing {m : Markers} {state : State} {line : Text} (body : state.inHeader = false)
    (closing : m.isClosing line = true) : state.next m line = { inHeader := false } := by
  simp [State.next, body, closing]

theorem after_closing {m : Markers} {before : List Text}
    (body : ∃ line ∈ before, m.isComment line = false) {closing : Text}
    (closes : m.isClosing closing = true) :
    State.after m {} (before ++ [closing]) = { inHeader := false } := by
  have ended : (State.after m {} before).inHeader = false := by
    rw [after_inHeader, Bool.true_and, List.all_eq_false]
    obtain ⟨line, member, code⟩ := body
    exact ⟨line, member, by simp [code]⟩
  rw [State.after, List.foldl_append]
  exact next_closing ended closes

/-- What is reported after a closing line does not depend on the lines before it. -/
theorem scan_after_closing (limits : Limits) {m : Markers} {before : List Text}
    (body : ∃ line ∈ before, m.isComment line = false) {closing : Text}
    (closes : m.isClosing closing = true) (rest : List Text) :
    (scan limits m (before ++ [closing] ++ rest)).filter
        (fun o => decide (before.length + 1 < o.line)) =
      scanFrom limits m { inHeader := false } (before.length + 2) rest := by
  have count : 1 + (before ++ [closing]).length = before.length + 2 := by
    simp only [List.length_append, List.length_singleton]
    omega
  rw [scan, scanFrom_append, after_closing body closes, count, List.filter_append]
  have first : (scanFrom limits m {} 1 (before ++ [closing])).filter
      (fun o => decide (before.length + 1 < o.line)) = [] := by
    apply List.filter_eq_nil_iff.mpr
    intro o reported
    have place := scanFrom_within limits m {} 1 (before ++ [closing]) o reported
    rw [decide_eq_true_eq]
    omega
  have second : (scanFrom limits m { inHeader := false } (before.length + 2) rest).filter
      (fun o => decide (before.length + 1 < o.line)) =
        scanFrom limits m { inHeader := false } (before.length + 2) rest := by
    apply List.filter_eq_self.mpr
    intro o reported
    have place := scanFrom_within limits m { inHeader := false } (before.length + 2) rest o reported
    rw [decide_eq_true_eq]
    omega
  rw [first, second, List.nil_append]

/-- Two files that agree from a closing line on, with their headers ended before it, have the same
overlong lines after it, however different they are above it. -/
theorem scan_resumes_after_closing (limits : Limits) (m : Markers) (before before' : List Text)
    (closing : Text) (rest : List Text) (level : before.length = before'.length)
    (body : ∃ line ∈ before, m.isComment line = false)
    (body' : ∃ line ∈ before', m.isComment line = false) (closes : m.isClosing closing = true) :
    (scan limits m (before ++ [closing] ++ rest)).filter
        (fun o => decide (before.length + 1 < o.line)) =
      (scan limits m (before' ++ [closing] ++ rest)).filter
        (fun o => decide (before.length + 1 < o.line)) := by
  have other := scan_after_closing limits body' closes rest
  rw [← level] at other
  rw [scan_after_closing limits body closes rest, other]

theorem scan_resumes_after_closing_stray :
    let limits : Limits := { code := 5, docs := 3 }
    let stray := ["x", "\"\"\"stray"].map String.toList
    let plain := ["#", "y"].map String.toList
    let closing := "a = \"\"\"  ".toList
    let rest := ["long = 1"].map String.toList
    let later := fun o : Overlong => decide (stray.length + 1 < o.line)
    ((∃ line ∈ stray, ({} : Markers).isComment line = false) ∧
      (∃ line ∈ plain, ({} : Markers).isComment line = false) ∧
      ({} : Markers).isClosing closing = true) ∧
    scan limits {} (stray ++ [closing] ++ rest) ≠ scan limits {} (plain ++ [closing] ++ rest) ∧
    (scan limits {} (stray ++ [closing] ++ rest)).filter later = [⟨4, 8, 5⟩] ∧
    (scan limits {} (stray ++ [closing] ++ rest)).filter later =
      (scan limits {} (plain ++ [closing] ++ rest)).filter later := by
  intro limits stray plain closing rest later
  have body : ∃ line ∈ stray, ({} : Markers).isComment line = false := by decide
  have body' : ∃ line ∈ plain, ({} : Markers).isComment line = false := by decide
  have closes : ({} : Markers).isClosing closing = true := by decide
  refine ⟨⟨body, body', closes⟩, by decide, by decide, ?_⟩
  exact scan_resumes_after_closing limits {} stray plain closing rest rfl body body' closes

end Line

end LineGauge
