import LineGauge.Proofs.Blanks
import LineGauge.Proofs.Steps

/-! The margins of a line. A scan sees of a line only what kind of line it is and how long it is, so
two files whose lines agree in kind, and in length but for a fixed number of characters, pass
through the same states. Blanks at the end of lines change neither kind nor length, and the
same indentation in front of all lines only adds to the lengths, blank lines excepted. -/
namespace LineGauge

def Limits.widen (extra : Nat) (limits : Limits) : Limits :=
  { code := limits.code + extra, docs := limits.docs + extra }

def Overlong.widen (extra : Nat) (o : Overlong) : Overlong :=
  { o with observed := o.observed + extra, limit := o.limit + extra }

namespace Line

/-- A line and what stands in its place under other markers: of the same kind, and longer by `extra`
characters unless both are blank. -/
structure Alike (m m' : Markers) (extra : Nat) (line line' : Text) : Prop where
  comment : m'.isComment line' = m.isComment line
  opening : m'.isOpening line' = m.isOpening line
  closing : m'.isClosing line' = m.isClosing line
  length : measure line' = measure line + extra ∨ (measure line = 0 ∧ measure line' = 0)

section
variable {m m' : Markers} {extra : Nat} {line line' : Text} (alike : Alike m m' extra line line')
include alike

theorem Alike.next (state : State) : state.next m' line' = state.next m line := by
  simp only [State.next, alike.comment, alike.opening, alike.closing]

theorem Alike.limitFor_widen (limits : Limits) (inDocs : Bool) :
    limitFor (limits.widen extra) m' inDocs line' = limitFor limits m inDocs line + extra := by
  simp only [limitFor, alike.comment]
  split <;> rfl

theorem Alike.scanFrom_widen (limits : Limits) (state : State) (number : Nat) :
    scanFrom (limits.widen extra) m' state number [line'] =
      (scanFrom limits m state number [line]).map (Overlong.widen extra) := by
  simp only [scanFrom, alike.comment, alike.opening, alike.limitFor_widen]
  split
  · rfl
  · generalize limitFor limits m (state.inDocs || m.isOpening line) line = bound
    by_cases long : bound < measure line
    · have length : measure line' = measure line + extra := by
        have lengths := alike.length
        omega
      rw [if_pos long, length, if_pos (Nat.add_lt_add_right long extra)]
      rfl
    · have short : ¬ bound + extra < measure line' := by
        have lengths := alike.length
        omega
      rw [if_neg long, if_neg short]
      rfl

end

theorem scanFrom_alike {m m' : Markers} {extra : Nat} {f : Text → Text}
    (alike : ∀ line, Alike m m' extra line (f line)) (limits : Limits) (state : State)
    (number : Nat) (lines : List Text) :
    scanFrom (limits.widen extra) m' state number (lines.map f) =
      (scanFrom limits m state number lines).map (Overlong.widen extra) := by
  induction lines generalizing state number with
  | nil => rfl
  | cons line rest ih =>
    rw [List.map_cons, scanFrom_cons, (alike line).scanFrom_widen, (alike line).next, ih,
      ← List.map_append, ← scanFrom_cons]

theorem scan_alike {m m' : Markers} {f : Text → Text} (alike : ∀ line, Alike m m' 0 line (f line))
    (limits : Limits) (lines : List Text) :
    scan limits m' (lines.map f) = scan limits m lines := by
  -- to widen by nothing is to change nothing
  have same := scanFrom_alike alike limits {} 1 lines
  exact same.trans (List.map_id _)

theorem isComment_trimEnd {m : Markers} (comment : m.comment.Solid) (line : Text) :
    m.isComment line.trimEnd = m.isComment line := by
  obtain ⟨blanks, blank, start⟩ := Text.trimStart_eq_append line
  unfold Markers.isComment
  rw [start, Text.isPrefixOf_append_blanks comment blank]

theorem opensWith_append_blanks {m : Markers} (delimiter : m.delimiter.Solid)
    {leader blanks : Text} (solid : leader.Solid) (blank : blanks.Blank) (text : Text) :
    m.opensWith (text ++ blanks) leader = m.opensWith text leader := by
  unfold Markers.opensWith
  rw [Text.dropFolded?_append_blanks solid blank, Option.any_map]
  simp only [Text.isPrefixOf_append_blanks delimiter blank]

theorem isOpening_trimEnd {m : Markers} (delimiter : m.delimiter.Solid)
    (leaders : ∀ leader ∈ m.leaders, leader.Solid) (line : Text) :
    m.isOpening line.trimEnd = m.isOpening line := by
  obtain ⟨blanks, blank, start⟩ := Text.trimStart_eq_append line
  have bare : Text.Solid [] := by
    intro c member
    cases member
  unfold Markers.isOpening
  rw [start, opensWith_append_blanks delimiter bare blank]
  congr 1
  rw [Bool.eq_iff_iff, List.any_eq_true, List.any_eq_true]
  apply exists_congr
  intro leader
  apply and_congr_right
  intro member
  rw [opensWith_append_blanks delimiter (leaders leader member) blank]

theorem alike_trimEnd {m : Markers} (comment : m.comment.Solid) (delimiter : m.delimiter.Solid)
    (leaders : ∀ leader ∈ m.leaders, leader.Solid) (line : Text) :
    Alike m m 0 line line.trimEnd := by
  constructor
  · exact isComment_trimEnd comment line
  · exact isOpening_trimEnd delimiter leaders line
  · unfold Markers.isClosing
    rw [Text.trimEnd_trimEnd]
  · left
    exact congrArg List.length (Text.trimEnd_trimEnd line)

/-- Blanks at the end of lines never matter to markers that hold no blanks: two files whose lines
are the same without them have the same overlong lines. -/
theorem scan_trailing_blanks (limits : Limits) (m : Markers) (comment : m.comment.Solid)
    (delimiter : m.delimiter.Solid) (leaders : ∀ leader ∈ m.leaders, leader.Solid)
    (lines lines' : List Text) (same : lines.map Text.trimEnd = lines'.map Text.trimEnd) :
    scan limits m lines = scan limits m lines' := by
  have alike := alike_trimEnd comment delimiter leaders
  rw [← scan_alike alike, same, scan_alike alike]

theorem scan_trailing_blanks_mixed :
    let limits : Limits := { code := 4, docs := 3 }
    let m : Markers := {}
    let lines := ["# header", "x", "rB\"\"\"doc", "end\"\"\"", "", "long = 1"].map String.toList
    let lines' := ["# header\t", "x\u3000", "rB\"\"\"doc ", "end\"\"\"\u2028 ", " \u0085",
      "long = 1"].map String.toList
    (m.comment.Solid ∧ m.delimiter.Solid ∧ ∀ leader ∈ m.leaders, leader.Solid) ∧
      lines.map Text.trimEnd = lines'.map Text.trimEnd ∧ lines ≠ lines' ∧
      scan limits m lines = [⟨3, 8, 3⟩, ⟨4, 6, 3⟩, ⟨6, 8, 4⟩] ∧
      scan limits m lines = scan limits m lines' := by
  intro limits m lines lines'
  have comment : m.comment.Solid := by decide
  have delimiter : m.delimiter.Solid := by decide
  have leaders : ∀ leader ∈ m.leaders, leader.Solid := by decide
  have same : lines.map Text.trimEnd = lines'.map Text.trimEnd := by decide
  refine ⟨⟨comment, delimiter, leaders⟩, same, by decide, by decide, ?_⟩
  exact scan_trailing_blanks limits m comment delimiter leaders lines lines' same

theorem alike_indented {m : Markers} (delimiter : m.delimiter.Solid) {indent : Text}
    (blank : indent.Blank) (line : Text) : Alike m m indent.length line (indent ++ line) := by
  have trimmed := Text.trimEnd_indented blank line
  constructor
  · unfold Markers.isComment
    rw [Text.trimStart_indented blank]
  · unfold Markers.isOpening
    rw [Text.trimStart_indented blank]
  · unfold Markers.isClosing
    rcases trimmed with ⟨none, still⟩ | more
    · rw [none, still]
    · rw [more, Text.isSuffixOf_indented delimiter blank]
  · unfold measure
    rcases trimmed with ⟨none, still⟩ | more
    · right
      rw [none, still]
      exact ⟨rfl, rfl⟩
    · left
      rw [more, List.length_append, Nat.add_comm]

/-- Under limits that grow with it, an indentation of all lines only adds to the lengths and limits
that are reported: the same lines are overlong. -/
theorem scan_indented (limits : Limits) (m : Markers) (delimiter : m.delimiter.Solid)
    (indent : Text) (blank : indent.Blank) (lines : List Text) :
    scan (limits.widen indent.length) m (lines.map (indent ++ ·)) =
      (scan limits m lines).map (Overlong.widen indent.length) := by
  apply scanFrom_alike
  intro line
  exact alike_indented delimiter blank line

theorem scan_indented_block :
    let limits : Limits := { code := 4, docs := 3 }
    let m : Markers := {}
    let indent : Text := "\t\u3000".toList
    let lines := ["#", "", "\"\"\"doc", "\"\"\"", "long = 1"].map String.toList
    (m.delimiter.Solid ∧ indent.Blank) ∧
      scan limits m lines = [⟨3, 6, 3⟩, ⟨5, 8, 4⟩] ∧
      scan { code := 6, docs := 5 } m (lines.map (indent ++ ·)) = [⟨3, 8, 5⟩, ⟨5, 10, 6⟩] := by
  intro limits m indent lines
  have delimiter : m.delimiter.Solid := by decide
  have blank : indent.Blank := by decide
  have plain : scan limits m lines = [⟨3, 6, 3⟩, ⟨5, 8, 4⟩] := by decide
  have moved := scan_indented limits m delimiter indent blank lines
  rw [plain] at moved
  exact ⟨⟨delimiter, blank⟩, plain, moved⟩

end Line

end LineGauge
