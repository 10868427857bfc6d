import LineGauge.Line.Scan

/-! The ends of lines. A text is its lines written one after another, each with one of three ends,
and there is a single way to see it so: only a CR LF could be read as two ends instead of one, which
a layout rules out. The lines of a text are those of its layout whatever the ends are, so a scan
never depends on them. -/
namespace LineGauge.Line

inductive Ending where
  | lf
  | crlf
  | cr
  deriving DecidableEq, Repr

def Ending.text : Ending → Text
  | .lf => ['\n']
  | .crlf => ['\r', '\n']
  | .cr => ['\r']

/-- A line as it stands in a file; the last one may lack its end. -/
structure Physical where
  line : Text
  ending : Option Ending
  deriving DecidableEq, Repr

namespace Physical

def text (w : Physical) : Text := w.line ++ w.ending.elim [] Ending.text

/-- The line with this end, if it has one at all. -/
def endWith (e : Ending) (w : Physical) : Physical := { w with ending := w.ending.map fun _ => e }

end Physical

def textOf (ws : List Physical) : Text := ws.flatMap Physical.text

/-- No line holds a character that ends lines, only the last one may lack its end, and only if it is
not empty, and no lone CR stands right before an empty line that ends with LF. -/
def IsLayout : List Physical → Prop
  | [] => True
  | w :: rest =>
    (∀ c ∈ w.line, isEnd c = false) ∧
    (w.ending = none → w.line ≠ [] ∧ rest = []) ∧
    (w.ending = some .cr → rest.head? ≠ some ⟨[], some .lf⟩) ∧
    IsLayout rest

/-- Puts a character in front of the first line. -/
def startWith (c : Char) : List Physical → List Physical
  | [] => [⟨[c], none⟩]
  | w :: ws => { w with line := c :: w.line } :: ws

/-- The layout of a text, read off its characters. -/
def layoutOf : Text → List Physical
  | [] => []
  | '\r' :: '\n' :: t => ⟨[], some .crlf⟩ :: layoutOf t
  | '\r' :: t => ⟨[], some .cr⟩ :: layoutOf t
  | '\n' :: t => ⟨[], some .lf⟩ :: layoutOf t
  | c :: t => startWith c (layoutOf t)

theorem textOf_startWith (c : Char) (ws : List Physical) :
    textOf (startWith c ws) = c :: textOf ws := by
  cases ws <;> rfl

theorem textOf_layoutOf (t : Text) : textOf (layoutOf t) = t := by
  fun_induction layoutOf t with
  | case1 => rfl
  | case2 t ih => exact congrArg (['\r', '\n'] ++ ·) ih
  | case3 t _ ih => exact congrArg ('\r' :: ·) ih
  | case4 t ih => exact congrArg ('\n' :: ·) ih
  | case5 c t _ _ _ ih => rw [textOf_startWith, ih]

theorem isLayout_startWith {c : Char} (plain : isEnd c = false) {ws : List Physical}
    (layout : IsLayout ws) : IsLayout (startWith c ws) := by
  cases ws with
  | nil => simp [startWith, IsLayout, plain]
  | cons w rest =>
    obtain ⟨free, unended, apart, later⟩ := layout
    refine ⟨List.forall_mem_cons.mpr ⟨plain, free⟩, ?_, apart, later⟩
    intro none
    exact ⟨List.cons_ne_nil c w.line, (unended none).2⟩

theorem textOf_starts_lf {ws : List Physical} (layout : IsLayout ws) :
    (∃ t, textOf ws = '\n' :: t) ↔ ws.head? = some ⟨[], some .lf⟩ := by
  match ws, layout with
  | [], _ => simp [textOf]
  | ⟨[], none⟩ :: rest, ⟨_, unended, _⟩ => exact absurd rfl (unended rfl).1
  | ⟨[], some e⟩ :: rest, _ => cases e <;> simp [textOf, Physical.text, Ending.text]
  | ⟨c :: line, e⟩ :: rest, ⟨free, _⟩ =>
    have plain : c ≠ '\n' := by
      rintro rfl
      exact absurd (free '\n' List.mem_cons_self) (by decide)
    simp [textOf, Physical.text, plain]

theorem isLayout_layoutOf (t : Text) : IsLayout (layoutOf t) := by
  fun_induction layoutOf t with
  | case1 => trivial
  | case2 t ih => simp [IsLayout, ih]
  | case3 t single ih =>
    have apart : (layoutOf t).head? ≠ some ⟨[], some .lf⟩ := by
      rw [Ne, ← textOf_starts_lf ih, textOf_layoutOf]
      rintro ⟨rest, same⟩
      exact single rest same
    simp [IsLayout, apart, ih]
  | case4 t ih => simp [IsLayout, ih]
  | case5 c t _ cr lf ih =>
    apply isLayout_startWith _ ih
    simp_all [isEnd]

theorem layoutOf_plain {c : Char} (plain : isEnd c = false) (t : Text) :
    layoutOf (c :: t) = startWith c (layoutOf t) := by
  obtain ⟨lf, cr⟩ : c ≠ '\n' ∧ c ≠ '\r' := by simpa [isEnd] using plain
  rw [layoutOf] <;> simp_all

theorem layoutOf_line {line : Text} (free : ∀ c ∈ line, isEnd c = false) (t : Text) :
    layoutOf (line ++ t) = line.foldr startWith (layoutOf t) := by
  induction line with
  | nil => rfl
  | cons c line ih =>
    obtain ⟨plain, others⟩ := List.forall_mem_cons.mp free
    rw [List.cons_append, layoutOf_plain plain, ih others, List.foldr_cons]

theorem foldr_startWith (line : Text) (w : Physical) (ws : List Physical) :
    line.foldr startWith (w :: ws) = { w with line := line ++ w.line } :: ws := by
  induction line with
  | nil => rfl
  | cons c line ih => rw [List.foldr_cons, ih, startWith, List.cons_append]

theorem foldr_startWith_nil {line : Text} (some : line ≠ []) :
    line.foldr startWith [] = [⟨line, none⟩] := by
  have whole := List.dropLast_concat_getLast some
  have last : [line.getLast some].foldr startWith [] = [⟨[line.getLast some], none⟩] := rfl
  rw [← whole, List.foldr_append, whole, last, foldr_startWith, whole]

theorem layoutOf_ended {e : Ending} {t : Text} (apart : e = .cr → ∀ rest, t ≠ '\n' :: rest) :
    layoutOf (e.text ++ t) = ⟨[], some e⟩ :: layoutOf t := by
  cases e with
  | lf => rfl
  | crlf => rfl
  | cr =>
    change layoutOf ('\r' :: t) = _
    rw [layoutOf]
    exact apart rfl

theorem layoutOf_textOf {ws : List Physical} (layout : IsLayout ws) :
    layoutOf (textOf ws) = ws := by
  induction ws with
  | nil => rfl
  | cons w rest ih =>
    obtain ⟨free, unended, apart, later⟩ := layout
    have head : textOf (w :: rest) = w.line ++ (w.ending.elim [] Ending.text ++ textOf rest) := by
      simp [textOf, Physical.text]
    obtain ⟨line, ending⟩ := w
    rw [head, layoutOf_line free]
    cases ending with
    | none =>
      obtain ⟨some, rfl⟩ := unended rfl
      exact foldr_startWith_nil some
    | some e =>
      have next : e = .cr → ∀ t, textOf rest ≠ '\n' :: t := by
        rintro rfl t same
        exact apart rfl ((textOf_starts_lf later).mp ⟨t, same⟩)
      simp only [Option.elim_some]
      rw [layoutOf_ended next, foldr_startWith, ih later, List.append_nil]

theorem isLayout_endWith (e : Ending) {ws : List Physical} (layout : IsLayout ws) :
    IsLayout (ws.map (Physical.endWith e)) := by
  induction ws with
  | nil => trivial
  | cons w rest ih =>
    obtain ⟨free, unended, apart, later⟩ := layout
    refine ⟨free, ?_, ?_, ih later⟩
    · intro none
      obtain ⟨some, last⟩ := unended (Option.map_eq_none_iff.mp none)
      exact ⟨some, by rw [last, List.map_nil]⟩
    · intro cr next
      -- every end is the same now, so no LF is left to follow a CR
      obtain ⟨_, _, rfl⟩ := Option.map_eq_some_iff.mp cr
      rw [List.head?_map, Option.map_eq_some_iff] at next
      obtain ⟨v, _, ended⟩ := next
      cases given : v.ending <;> simp [Physical.endWith, given] at ended

theorem unifyEnds_cons {c : Char} {t : Text} (apart : ∀ rest, c = '\r' → t ≠ '\n' :: rest) :
    unifyEnds (c :: t) = c :: unifyEnds t := by
  rw [unifyEnds]
  exact apart

theorem dropFinalEmpty_cons {α : Type} (p : List α) {ps : List (List α)} (more : ps ≠ []) :
    dropFinalEmpty (p :: ps) = p :: dropFinalEmpty ps := by
  obtain ⟨q, qs, rfl⟩ := List.exists_cons_of_ne_nil more
  rfl

theorem ofText_end {c : Char} (ends : isEnd c = true) {t : Text}
    (apart : ∀ rest, c = '\r' → t ≠ '\n' :: rest) : ofText (c :: t) = [] :: ofText t := by
  unfold ofText
  rw [unifyEnds_cons apart, pieces, if_pos ends, dropFinalEmpty_cons _ (pieces_ne_nil _ _)]

theorem ofText_lf (t : Text) : ofText ('\n' :: t) = [] :: ofText t := by
  apply ofText_end rfl
  intro rest same
  exact absurd same (by decide)

theorem ofText_crlf (t : Text) : ofText ('\r' :: '\n' :: t) = [] :: ofText t := ofText_lf t

theorem ofText_plain {c : Char} (plain : isEnd c = false) (t : Text) :
    ofText (c :: t) = match ofText t with
      | [] => [[c]]
      | line :: lines => (c :: line) :: lines := by
  have apart : ∀ rest, c = '\r' → t ≠ '\n' :: rest := by
    rintro rest rfl
    exact absurd plain (by decide)
  obtain ⟨p, ps, split⟩ := List.exists_cons_of_ne_nil (pieces_ne_nil isEnd (unifyEnds t))
  unfold ofText
  rw [unifyEnds_cons apart, pieces, if_neg (by simp [plain]), split]
  cases ps with
  | nil => cases p <;> rfl
  | cons q qs => rfl

theorem ofText_layoutOf (t : Text) : ofText t = (layoutOf t).map (·.line) := by
  fun_induction layoutOf t with
  | case1 => rfl
  | case2 t ih => rw [ofText_crlf, ih, List.map_cons]
  | case3 t single ih =>
    rw [ofText_end rfl fun rest _ => single rest, ih, List.map_cons]
  | case4 t ih => rw [ofText_lf, ih, List.map_cons]
  | case5 c t _ cr lf ih =>
    have plain : isEnd c = false := by simp_all [isEnd]
    rw [ofText_plain plain, ih]
    cases layoutOf t <;> rfl

theorem ofText_textOf {ws : List Physical} (layout : IsLayout ws) :
    ofText (textOf ws) = ws.map (·.line) := by
  rw [ofText_layoutOf, layoutOf_textOf layout]

/-- A text has exactly one layout. Its scan is that of the lines of the layout, and it stays the
same if all ends of lines, whatever they are, are replaced by one and the same. -/
theorem scanText_mixed_endings (limits : Limits) (m : Markers) (content : Text) :
    ∃ ws, (∀ vs, IsLayout vs ∧ textOf vs = content ↔ vs = ws) ∧
      scanText limits m content = scan limits m (ws.map (·.line)) ∧
      ∀ e, scanText limits m (textOf (ws.map (Physical.endWith e))) =
        scanText limits m content := by
  have layout := isLayout_layoutOf content
  have own : scanText limits m content = scan limits m ((layoutOf content).map (·.line)) :=
    congrArg (scan limits m) (ofText_layoutOf content)
  refine ⟨layoutOf content, ?_, own, ?_⟩
  · intro vs
    constructor
    · rintro ⟨other, rfl⟩
      exact (layoutOf_textOf other).symm
    · rintro rfl
      exact ⟨layout, textOf_layoutOf content⟩
  · intro e
    have lines : ((layoutOf content).map (Physical.endWith e)).map (·.line) =
        (layoutOf content).map (·.line) := by
      rw [List.map_map]
      rfl
    rw [own, scanText, ofText_textOf (isLayout_endWith e layout), lines]

example : layoutOf "a\r\r\n\n\rb".toList =
    [⟨['a'], some .cr⟩, ⟨[], some .crlf⟩, ⟨[], some .lf⟩, ⟨[], some .cr⟩, ⟨['b'], none⟩] := by
  decide

end LineGauge.Line
