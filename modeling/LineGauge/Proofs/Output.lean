import LineGauge.Proofs.Receiver
import LineGauge.Proofs.Utf8
import LineGauge.Report.Output

/-! When a report can be written. As text it always can; as JSON it can unless one of its paths is
not UTF-8. What is written reaches the receiver whole, or up to the limit of the receiver, however
many calls that takes. -/
namespace LineGauge

theorem mapM_eq_none {α β : Type} {f : α → Option β} {as : List α} :
    as.mapM f = none ↔ ∃ a ∈ as, f a = none := by
  induction as with
  | nil => simp
  | cons a as ih =>
    rw [List.mapM_cons]
    cases first : f a with
    | none => simp [first]
    | some b =>
      cases later : as.mapM f with
      | none => simpa [first, later] using ih.mp later
      | some bs =>
        rw [later] at ih
        simpa [first] using ih

namespace Report

/-- A problem or a missing root has a path that is not UTF-8. -/
def HasRawPath (r : Report) : Prop :=
  (∃ p ∈ r.problems, p.path.text? = none) ∨ ∃ root ∈ r.missing, root.text? = none

instance (r : Report) : Decidable r.HasRawPath := inferInstanceAs (Decidable (_ ∨ _))

/-- The report has no output in the format. -/
def Unwritable (r : Report) (format : Format) : Prop := format = .json ∧ r.HasRawPath

instance (r : Report) (format : Format) : Decidable (r.Unwritable format) :=
  inferInstanceAs (Decidable (_ ∧ _))

theorem document?_eq_none {r : Report} : r.document? = none ↔ r.HasRawPath := by
  have problem (p : Problem) : problemValue? p = none ↔ p.path.text? = none := by
    simp [problemValue?, pathValue?]
  have root (p : Path) : pathValue? p = none ↔ p.text? = none := by
    simp [pathValue?]
  have problems : r.problems.mapM problemValue? = none ↔ ∃ p ∈ r.problems, p.path.text? = none := by
    simp only [mapM_eq_none, problem]
  have missing : r.missing.mapM pathValue? = none ↔ ∃ root ∈ r.missing, root.text? = none := by
    simp only [mapM_eq_none, root]
  rw [HasRawPath, ← problems, ← missing, document?, Option.map_eq_none_iff, value?]
  cases r.problems.mapM problemValue? with
  | none => simp
  | some ps => cases r.missing.mapM pathValue? <;> simp

/-- What a report looks like in a format, if it has a form in it. -/
def rendering? (format : Format) (coloured : Bool) (r : Report) : Option Text :=
  match format with
  | .text => some (r.render coloured)
  | .json => r.document?

theorem output_rendering {r : Report} {format : Format} {coloured : Bool} {rendering : Text}
    (shown : r.rendering? format coloured = some rendering) :
    r.output format coloured =
      .ok (if format = .text ∧ r.isClean = true then [] else rendering ++ ['\n']) := by
  unfold output parts
  cases format with
  | text =>
    cases shown
    cases clean : r.isClean <;> simp [Except.map]
  | json =>
    have found : r.document? = some rendering := shown
    simp [found, Except.map]

theorem rendering?_writable {r : Report} {format : Format} (writable : ¬ r.Unwritable format)
    (coloured : Bool) : ∃ rendering, r.rendering? format coloured = some rendering := by
  cases format with
  | text => exact ⟨_, rfl⟩
  | json =>
    have readable : r.document? ≠ none := fun none => writable ⟨rfl, document?_eq_none.mp none⟩
    exact Option.ne_none_iff_exists'.mp readable

theorem output_unwritable {r : Report} {format : Format} (unwritable : r.Unwritable format)
    (coloured : Bool) : r.output format coloured = .error .unreadablePath := by
  obtain ⟨rfl, raw⟩ := unwritable
  rw [output, parts, document?_eq_none.mpr raw]
  rfl

theorem output_writable {r : Report} {format : Format} (writable : ¬ r.Unwritable format)
    (coloured : Bool) : ∃ text, r.output format coloured = .ok text := by
  obtain ⟨rendering, shown⟩ := rendering?_writable writable coloured
  exact ⟨_, output_rendering shown⟩

theorem send_eq (format : Format) (coloured : Bool) (w : Receiver) (r : Report) :
    r.send format coloured w =
      match r.output format coloured with
      | .error e => (w, .error e)
      | .ok text =>
        (w.add (w.front (Utf8.encode text)),
          if w.fits (Utf8.encode text) then .ok () else .error .brokenPipe) := by
  unfold send output
  cases r.parts format coloured with
  | error e => rfl
  | ok texts =>
    simp only [Receiver.offerAll_eq, ← Utf8.encode_flatten, Except.map]
    cases w.fits (Utf8.encode texts.flatten) <;> rfl

theorem write_output {r : Report} {format : Format} {coloured : Bool} {text : Text}
    (written : r.output format coloured = .ok text) :
    r.write format coloured none = (Utf8.encode text, .ok ()) := by
  rw [write, send_eq, written]
  rfl

/-- A report without a form in the wanted format is refused before a byte is written. Any other
reaches the receiver whole if there is room for it; otherwise the receiver is left with as many of
its first bytes as there is room for, and the writing fails. It does not matter how many bytes the
receiver takes at a time. -/
theorem send_whole_or_beginning (r : Report) (format : Format) (coloured : Bool)
    (appetite : Bytes → Bytes → Nat) (n : Nat) :
    let sent := r.send format coloured { room := some n, appetite }
    (r.Unwritable format → sent.1.taken = [] ∧ sent.2 = .error .unreadablePath) ∧
    (¬ r.Unwritable format →
      ∃ rendering, r.rendering? format coloured = some rendering ∧
        let whole :=
          if format = .text ∧ r.isClean = true then [] else Utf8.encode (rendering ++ ['\n'])
        (whole.length ≤ n → sent.1.taken = whole ∧ sent.2 = .ok ()) ∧
        (n < whole.length → sent.1.taken = whole.take n ∧ sent.2 = .error .brokenPipe)) := by
  intro sent
  constructor
  · intro unwritable
    simp only [sent, send_eq, output_unwritable unwritable coloured, and_self]
  · intro writable
    obtain ⟨rendering, shown⟩ := rendering?_writable writable coloured
    refine ⟨rendering, shown, ?_⟩
    intro whole
    have bytes : Utf8.encode (if format = .text ∧ r.isClean = true then [] else
        rendering ++ ['\n']) = whole := by
      simp only [whole]
      split <;> rfl
    simp only [sent, send_eq, output_rendering shown, bytes]
    constructor
    · intro enough
      exact ⟨List.take_of_length_le enough, if_pos (decide_eq_true enough)⟩
    · intro short
      have beyond : ¬ decide (whole.length ≤ n) = true := by
        rw [decide_eq_true_eq]
        exact Nat.not_le.mpr short
      exact ⟨rfl, if_neg beyond⟩

theorem send_whole_or_beginning_cut :
    let problem : Problem := { path := .ofText ['/', 'ä'], line := 1, observed := 80, limit := 79 }
    let r : Report := { problems := [problem] }
    let raw : Report := { r with missing := [⟨[0xFF]⟩] }
    let room (n : Nat) : Receiver := { room := some n, appetite := fun taken _ => taken.length % 2 }
    (¬ r.Unwritable .text ∧ raw.Unwritable .json) ∧
      (r.send .text false (room 2)).1.taken = [0x2F, 0xC3] ∧
      (r.send .text false (room 2)).2 = .error .brokenPipe ∧
      (r.send .text true (room 99)).2 = .ok () ∧
      (raw.send .json false (room 99)).1.taken = [] := by
  intro problem r raw room
  have writable : ¬ r.Unwritable .text := by decide
  have unwritable : raw.Unwritable .json := by decide
  obtain ⟨_, shown, _, cut⟩ := (send_whole_or_beginning r .text false _ 2).2 writable
  cases shown
  obtain ⟨taken, failed⟩ := cut (by decide)
  obtain ⟨_, shown, whole, _⟩ := (send_whole_or_beginning r .text true _ 99).2 writable
  cases shown
  refine ⟨⟨writable, unwritable⟩, taken, failed, (whole (by decide)).2, ?_⟩
  exact ((send_whole_or_beginning raw .json false _ 99).1 unwritable).1

end Report

end LineGauge
