import LineGauge.Receiver

/-! What a receiver is left with. However its calls divide what is offered, in the end it has taken
the bytes in their order up to its limit, and an offer fails exactly if it goes beyond that. So
offering the parts of an output one by one comes to offering the output as a whole. -/
namespace LineGauge.Receiver

/-- The bytes on offer that there is room for. -/
def front (w : Receiver) (bytes : Bytes) : Bytes :=
  match w.left with
  | none => bytes
  | some n => bytes.take n

def fits (w : Receiver) (bytes : Bytes) : Bool := w.left.all (bytes.length ≤ ·)

@[simp] theorem left_add (w : Receiver) (bytes : Bytes) :
    (w.add bytes).left = w.left.map (· - bytes.length) := by
  simp [left, add, Function.comp_def, Nat.sub_add_eq]

theorem add_add (w : Receiver) (first second : Bytes) :
    (w.add first).add second = w.add (first ++ second) := by
  simp [add]

theorem add_nil (w : Receiver) : w.add [] = w := by
  simp [add]

theorem fits_nil (w : Receiver) : w.fits [] = true := by
  simp [fits]

section
variable {w : Receiver} {bytes : Bytes}

theorem front_of_fits (fit : w.fits bytes = true) : w.front bytes = bytes := by
  unfold front
  cases limit : w.left with
  | none => rfl
  | some n =>
    simp only [fits, limit, Option.all_some, decide_eq_true_eq] at fit
    exact List.take_of_length_le fit

theorem append_fits (fit : w.fits bytes = true) (more : Bytes) :
    w.front (bytes ++ more) = bytes ++ (w.add bytes).front more ∧
      w.fits (bytes ++ more) = (w.add bytes).fits more := by
  simp only [front, fits, left_add] at *
  cases limit : w.left with
  | none => exact ⟨rfl, rfl⟩
  | some n =>
    simp only [limit, Option.all_some, decide_eq_true_eq] at fit
    constructor
    · simp [List.take_append, List.take_of_length_le fit]
    · simp only [Option.map_some, Option.all_some, List.length_append, decide_eq_decide]
      omega

theorem append_beyond (beyond : w.fits bytes = false) (more : Bytes) :
    w.front (bytes ++ more) = w.front bytes ∧ w.fits (bytes ++ more) = false := by
  simp only [front, fits] at *
  cases limit : w.left with
  | none =>
    rw [limit] at beyond
    cases beyond
  | some n =>
    simp only [limit, Option.all_some, decide_eq_false_iff_not, Nat.not_le] at beyond
    constructor
    · exact List.take_append_of_le_length (Nat.le_of_lt beyond)
    · simp only [Option.all_some, List.length_append, decide_eq_false_iff_not]
      omega

end

theorem fits_share (w : Receiver) (bytes : Bytes) :
    w.fits (bytes.take (w.share bytes)) = true := by
  unfold fits share
  cases w.left with
  | none => rfl
  | some n =>
    simp only [Option.all_some, List.length_take, decide_eq_true_eq]
    omega

theorem left_of_share {w : Receiver} {bytes : Bytes} (offered : 0 < bytes.length)
    (refused : ¬ 0 < w.share bytes) : w.left = some 0 := by
  unfold share at refused
  cases limit : w.left with
  | none =>
    simp only [limit] at refused
    omega
  | some n =>
    simp only [limit] at refused
    have full : n = 0 := by omega
    rw [full]

/-- The calls for one offer, whatever each of them takes, leave the receiver with the bytes that
there is room for, and they fail exactly if these are not all. -/
theorem offer_eq (w : Receiver) (bytes : Bytes) :
    w.offer bytes = (w.add (w.front bytes), w.fits bytes) := by
  fun_induction offer w bytes with
  | case1 w bytes _ n _ ih =>
    have whole : bytes.take n ++ bytes.drop n = bytes := List.take_append_drop n bytes
    obtain ⟨front, fits⟩ := append_fits (fits_share w bytes) (bytes.drop n)
    rw [whole] at front fits
    rw [ih, add_add, front, fits]
  | case2 w bytes offered n refused =>
    have full : w.left = some 0 := left_of_share offered refused
    have beyond : ¬ bytes.length ≤ 0 := Nat.not_le.mpr offered
    simp [front, fits, full, beyond, add_nil]
  | case3 w bytes empty =>
    cases List.length_eq_zero_iff.mp (Nat.eq_zero_of_not_pos empty)
    rw [front_of_fits (fits_nil w), fits_nil, add_nil]

theorem offerAll_eq (w : Receiver) (parts : List Bytes) :
    w.offerAll parts = (w.add (w.front parts.flatten), w.fits parts.flatten) := by
  fun_induction offerAll w parts with
  | case1 w => rw [List.flatten_nil, front_of_fits (fits_nil w), fits_nil, add_nil]
  | case2 w part parts w' taken ih =>
    rw [offer_eq] at taken
    obtain ⟨rfl, fit⟩ := Prod.mk.inj taken
    obtain ⟨front, fits⟩ := append_fits fit parts.flatten
    rw [ih, front_of_fits fit, add_add, List.flatten_cons, front, fits]
  | case3 w part parts w' refused =>
    rw [offer_eq] at refused
    obtain ⟨rfl, beyond⟩ := Prod.mk.inj refused
    obtain ⟨front, fits⟩ := append_beyond beyond parts.flatten
    rw [List.flatten_cons, front, fits]

end LineGauge.Receiver
