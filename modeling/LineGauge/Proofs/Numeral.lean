import Mathlib.Algebra.Group.Nat.Defs
import LineGauge.Number.Argument
import LineGauge.Proofs.Blanks
import LineGauge.Proofs.Json

/-! The grammar of the numbers a user can give. A reader multiplies and adds with its greatest value
as a limit at every digit, so a number that is read is the value of its digits and never one that
has wrapped around; leading zeros only repeat zero, and so they are never too many. -/
namespace LineGauge.Number

/-- A text of this value: a plus sign or none, and then one digit or more. -/
inductive Numeral : Text → Nat → Prop
  | plain {ds : Text} (some : ds ≠ []) (digits : ∀ c ∈ ds, c.isDigit = true) :
      Numeral ds (Nat.ofDigitChars 10 ds 0)
  | signed {ds : Text} (some : ds ≠ []) (digits : ∀ c ∈ ds, c.isDigit = true) :
      Numeral ('+' :: ds) (Nat.ofDigitChars 10 ds 0)

theorem le_ofDigitChars (n : Nat) (ds : Text) : n ≤ Nat.ofDigitChars 10 ds n := by
  have shifted : Nat.ofDigitChars 10 ds n = 10 ^ ds.length * n + Nat.ofDigitChars 10 ds 0 :=
    Nat.ofDigitChars_eq_ofDigitChars_zero
  have more : n ≤ 10 ^ ds.length * n := Nat.le_mul_of_pos_left n (Nat.pow_pos (by decide))
  omega

theorem readFrom_eq_ok {greatest n : Nat} (fits : n ≤ greatest) {t : Text} {m : Nat} :
    readFrom greatest n t = .ok m ↔
      (∀ c ∈ t, c.isDigit = true) ∧ Nat.ofDigitChars 10 t n = m ∧ m ≤ greatest := by
  induction t generalizing n with
  | nil =>
    constructor
    · intro read
      cases read
      exact ⟨nofun, rfl, fits⟩
    · rintro ⟨_, rfl, _⟩
      rfl
  | cons c t ih =>
    rw [List.forall_mem_cons, Nat.ofDigitChars_cons]
    by_cases digit : c.isDigit = true
    · have value : digit? c = some (c.toNat - '0'.toNat) := if_pos digit
      simp only [readFrom, value, digit, true_and]
      by_cases beyond : greatest < 10 * n + (c.toNat - '0'.toNat)
      · -- the digits that follow only make the value greater
        rw [if_pos beyond]
        constructor
        · intro read
          cases read
        · rintro ⟨_, whole, bounded⟩
          have grows := le_ofDigitChars (10 * n + (c.toNat - '0'.toNat)) t
          omega
      · rw [if_neg beyond]
        exact ih (Nat.not_lt.mp beyond)
    · have none : digit? c = none := if_neg digit
      simp only [readFrom, none]
      constructor
      · intro read
        cases read
      · rintro ⟨⟨same, _⟩, _⟩
        exact absurd same digit

theorem numeral_cons {c : Char} (unsigned : c ≠ '+') {t : Text} {n : Nat} :
    Numeral (c :: t) n ↔
      (∀ d ∈ c :: t, d.isDigit = true) ∧ Nat.ofDigitChars 10 (c :: t) 0 = n := by
  constructor
  · rintro (⟨_, digits⟩ | ⟨_, _⟩)
    · exact ⟨digits, rfl⟩
    · exact absurd rfl unsigned
  · rintro ⟨digits, rfl⟩
    exact .plain (List.cons_ne_nil c t) digits

theorem numeral_plus {t : Text} {n : Nat} :
    Numeral ('+' :: t) n ↔
      t ≠ [] ∧ (∀ d ∈ t, d.isDigit = true) ∧ Nat.ofDigitChars 10 t 0 = n := by
  constructor
  · rintro (⟨_, digits⟩ | ⟨filled, digits⟩)
    · exact absurd (digits '+' List.mem_cons_self) (by decide)
    · exact ⟨filled, digits, rfl⟩
  · rintro ⟨filled, digits, rfl⟩
    exact .signed filled digits

theorem read_eq_ok {greatest : Nat} {t : Text} {n : Nat} :
    read greatest t = .ok n ↔ Numeral t n ∧ n ≤ greatest := by
  unfold read
  split
  · constructor
    · intro read
      cases read
    · rintro ⟨⟨filled, _⟩, _⟩
      exact absurd rfl filled
  · rename_i c t
    rw [readFrom_eq_ok (Nat.zero_le greatest), numeral_plus]
    simp only [ne_eq, List.cons_ne_nil, not_false_eq_true, true_and, and_assoc]
  · rename_i filled unsigned
    cases t with
    | nil => exact absurd rfl filled
    | cons c t =>
      rw [readFrom_eq_ok (Nat.zero_le greatest)]
      by_cases plus : c = '+'
      · -- a sign with nothing after it
        subst plus
        cases t with
        | cons d t => exact absurd rfl (unsigned d t)
        | nil =>
          rw [numeral_plus]
          simp
      · rw [numeral_cons plus, and_assoc]

/-- What a reader accepts: the numbers between two bounds, in any spelling of the grammar with blanks
around it, among them the one that is written for a number. -/
structure ReadsExactly (reader : Text → Except Refusal Nat) (least greatest : Nat) : Prop where
  accepts (text : Text) (n : Nat) :
    reader text = .ok n ↔ Numeral text.trim n ∧ least ≤ n ∧ n ≤ greatest
  refuses (text : Text) :
    (∃ refusal, reader text = .error refusal) ↔
      ¬ ∃ n, Numeral text.trim n ∧ least ≤ n ∧ n ≤ greatest
  readsDecimal (n : Nat) : least ≤ n → n ≤ greatest → reader (decimal n) = .ok n

theorem numeral_decimal (n : Nat) : Numeral (decimal n) n := by
  have value : Nat.ofDigitChars 10 (decimal n) 0 = n :=
    Nat.ofDigitChars_toDigits (by decide) (by decide)
  have numeral : Numeral (decimal n) (Nat.ofDigitChars 10 (decimal n) 0) :=
    .plain Nat.toDigits_ne_nil (Json.decimal_digits n)
  rwa [value] at numeral

theorem isBlank_digit {c : Char} (digit : c.isDigit = true) : Text.isBlank c = false := by
  obtain ⟨low, high⟩ := Char.isDigit_iff_toNat.mp digit
  have bounds : 48 ≤ c.toNat ∧ c.toNat ≤ 57 := ⟨low, high⟩
  apply Text.isBlank_eq_false
  intro run member
  have apart : ∀ run ∈ Text.blankRuns, run.2 < 48 ∨ 57 < run.1 := by decide
  have := apart run member
  omega

theorem trim_decimal (n : Nat) : Text.trim (decimal n) = decimal n := by
  apply Text.trim_solid
  intro c member
  exact isBlank_digit (Json.decimal_digits n c member)

theorem readsExactly {reader : Text → Except Refusal Nat} {least greatest : Nat}
    (accepts : ∀ text n,
      reader text = .ok n ↔ Numeral text.trim n ∧ least ≤ n ∧ n ≤ greatest) :
    ReadsExactly reader least greatest where
  accepts := accepts
  refuses text := by
    constructor
    · rintro ⟨refusal, refused⟩ ⟨n, numeral⟩
      rw [(accepts text n).mpr numeral] at refused
      cases refused
    · intro foreign
      cases read : reader text with
      | error refusal => exact ⟨refusal, rfl⟩
      | ok n => exact absurd ⟨n, (accepts text n).mp read⟩ foreign
  readsDecimal n low high := by
    apply (accepts (decimal n) n).mpr
    rw [trim_decimal]
    exact ⟨numeral_decimal n, low, high⟩

/-- A number that is read within bounds and then put to a test of its own. -/
theorem tested_eq_ok {greatest : Nat} {t : Text} {n : Nat} {refuse : Fault → Refusal}
    {refusal : Refusal} {bad : Nat → Prop} [DecidablePred bad] :
    (match read greatest t with
      | .error fault => .error (refuse fault)
      | .ok m => if bad m then .error refusal else .ok m) = Except.ok n ↔
      (Numeral t n ∧ n ≤ greatest) ∧ ¬ bad n := by
  rw [← read_eq_ok]
  cases read greatest t with
  | error fault => simp
  | ok m =>
    by_cases isBad : bad m
    · simp only [if_pos isBad, reduceCtorEq, Except.ok.injEq, false_iff, not_and, not_not]
      rintro rfl
      exact isBad
    · simp only [if_neg isBad, Except.ok.injEq, iff_self_and]
      rintro rfl
      exact isBad

theorem atLeast_eq_ok {least : Nat} {text : Text} {n : Nat} :
    atLeast least text = .ok n ↔ Numeral text.trim n ∧ least ≤ n ∧ n ≤ greatestWord := by
  have tested : atLeast least text = .ok n ↔ _ := tested_eq_ok
  rw [tested, Nat.not_lt, and_assoc, and_comm (a := n ≤ greatestWord)]

theorem level_eq_ok {text : Text} {n : Nat} :
    level text = .ok n ↔ Numeral text.trim n ∧ 0 ≤ n ∧ n ≤ 2 := by
  have tested : level text = .ok n ↔ _ := tested_eq_ok
  have byte : 2 ≤ greatestByte := by decide
  rw [tested]
  constructor
  · rintro ⟨⟨numeral, _⟩, small⟩
    exact ⟨numeral, Nat.zero_le n, Nat.not_lt.mp small⟩
  · rintro ⟨numeral, _, small⟩
    exact ⟨⟨numeral, Nat.le_trans small byte⟩, Nat.not_lt.mpr small⟩

theorem numeral_unsigned {t : Text} {n : Nat} (numeral : Numeral t n) : t.head? ≠ some '-' := by
  intro minus
  cases numeral with
  | plain _ digits => exact absurd (digits '-' (List.mem_of_head? minus)) (by decide)
  | signed => cases minus

theorem length_eq_ok {text : Text} {n : Nat} :
    length text = .ok n ↔ Numeral text.trim n ∧ 0 ≤ n ∧ n ≤ greatestWord := by
  unfold length
  split
  · rename_i minus
    constructor
    · intro read
      cases read
    · rintro ⟨numeral, _⟩
      exact absurd (beq_iff_eq.mp minus) (numeral_unsigned numeral)
  · exact atLeast_eq_ok

theorem length_readsExactly : ReadsExactly length 0 (2 ^ 64 - 1) :=
  readsExactly fun _ _ => length_eq_ok

theorem positive_readsExactly : ReadsExactly positive 1 (2 ^ 64 - 1) :=
  readsExactly fun _ _ => atLeast_eq_ok

theorem level_readsExactly : ReadsExactly level 0 2 :=
  readsExactly fun _ _ => level_eq_ok

/-- A line length, a positive count and an extension level are read from exactly the texts of the
grammar, with blanks around them, whose value is within bounds. All other texts are refused, and a
number within bounds is read back from how it is written. -/
theorem numbers_read_exactly :
    ReadsExactly length 0 (2 ^ 64 - 1) ∧ ReadsExactly positive 1 (2 ^ 64 - 1) ∧
      ReadsExactly level 0 2 := by
  exact ⟨length_readsExactly, positive_readsExactly, level_readsExactly⟩

-- One more than the greatest value, with a zero in front; ninety zeros in front of a level; a digit
-- that is not one of the ten.
example : positive " 018446744073709551616".toList =
    .error (.malformed " 018446744073709551616".toList .tooLarge) := by decide

example : level (List.replicate 90 '0' ++ ['2']) = .ok 2 := by decide

example : length ['٣'] = .error (.malformed ['٣'] .badDigit) := by decide

end LineGauge.Number
