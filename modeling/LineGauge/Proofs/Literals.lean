import Mathlib.Algebra.Group.Nat.Defs
import LineGauge.Proofs.Continuation
import LineGauge.Proofs.Json

/-! Values as they are written to a TOML file: strings in double quotes with their escapes, lists of
strings, natural numbers and truth values. Each is read back as it was. -/
namespace LineGauge.Toml

/-! ### Strings -/

/-- The letters of the short escapes, with the characters they stand for. -/
def shortEscapes : List (Char × Char) :=
  [('b', '\x08'), ('t', '\t'), ('n', '\n'), ('f', '\x0c'), ('r', '\r'), ('"', '"'), ('\\', '\\')]

/-- The number that hexadecimal digits stand for. -/
def hexNumber? (ds : Text) : Option Nat :=
  (ds.mapM hexDigit?).map (·.foldl (fun n d => 16 * n + d) 0)

/-- The ways to write a character in a string: as it is, unless it is a quote, a backslash or a
control character other than the tab; by a letter; or by its number in four or eight digits. -/
inductive Spelling (c : Char) : Text → Prop
  | plain (printed : isPlain c = true) (quote : c ≠ '"') (slash : c ≠ '\\') : Spelling c [c]
  | short {letter : Char} (listed : (letter, c) ∈ shortEscapes) : Spelling c ['\\', letter]
  | four {ds : Text} (size : ds.length = 4) (number : hexNumber? ds = some c.toNat) :
    Spelling c ('\\' :: 'u' :: ds)
  | eight {ds : Text} (size : ds.length = 8) (number : hexNumber? ds = some c.toNat) :
    Spelling c ('\\' :: 'U' :: ds)

theorem hexChar?_number {c : Char} {ds : Text} (number : hexNumber? ds = some c.toNat)
    (rest : Text) : hexChar? ds.length (ds ++ rest) = some c := by
  obtain ⟨ns, read, value⟩ := Option.map_eq_some_iff.mp number
  have valid : c.toNat.isValidChar := c.valid
  unfold hexChar?
  rw [List.take_left, read]
  simp only [value, length_of_mapM read]
  simp [valid]

theorem basic?_skip (s rest : Text) : basic? s.length (s ++ rest) = basic? 0 rest := by
  induction s with
  | nil => rfl
  | cons c s ih => exact ih

theorem basic?_escape {c : Char} {s rest : Text}
    (escaped : escape? (s ++ rest) = some (c, s.length)) :
    basic? 0 ('\\' :: (s ++ rest)) = consTo c (basic? 0 rest) := by
  rw [← basic?_skip s rest]
  rw [basic?.eq_def]
  simp [escaped]

theorem escape?_short {letter c : Char} (listed : (letter, c) ∈ shortEscapes) (rest : Text) :
    escape? ([letter] ++ rest) = some (c, 1) := by
  have read : ∀ pair ∈ shortEscapes, escape? (pair.1 :: rest) = some (pair.2, 1) := by
    simp [shortEscapes, escape?]
  exact read _ listed

theorem basic?_spelling {c : Char} {e : Text} (spelled : Spelling c e) (rest : Text) :
    basic? 0 (e ++ rest) = consTo c (basic? 0 rest) := by
  cases spelled with
  | plain printed quote slash => simp [basic?, printed, quote, slash]
  | short listed => exact basic?_escape (escape?_short listed rest)
  | @four ds size number =>
    apply basic?_escape (s := 'u' :: ds)
    have read := hexChar?_number number rest
    rw [size] at read
    simp [escape?, read, size]
  | @eight ds size number =>
    apply basic?_escape (s := 'U' :: ds)
    have read := hexChar?_number number rest
    rw [size] at read
    simp [escape?, read, size]

/-- No spelling begins with the quote that ends a string. -/
theorem Spelling.exists_cons {c : Char} {e : Text} (spelled : Spelling c e) :
    ∃ d s, e = d :: s ∧ d ≠ '"' := by
  cases spelled with
  | plain _ quote _ => exact ⟨c, [], rfl, quote⟩
  | short _ => exact ⟨'\\', _, rfl, by decide⟩
  | four _ _ => exact ⟨'\\', _, rfl, by decide⟩
  | eight _ _ => exact ⟨'\\', _, rfl, by decide⟩

/-- The shortest spelling in which no control character stands for itself. -/
def standardSpelling (c : Char) : Text :=
  match shortEscapes.find? (·.2 == c) with
  | some (letter, _) => ['\\', letter]
  | none => if isPlain c then [c] else ['\\', 'u', '0', '0'] ++ Json.twoHex c.toNat

theorem hexDigit?_digitChar : ∀ d < 16, hexDigit? (Nat.digitChar d) = some d := by
  decide

theorem hexNumber?_twoHex {n : Nat} (small : n < 256) :
    hexNumber? ('0' :: '0' :: Json.twoHex n) = some n := by
  have high := hexDigit?_digitChar (n / 16) (by omega)
  have low := hexDigit?_digitChar (n % 16) (by omega)
  have zero : hexDigit? '0' = some 0 := rfl
  simp only [hexNumber?, Json.twoHex, List.mapM_cons, List.mapM_nil, zero, high, low]
  simp only [Option.pure_def, Option.bind_eq_bind, Option.bind_some, Option.map_some,
    List.foldl_cons, List.foldl_nil, Option.some.injEq]
  omega

theorem standardSpelling_sound (c : Char) : Spelling c (standardSpelling c) := by
  unfold standardSpelling
  split
  · next letter d found =>
    have same := List.find?_some found
    cases beq_iff_eq.mp same
    exact .short (List.mem_of_find?_eq_some found)
  · next unlisted =>
    have other := List.find?_eq_none.mp unlisted
    split
    · next printed =>
      apply Spelling.plain printed
      · rintro rfl
        exact other ('"', '"') (by decide) rfl
      · rintro rfl
        exact other ('\\', '\\') (by decide) rfl
    · next control =>
      apply Spelling.four rfl
      apply hexNumber?_twoHex
      simp [isPlain] at control
      omega

/-- A string in double quotes, each character in its spelling. -/
def quoted (spell : Char → Text) (t : Text) : Text := '"' :: (t.flatMap spell ++ ['"'])

/-- The items of a list with the closing bracket. -/
def itemsText (spell : Char → Text) : List Text → Text
  | [] => [']']
  | [t] => quoted spell t ++ [']']
  | t :: u :: ts => quoted spell t ++ ',' :: ' ' :: itemsText spell (u :: ts)

theorem length_le_itemsText (spell : Char → Text) (ts : List Text) :
    ts.length ≤ (itemsText spell ts).length := by
  fun_induction itemsText spell ts with
  | case1 => exact Nat.zero_le _
  | case2 t => simp
  | case3 t u ts ih =>
    simp only [List.length_cons, List.length_append] at ih ⊢
    omega

section
variable {spell : Char → Text} (sound : ∀ c, Spelling c (spell c))
include sound

theorem basic?_quoted (t rest : Text) :
    basic? 0 (t.flatMap spell ++ '"' :: rest) = some (t, rest) := by
  induction t with
  | nil => rfl
  | cons c t ih =>
    rw [List.flatMap_cons, List.append_assoc, basic?_spelling (sound c), ih]
    rfl

theorem startsTriple_quoted (t : Text) {rest : Text} (apart : rest.head? ≠ some '"') :
    startsTriple '"' (quoted spell t ++ rest) = false := by
  cases t with
  | nil =>
    cases rest with
    | nil => rfl
    | cons c rest =>
      have other : '"' ≠ c := fun same => apart (congrArg some same.symm)
      simp [startsTriple, quoted, List.isPrefixOf, other]
  | cons c t =>
    obtain ⟨d, s, written, other⟩ := (sound c).exists_cons
    simp [startsTriple, quoted, List.isPrefixOf, written, other.symm]

theorem string?_quoted (t : Text) {rest : Text} (apart : rest.head? ≠ some '"') :
    string? (quoted spell t ++ rest) = some (t, rest) := by
  have double := startsTriple_quoted sound t apart
  have single : startsTriple '\'' (quoted spell t ++ rest) = false := rfl
  have read := basic?_quoted sound t rest
  unfold string?
  rw [double, single]
  simp only [quoted, List.cons_append, List.append_assoc, List.nil_append]
  exact read

theorem value?_quoted (depth : Nat) (t : Text) {rest : Text} (apart : rest.head? ≠ some '"') :
    value? depth (quoted spell t ++ rest) = some (.text t, rest) := by
  have scalar : scalar? (quoted spell t ++ rest) = some (.text t, rest) := by
    change (string? (quoted spell t ++ rest)).map (fun p => (Value.text p.1, p.2)) = _
    rw [string?_quoted sound t apart]
    rfl
  cases depth with
  | zero => exact scalar
  | succ depth => exact scalar

theorem listItems?_quoted (depth n : Nat) (t : Text) {s : Text} (apart : s.head? ≠ some '"') :
    listItems? (value? depth) (n + 1) (quoted spell t ++ s) =
      match filler? false s with
      | some (',' :: r) =>
        (listItems? (value? depth) n r).map fun (vs, r) => (.text t :: vs, r)
      | some (']' :: r) => some ([.text t], r)
      | _ => none := by
  have first : filler? false (quoted spell t ++ s) =
      some ('"' :: (t.flatMap spell ++ ['"'] ++ s)) := rfl
  have item : value? depth ('"' :: (t.flatMap spell ++ ['"'] ++ s)) = some (.text t, s) :=
    value?_quoted sound depth t apart
  have read : listItems? (value? depth) (n + 1) (quoted spell t ++ s) = _ :=
    listItems?_item first (by decide)
  rw [item] at read
  exact read

theorem listItems?_texts (depth : Nat) {n : Nat} {ts : List Text} (enough : ts.length < n)
    (rest : Text) :
    listItems? (value? depth) n (itemsText spell ts ++ rest) = some (ts.map .text, rest) := by
  induction ts generalizing n with
  | nil =>
    obtain ⟨n, rfl⟩ := Nat.exists_eq_add_one_of_ne_zero (Nat.ne_zero_of_lt enough)
    rfl
  | cons t ts ih =>
    obtain ⟨n, rfl⟩ := Nat.exists_eq_add_one_of_ne_zero (Nat.ne_zero_of_lt enough)
    cases ts with
    | nil =>
      rw [itemsText, List.append_assoc]
      exact listItems?_quoted sound depth n t (s := ']' :: rest) (by simp)
    | cons u ts =>
      have next := ih (Nat.lt_of_succ_lt_succ enough)
      have blank (s : Text) :
          listItems? (value? depth) n (' ' :: s) = listItems? (value? depth) n s := by
        cases n <;> rfl
      rw [itemsText, List.append_assoc]
      have first := listItems?_quoted sound depth n t
        (s := ',' :: ' ' :: (itemsText spell (u :: ts) ++ rest)) (by simp)
      apply first.trans
      change (listItems? _ n (' ' :: (itemsText spell (u :: ts) ++ rest))).map _ = _
      rw [blank, next]
      rfl

def listText (spell : Char → Text) (ts : List Text) : Text := '[' :: itemsText spell ts

theorem value?_texts (depth : Nat) (ts : List Text) (rest : Text) :
    value? (depth + 1) (listText spell ts ++ rest) = some (.list (ts.map .text), rest) := by
  have enough : ts.length < (itemsText spell ts ++ rest).length + 1 := by
    have items := length_le_itemsText spell ts
    rw [List.length_append]
    omega
  have read := listItems?_texts sound depth enough rest
  exact congrArg (Option.map fun x => (Value.list x.1, x.2)) read

end

/-! ### Numbers -/

theorem foldl_digits {ds : Text} (digits : ∀ c ∈ ds, c.isDigit = true) (n : Nat) :
    ds.foldl (fun n d => 10 * n + (hexDigit? d).getD 0) n = Nat.ofDigitChars 10 ds n := by
  induction ds generalizing n with
  | nil => rfl
  | cons c ds ih =>
    rw [List.forall_mem_cons] at digits
    have value : hexDigit? c = some (c.toNat - '0'.toNat) := if_pos digits.1
    rw [List.foldl_cons, value, ih digits.2]
    rfl

theorem valueOf_decimal (n : Nat) : valueOf 10 (Number.decimal n) = n := by
  rw [valueOf, foldl_digits (Json.decimal_digits n), Number.decimal,
    Nat.ofDigitChars_toDigits (by decide) (by decide)]

theorem digitRun_digits {ds : Text} (digits : ∀ c ∈ ds, c.isDigit = true) (rest : Text) :
    digitRun Char.isDigit (ds ++ '\n' :: rest) = (ds, '\n' :: rest) := by
  induction ds with
  | nil => rfl
  | cons c ds ih =>
    rw [List.forall_mem_cons] at digits
    rw [List.cons_append, digitRun_digit digits.1, ih digits.2]

theorem sign_digit {c : Char} (digit : c.isDigit = true) (t : Text) :
    sign (c :: t) = (false, c :: t) := by
  unfold sign
  split <;> simp_all

section
variable (n : Nat) (rest : Text)

theorem sign_decimal :
    sign (Number.decimal n ++ '\n' :: rest) = (false, Number.decimal n ++ '\n' :: rest) := by
  obtain ⟨c, ds, written, digit⟩ := Json.decimal_cons n
  rw [written]
  exact sign_digit digit _

theorem decimal?_decimal : decimal? (Number.decimal n ++ '\n' :: rest) =
    some ((false, Number.decimal n), '\n' :: rest) := by
  rw [decimal?_eq, sign_decimal]
  by_cases zero : n = 0
  · subst zero
    rfl
  · have run := digitRun_digits (Json.decimal_digits n) rest
    have head := mt Json.eq_zero_of_decimal_head zero
    obtain ⟨c, ds, written, digit⟩ := Json.decimal_cons n
    rw [written] at run head ⊢
    have other : '0' ≠ c := fun same => head (congrArg some same.symm)
    rw [List.cons_append] at run
    simp [digits?, digit, other, run, List.isPrefixOf]

theorem float?_decimal : float? (Number.decimal n ++ '\n' :: rest) = none := by
  have finite : finite? (Number.decimal n ++ '\n' :: rest) = none := by
    unfold finite?
    rw [decimal?_decimal]
    rfl
  have special : special? (Number.decimal n ++ '\n' :: rest) = none := by
    rw [special?_eq, sign_decimal]
    obtain ⟨c, ds, written, digit⟩ := Json.decimal_cons n
    have i : 'i' ≠ c := (Json.digit_ne digit rfl).symm
    have n : 'n' ≠ c := (Json.digit_ne digit rfl).symm
    rw [written]
    simp [List.isPrefixOf, i, n]
  rw [float?, finite, special]

theorem not_based (mark : Char) (other : mark ≠ '\n') :
    ['0', mark].isPrefixOf (Number.decimal n ++ '\n' :: rest) = false := by
  by_cases zero : n = 0
  · subst zero
    change (mark == '\n' && _) = false
    simp [other]
  · have head := mt Json.eq_zero_of_decimal_head zero
    obtain ⟨c, ds, written, -⟩ := Json.decimal_cons n
    rw [written] at head ⊢
    have other : '0' ≠ c := fun same => head (congrArg some same.symm)
    simp [List.isPrefixOf, other]

theorem integer?_decimal (fits : n < 2 ^ 63) :
    integer? (Number.decimal n ++ '\n' :: rest) = some ((n : Int), '\n' :: rest) := by
  have hex := not_based n rest 'x' (by decide)
  have octal := not_based n rest 'o' (by decide)
  have binary := not_based n rest 'b' (by decide)
  have fitted : fitting false n = some (n : Int) := if_pos fits
  rw [integer?_eq]
  simp only [hex, octal, binary, decimal?_decimal, valueOf_decimal, fitted]
  rfl

/-- Digits that are taken away leave digits before the line end. -/
theorem fixedDigits?_digits {count : Nat} {ds : Text} (digits : ∀ c ∈ ds, c.isDigit = true)
    {m : Nat} {r : Text} (found : fixedDigits? count (ds ++ '\n' :: rest) = some (m, r)) :
    ∃ ds' : Text, (∀ c ∈ ds', c.isDigit = true) ∧ r = ds' ++ '\n' :: rest := by
  unfold fixedDigits? at found
  dsimp only at found
  split at found
  · next taken =>
    cases found
    rw [Bool.and_eq_true, List.all_eq_true] at taken
    by_cases inside : count ≤ ds.length
    · exact ⟨ds.drop count, fun c member => digits c (List.mem_of_mem_drop member),
        List.drop_append_of_le_length inside⟩
    · have feed : '\n' ∈ (ds ++ '\n' :: rest).take count := by
        obtain ⟨k, rfl⟩ := Nat.exists_eq_add_of_lt (Nat.lt_of_not_le inside)
        rw [Nat.add_assoc, List.take_length_add_append]
        simp
      cases taken.2 _ feed
  · cases found

theorem after?_digits {c : Char} (letter : c.isDigit = false) (other : c ≠ '\n') {ds : Text}
    (digits : ∀ c ∈ ds, c.isDigit = true) : after? c (ds ++ '\n' :: rest) = none := by
  cases ds with
  | nil => simp [after?, other]
  | cons d ds =>
    have apart : c ≠ d := (Json.digit_ne (digits d List.mem_cons_self) letter).symm
    simp [after?, apart]

theorem moment?_decimal : moment? (Number.decimal n ++ '\n' :: rest) = none := by
  have left {count m : Nat} {r : Text}
      (found : fixedDigits? count (Number.decimal n ++ '\n' :: rest) = some (m, r)) :=
    fixedDigits?_digits rest (Json.decimal_digits n) found
  have date : date? (Number.decimal n ++ '\n' :: rest) = none := by
    unfold date?
    cases found : fixedDigits? 4 (Number.decimal n ++ '\n' :: rest) with
    | none => rfl
    | some x =>
      obtain ⟨ds, digits, right⟩ := left found
      have stop := after?_digits rest (c := '-') rfl (by decide) digits
      simp [right, stop]
  have time : time? (Number.decimal n ++ '\n' :: rest) = none := by
    unfold time?
    cases found : twoDigits? 0 23 (Number.decimal n ++ '\n' :: rest) with
    | none => rfl
    | some x =>
      unfold twoDigits? at found
      split at found
      · next fixed =>
        obtain ⟨ds, digits, right⟩ := left fixed
        have stop := after?_digits rest (c := ':') rfl (by decide) digits
        split at found
        · cases found
          simp [right, stop]
        · cases found
      · cases found
  rw [moment?, date, time]

theorem value?_decimal (depth : Nat) (fits : n < 2 ^ 63) :
    value? depth (Number.decimal n ++ '\n' :: rest) = some (.integer n, '\n' :: rest) := by
  have moment := moment?_decimal n rest
  have float := float?_decimal n rest
  have integer := integer?_decimal n rest fits
  obtain ⟨c, ds, written, digit⟩ := Json.decimal_cons n
  rw [written, List.cons_append] at moment float integer ⊢
  have quote : c ≠ '"' := Json.digit_ne digit rfl
  have tick : c ≠ '\'' := Json.digit_ne digit rfl
  have scalar : scalar? (c :: (ds ++ '\n' :: rest)) = some (.integer n, '\n' :: rest) := by
    simp [scalar?, quote, tick, digit, moment, float, integer]
  cases depth with
  | zero => exact scalar
  | succ depth =>
    have bracket : c ≠ '[' := Json.digit_ne digit rfl
    have brace : c ≠ '\x7b' := Json.digit_ne digit rfl
    unfold value?
    split <;> simp_all

end

/-! ### Values -/

/-- A value of a settings file. -/
inductive Literal where
  | texts (ts : List Text)
  | number (n : Nat)
  | boolean (b : Bool)

namespace Literal

def value : Literal → Value
  | .texts ts => .list (ts.map .text)
  | .number n => .integer n
  | .boolean b => .boolean b

def text (spell : Char → Text) : Literal → Text
  | .texts ts => listText spell ts
  | .number n => Number.decimal n
  | .boolean b => (if b then "true" else "false").toList

/-- The numbers of TOML are below a bound. -/
def Fits : Literal → Prop
  | .number n => n < 2 ^ 63
  | _ => True

theorem value?_text {spell : Char → Text} (sound : ∀ c, Spelling c (spell c)) {l : Literal}
    (fits : l.Fits) (depth : Nat) (rest : Text) :
    value? (depth + 1) (l.text spell ++ '\n' :: rest) = some (l.value, '\n' :: rest) := by
  cases l with
  | texts ts => exact value?_texts sound depth ts _
  | number n => exact value?_decimal n rest (depth + 1) fits
  | boolean b => cases b <;> rfl

theorem skipSpace_text (spell : Char → Text) (l : Literal) (rest : Text) :
    skipSpace (l.text spell ++ rest) = l.text spell ++ rest := by
  cases l with
  | texts ts => rfl
  | number n =>
    obtain ⟨c, ds, written, digit⟩ := Json.decimal_cons n
    have blank : c ≠ ' ' := Json.digit_ne digit rfl
    have tab : c ≠ '\t' := Json.digit_ne digit rfl
    simp [text, written, skipSpace, isSpace, blank, tab]
  | boolean b => cases b <;> rfl

end Literal

end LineGauge.Toml
