import LineGauge.Json.Pretty
import LineGauge.Path.Basic

/-! Reading JSON text by the whole of its grammar, and the round trip: what `pretty` writes is read
back as the value it was written for. Numbers are read exactly. Surrogates are read in pairs only,
since a text has no place for half of one. -/
namespace LineGauge.Json

inductive Datum where
  | null
  | truth (b : Bool)
  | number (x : Rat)
  | text (t : Text)
  | list (items : List Datum)
  | object (fields : List (Text × Datum))

def isSpace (c : Char) : Bool := c == ' ' || c == '\t' || c == '\n' || c == '\r'

def skipSpace (t : Text) : Text := t.dropWhile isSpace

def hexDigit? (c : Char) : Option Nat :=
  if c.isDigit then some (c.toNat - '0'.toNat)
  else if 'a' ≤ c && c ≤ 'f' then some (c.toNat - 'a'.toNat + 10)
  else if 'A' ≤ c && c ≤ 'F' then some (c.toNat - 'A'.toNat + 10)
  else none

def fourHex? : Text → Option Nat
  | a :: b :: c :: d :: _ => do
    return (← hexDigit? a) * 4096 + (← hexDigit? b) * 256 + (← hexDigit? c) * 16 + (← hexDigit? d)
  | _ => none

/-- The second half of a pair of surrogates, written as an escape. -/
def lowSurrogate? (t : Text) : Option Nat :=
  (Path.after? ['\\', 'u'] t).bind fun rest =>
    (fourHex? rest).filter fun n => 0xDC00 ≤ n && n ≤ 0xDFFF

/-- The character of an escape by number, after the letter of it, and how many characters it takes
with that letter. -/
def numbered? (t : Text) : Option (Char × Nat) :=
  (fourHex? t).bind fun n =>
    if 0xD800 ≤ n && n ≤ 0xDBFF then
      (lowSurrogate? (t.drop 4)).map fun m =>
        (Char.ofNat (0x10000 + (n - 0xD800) * 1024 + (m - 0xDC00)), 11)
    else if 0xDC00 ≤ n && n ≤ 0xDFFF then none
    else some (Char.ofNat n, 5)

/-- The character of an escape, after its backslash, and how many characters it takes. -/
def escape? : Text → Option (Char × Nat)
  | [] => none
  | c :: t =>
    match c with
    | '"' => some ('"', 1)
    | '\\' => some ('\\', 1)
    | '/' => some ('/', 1)
    | 'b' => some (Char.ofNat 0x08, 1)
    | 'f' => some (Char.ofNat 0x0C, 1)
    | 'n' => some ('\n', 1)
    | 'r' => some ('\r', 1)
    | 't' => some ('\t', 1)
    | 'u' => numbered? t
    | _ => none

/-- The characters of a string up to its closing quote, and what follows that; the next `skip`
characters belong to an escape already read. -/
def stringAfter? : Nat → Text → Option (Text × Text)
  | _, [] => none
  | skip + 1, _ :: t => stringAfter? skip t
  | 0, c :: t =>
    if c == '"' then some ([], t)
    else if c == '\\' then
      match escape? t with
      | some (d, taken) => (stringAfter? taken t).map fun (s, rest) => (d :: s, rest)
      | none => none
    else if c.toNat < 0x20 then none
    else (stringAfter? 0 t).map fun (s, rest) => (c :: s, rest)

def digits? (t : Text) : Option (Text × Text) :=
  if (t.takeWhile Char.isDigit).isEmpty then none
  else some (t.takeWhile Char.isDigit, t.dropWhile Char.isDigit)

/-- The whole part of a number: no zero stands before another digit. -/
def whole? (t : Text) : Option (Text × Text) :=
  (digits? t).filter fun (ds, _) => ds.head? != some '0' || ds.length == 1

def fraction? : Text → Option (Text × Text)
  | '.' :: t => digits? t
  | t => some ([], t)

def exponent? : Text → Option (Int × Text)
  | c :: t =>
    if c == 'e' || c == 'E' then
      match t with
      | '-' :: t => (digits? t).map fun (ds, rest) => (-(Nat.ofDigitChars 10 ds 0 : Int), rest)
      | '+' :: t => (digits? t).map fun (ds, rest) => ((Nat.ofDigitChars 10 ds 0 : Int), rest)
      | t => (digits? t).map fun (ds, rest) => ((Nat.ofDigitChars 10 ds 0 : Int), rest)
    else some (0, c :: t)
  | [] => some (0, [])

def scaled (n : Nat) (exponent : Int) : Rat :=
  if exponent < 0 then (n : Rat) / 10 ^ exponent.natAbs else (n : Rat) * 10 ^ exponent.natAbs

def unsigned? (t : Text) : Option (Rat × Text) := do
  let (whole, t) ← whole? t
  let (fraction, t) ← fraction? t
  let (exponent, t) ← exponent? t
  return (scaled (Nat.ofDigitChars 10 (whole ++ fraction) 0) (exponent - fraction.length), t)

def number? : Text → Option (Rat × Text)
  | '-' :: t => (unsigned? t).map fun (x, rest) => (-x, rest)
  | t => unsigned? t

def named? (t : Text) : Option (Datum × Text) :=
  [("null", Datum.null), ("true", .truth true), ("false", .truth false)].findSome?
    fun (name, value) => (Path.after? name.toList t).map fun rest => (value, rest)

mutual

/-- A value and what follows it. Each step costs one of the steps left. -/
def value? : Nat → Text → Option (Datum × Text)
  | 0, _ => none
  | _, [] => none
  | steps + 1, c :: t =>
    if c == '"' then (stringAfter? 0 t).map fun (s, rest) => (.text s, rest)
    else if c == '[' then
      match skipSpace t with
      | ']' :: rest => some (.list [], rest)
      | _ => (items? steps t).map fun (items, rest) => (.list items, rest)
    else if c == '\x7b' then
      match skipSpace t with
      | '\x7d' :: rest => some (.object [], rest)
      | _ => (fields? steps t).map fun (fields, rest) => (.object fields, rest)
    else match named? (c :: t) with
      | some found => some found
      | none => (number? (c :: t)).map fun (x, rest) => (.number x, rest)

def items? : Nat → Text → Option (List Datum × Text)
  | 0, _ => none
  | steps + 1, t =>
    match value? steps (skipSpace t) with
    | none => none
    | some (item, t) =>
      match skipSpace t with
      | ']' :: rest => some ([item], rest)
      | ',' :: t => (items? steps t).map fun (items, rest) => (item :: items, rest)
      | _ => none

def fields? : Nat → Text → Option (List (Text × Datum) × Text)
  | 0, _ => none
  | steps + 1, t =>
    match skipSpace t with
    | '"' :: t =>
      match stringAfter? 0 t with
      | none => none
      | some (key, t) =>
        match skipSpace t with
        | ':' :: t =>
          match value? steps (skipSpace t) with
          | none => none
          | some (value, t) =>
            match skipSpace t with
            | '\x7d' :: rest => some ([(key, value)], rest)
            | ',' :: t =>
              (fields? steps t).map fun (fields, rest) => ((key, value) :: fields, rest)
            | _ => none
        | _ => none
    | _ => none

end

/-- The value of a JSON text, with blanks around it or none. Two steps a character are enough. -/
def decode? (t : Text) : Option Datum :=
  match value? (2 * t.length) (skipSpace t) with
  | some (value, rest) => if (skipSpace rest).isEmpty then some value else none
  | none => none

mutual

/-- The value as it is read. -/
def datum : Json → Datum
  | .text t => .text t
  | .number n => .number n
  | .list items => .list (dataOf items)
  | .object fields => .object (fieldsOf fields)

def dataOf : List Json → List Datum
  | [] => []
  | item :: items => item.datum :: dataOf items

def fieldsOf : List (Text × Json) → List (Text × Datum)
  | [] => []
  | (key, value) :: fields => (key, value.datum) :: fieldsOf fields

end

theorem hexDigit?_digitChar : ∀ d < 16, hexDigit? (Nat.digitChar d) = some d := by
  decide

theorem numbered?_twoHex {n : Nat} (small : n < 0x20) (rest : Text) :
    numbered? ('0' :: '0' :: (twoHex n ++ rest)) = some (Char.ofNat n, 5) := by
  have high := hexDigit?_digitChar (n / 16) (by omega)
  have low := hexDigit?_digitChar (n % 16) (by omega)
  have zero : hexDigit? '0' = some 0 := rfl
  have read : fourHex? ('0' :: '0' :: (twoHex n ++ rest)) = some n := by
    simp only [twoHex, List.cons_append, List.nil_append, fourHex?, high, low, zero]
    simp only [Option.pure_def, Option.bind_eq_bind, Option.bind_some, Option.some.injEq]
    omega
  rw [numbered?, read, Option.bind_some, if_neg (by simp; omega), if_neg (by simp; omega)]

theorem stringAfter?_escapeChar (c : Char) (rest : Text) :
    stringAfter? 0 (escapeChar c ++ rest) =
      (stringAfter? 0 rest).map fun (s, rest) => (c :: s, rest) := by
  rw [escapeChar]
  by_cases marked : (c == '"' || c == '\\') = true
  · rw [if_pos marked]
    rw [Bool.or_eq_true, beq_iff_eq, beq_iff_eq] at marked
    rcases marked with rfl | rfl
    · rfl
    · rfl
  · rw [if_neg marked]
    by_cases control : c.toNat < 0x20
    · rw [if_pos control]
      have known (n : Nat) (code : c.toNat = n) : c = Char.ofNat n := by
        rw [← code, Char.ofNat_toNat]
      split
      · rename_i code
        rw [known _ code]
        rfl
      · rename_i code
        rw [known _ code]
        rfl
      · rename_i code
        rw [known _ code]
        rfl
      · rename_i code
        rw [known _ code]
        rfl
      · rename_i code
        rw [known _ code]
        rfl
      · have read := numbered?_twoHex control rest
        rw [Char.ofNat_toNat] at read
        have escaped : escape? ('u' :: '0' :: '0' :: (twoHex c.toNat ++ rest)) = some (c, 5) := read
        simp only [List.cons_append, List.nil_append, stringAfter?, escaped]
        rfl
    · rw [if_neg control]
      rw [Bool.or_eq_true, not_or] at marked
      simp only [List.cons_append, List.nil_append, stringAfter?, marked.1, marked.2, control,
        Bool.false_eq_true, if_false]

theorem stringAfter?_quoted (t rest : Text) :
    stringAfter? 0 (t.flatMap escapeChar ++ '"' :: rest) = some (t, rest) := by
  induction t with
  | nil => rfl
  | cons c t ih =>
    rw [List.flatMap_cons, List.append_assoc, stringAfter?_escapeChar, ih]
    rfl

theorem digit_ne {c d : Char} (digit : c.isDigit = true) (other : d.isDigit = false) : c ≠ d := by
  rintro rfl
  rw [digit] at other
  cases other

/-- A character that a number goes on with. -/
def inNumber (c : Char) : Bool := c.isDigit || c == '.' || c == 'e' || c == 'E'

/-- A number that stands before this text ends there. -/
def EndsNumber (rest : Text) : Prop := ∀ c ∈ rest.head?, inNumber c = false

theorem endsNumber_cons {c : Char} (apart : inNumber c = false) (t : Text) :
    EndsNumber (c :: t) := by
  intro d head
  cases Option.some.inj head
  exact apart

theorem decimal_digits (n : Nat) : ∀ c ∈ Number.decimal n, c.isDigit = true :=
  fun _ hc => Nat.isDigit_of_mem_toDigits (by decide) (by decide) hc

theorem decimal_cons (n : Nat) : ∃ c ds, Number.decimal n = c :: ds ∧ c.isDigit = true := by
  cases digits : Number.decimal n with
  | nil => exact absurd digits Nat.toDigits_ne_nil
  | cons c ds => exact ⟨c, ds, rfl, decimal_digits n c (by simp [digits])⟩

/-- Only zero is written with a leading zero. -/
theorem eq_zero_of_decimal_head {n : Nat} (head : (Number.decimal n).head? = some '0') : n = 0 := by
  induction n using Nat.strongRecOn with
  | _ n ih =>
    rw [Number.decimal] at head
    by_cases small : n < 10
    · rw [Nat.toDigits_of_lt_base small] at head
      have code := congrArg Char.toNat (Option.some.inj head)
      rw [Nat.toNat_digitChar_of_lt_ten small] at code
      simpa using code
    · obtain ⟨c, ds, written, -⟩ := decimal_cons (n / 10)
      rw [Number.decimal] at written
      rw [Nat.toDigits_of_base_le (by decide) (by omega), written] at head
      have quotient : n / 10 = 0 := by
        apply ih (n / 10) (by omega)
        rw [Number.decimal, written]
        exact head
      omega

theorem digits?_decimal (n : Nat) {rest : Text} (ends : EndsNumber rest) :
    digits? (Number.decimal n ++ rest) = some (Number.decimal n, rest) := by
  have stop : rest.takeWhile Char.isDigit = [] ∧ rest.dropWhile Char.isDigit = rest := by
    cases rest with
    | nil => exact ⟨rfl, rfl⟩
    | cons c t =>
      have apart := ends c rfl
      simp only [inNumber, Bool.or_eq_false_iff] at apart
      simp [apart.1.1.1]
  rw [digits?, List.takeWhile_append_of_pos (decimal_digits n),
    List.dropWhile_append_of_pos (decimal_digits n), stop.1, stop.2, List.append_nil]
  obtain ⟨c, ds, written, -⟩ := decimal_cons n
  rw [written]
  rfl

theorem whole?_decimal (n : Nat) {rest : Text} (ends : EndsNumber rest) :
    whole? (Number.decimal n ++ rest) = some (Number.decimal n, rest) := by
  have leading :
      ((Number.decimal n).head? != some '0' || (Number.decimal n).length == 1) = true := by
    by_cases head : (Number.decimal n).head? = some '0'
    · rw [eq_zero_of_decimal_head head]
      rfl
    · simp [head]
  rw [whole?, digits?_decimal n ends, Option.filter_some, if_pos leading]

theorem unsigned?_decimal (n : Nat) {rest : Text} (ends : EndsNumber rest) :
    unsigned? (Number.decimal n ++ rest) = some ((n : Rat), rest) := by
  have noFraction : fraction? rest = some ([], rest) := by
    unfold fraction?
    split
    · exact absurd (ends '.' rfl) (by decide)
    · rfl
  have noExponent : exponent? rest = some (0, rest) := by
    cases rest with
    | nil => rfl
    | cons c t =>
      have apart := ends c rfl
      simp only [inNumber, Bool.or_eq_false_iff] at apart
      simp [exponent?, apart]
  rw [unsigned?, whole?_decimal n ends]
  simp only [Option.bind_eq_bind, Option.bind_some, noFraction, noExponent, List.append_nil]
  rw [Number.decimal, Nat.ofDigitChars_toDigits (by decide) (by decide)]
  simp [scaled]

theorem number?_decimal (n : Nat) {rest : Text} (ends : EndsNumber rest) :
    number? (Number.decimal n ++ rest) = some ((n : Rat), rest) := by
  obtain ⟨c, ds, written, digit⟩ := decimal_cons n
  have read := unsigned?_decimal n ends
  rw [written] at read ⊢
  unfold number?
  split
  · rename_i minus
    exact absurd (List.cons.inj minus).1 (digit_ne digit rfl)
  · exact read

theorem named?_digit {c : Char} (digit : c.isDigit = true) (t : Text) : named? (c :: t) = none := by
  have n : c ≠ 'n' := digit_ne digit rfl
  have t : c ≠ 't' := digit_ne digit rfl
  have f : c ≠ 'f' := digit_ne digit rfl
  simp [named?, Path.after?, n, t, f]

theorem skipSpace_newLine (level : Nat) (t : Text) :
    skipSpace (newLine level ++ t) = skipSpace t := by
  refine List.dropWhile_append_of_pos fun c hc => ?_
  rcases List.mem_cons.mp hc with rfl | blank
  · rfl
  · rw [List.eq_of_mem_replicate blank]
    rfl

theorem skipSpace_cons {c : Char} (solid : isSpace c = false) (t : Text) :
    skipSpace (c :: t) = c :: t := by
  simp [skipSpace, solid]

/-- A value begins with a character of its own, which closes no list. -/
theorem prettyAt_cons (level : Nat) (v : Json) :
    ∃ c t, prettyAt level v = c :: t ∧ isSpace c = false ∧ c ≠ ']' := by
  cases v with
  | text t => exact ⟨'"', _, rfl, rfl, by decide⟩
  | number n =>
    obtain ⟨c, ds, written, digit⟩ := decimal_cons n
    refine ⟨c, ds, written, ?_, digit_ne digit rfl⟩
    have blank : c ≠ ' ' := digit_ne digit rfl
    have tab : c ≠ '\t' := digit_ne digit rfl
    have feed : c ≠ '\n' := digit_ne digit rfl
    have back : c ≠ '\r' := digit_ne digit rfl
    simp [isSpace, blank, tab, feed, back]
  | list items => cases items <;> exact ⟨'[', _, rfl, rfl, by decide⟩
  | object fields => cases fields <;> exact ⟨'\x7b', _, rfl, rfl, by decide⟩

theorem skipSpace_prettyAt (level : Nat) (v : Json) (rest : Text) :
    skipSpace (prettyAt level v ++ rest) = prettyAt level v ++ rest := by
  obtain ⟨c, t, written, solid, -⟩ := prettyAt_cons level v
  rw [written]
  exact skipSpace_cons solid _

/-- The text of the value is read as the value, in front of all that ends a number. -/
def ReadsBack (v : Json) : Prop :=
  ∀ (level n : Nat) (rest : Text), 2 * (prettyAt level v).length ≤ n → EndsNumber rest →
    value? n (prettyAt level v ++ rest) = some (v.datum, rest)

theorem endsNumber_newLine (level : Nat) (t : Text) : EndsNumber (newLine level ++ t) :=
  endsNumber_cons rfl _

theorem value?_quoted (t rest : Text) {n : Nat} (steps : 0 < n) :
    value? n (quoted t ++ rest) = some (.text t, rest) := by
  obtain ⟨n, rfl⟩ := Nat.exists_eq_succ_of_ne_zero (Nat.ne_of_gt steps)
  have read := stringAfter?_quoted t rest
  simp only [quoted, List.cons_append, List.append_assoc, List.nil_append, value?]
  simp [read]

theorem value?_decimal (m : Nat) {rest : Text} (ends : EndsNumber rest) {n : Nat} (steps : 0 < n) :
    value? n (Number.decimal m ++ rest) = some (.number m, rest) := by
  obtain ⟨n, rfl⟩ := Nat.exists_eq_succ_of_ne_zero (Nat.ne_of_gt steps)
  obtain ⟨c, ds, written, digit⟩ := decimal_cons m
  have read := number?_decimal m ends
  have quote : c ≠ '"' := digit_ne digit rfl
  have bracket : c ≠ '[' := digit_ne digit rfl
  have brace : c ≠ '\x7b' := digit_ne digit rfl
  rw [written, List.cons_append] at read ⊢
  simp [value?, quote, bracket, brace, named?_digit digit, read]

theorem items?_pretty {first : Json} {items : List Json}
    (reads : ∀ item ∈ first :: items, ReadsBack item) {level n : Nat} (outer : Nat) (rest : Text)
    (steps : 2 * ((prettyAt level first).length + (prettyItems level items).length) < n) :
    items? n (newLine level ++ (prettyAt level first ++ (prettyItems level items ++
      (newLine outer ++ ']' :: rest)))) = some (first.datum :: dataOf items, rest) := by
  induction items generalizing first n with
  | nil =>
    obtain ⟨n, rfl⟩ := Nat.exists_eq_add_one_of_ne_zero (Nat.ne_zero_of_lt steps)
    have read := reads first List.mem_cons_self level n (newLine outer ++ ']' :: rest) (by omega)
      (endsNumber_newLine _ _)
    have close := skipSpace_cons (c := ']') rfl rest
    simp only [prettyItems, List.nil_append, items?, skipSpace_newLine, skipSpace_prettyAt, read,
      close]
    rfl
  | cons item items ih =>
    obtain ⟨n, rfl⟩ := Nat.exists_eq_add_one_of_ne_zero (Nat.ne_zero_of_lt steps)
    simp only [prettyItems, List.cons_append, List.append_assoc, List.length_cons,
      List.length_append] at steps ⊢
    have read := reads first List.mem_cons_self level n
    have others := fun other member => reads other (List.mem_cons_of_mem _ member)
    have next := @ih item others n (by omega)
    simp only [items?, skipSpace_newLine, skipSpace_prettyAt]
    rw [read _ (by omega) (endsNumber_cons rfl _)]
    simp only [skipSpace_cons (c := ',') rfl, next]
    rfl

/-- The name of a field is read before the value of it. -/
theorem fields?_quoted (key : Text) (n level : Nat) (t : Text) :
    fields? (n + 1) (newLine level ++ (quoted key ++ ':' :: ' ' :: t)) =
      match value? n (skipSpace t) with
      | none => none
      | some (value, t) =>
        match skipSpace t with
        | '\x7d' :: rest => some ([(key, value)], rest)
        | ',' :: t => (fields? n t).map fun (fields, rest) => ((key, value) :: fields, rest)
        | _ => none := by
  have read := stringAfter?_quoted key (':' :: ' ' :: t)
  have blank : skipSpace (' ' :: t) = skipSpace t := rfl
  rw [fields?, skipSpace_newLine]
  simp only [quoted, List.cons_append, List.append_assoc, List.nil_append,
    skipSpace_cons (c := '"') rfl, read, skipSpace_cons (c := ':') rfl, blank]

theorem fields?_pretty {key : Text} {first : Json} {fields : List (Text × Json)}
    (reads : ∀ field ∈ (key, first) :: fields, ReadsBack field.2) {level n : Nat} (outer : Nat)
    (rest : Text)
    (steps : 2 * ((prettyAt level first).length + (prettyFields level fields).length) < n) :
    fields? n (newLine level ++ (quoted key ++ ':' :: ' ' :: (prettyAt level first ++
      (prettyFields level fields ++ (newLine outer ++ '\x7d' :: rest))))) =
        some ((key, first.datum) :: fieldsOf fields, rest) := by
  have readFirst : ReadsBack first := reads _ List.mem_cons_self
  induction fields generalizing key first n with
  | nil =>
    obtain ⟨n, rfl⟩ := Nat.exists_eq_add_one_of_ne_zero (Nat.ne_zero_of_lt steps)
    have read := readFirst level n (newLine outer ++ '\x7d' :: rest) (by omega)
      (endsNumber_newLine _ _)
    have close := skipSpace_cons (c := '\x7d') rfl rest
    rw [fields?_quoted]
    simp only [prettyFields, List.nil_append, skipSpace_prettyAt, read, skipSpace_newLine, close]
    rfl
  | cons field fields ih =>
    obtain ⟨n, rfl⟩ := Nat.exists_eq_add_one_of_ne_zero (Nat.ne_zero_of_lt steps)
    simp only [prettyFields, List.cons_append, List.append_assoc, List.nil_append, List.length_cons,
      List.length_append] at steps ⊢
    have others := fun other member => reads other (List.mem_cons_of_mem _ member)
    have next := @ih field.1 field.2 others n (by omega) (others field List.mem_cons_self)
    rw [fields?_quoted, skipSpace_prettyAt, readFirst level n _ (by omega) (endsNumber_cons rfl _)]
    simp only [skipSpace_cons (c := ',') rfl, next]
    rfl

theorem value?_items {n : Nat} {t : Text} (filled : ∀ rest, skipSpace t ≠ ']' :: rest) :
    value? (n + 1) ('[' :: t) = (items? n t).map fun (items, rest) => (.list items, rest) := by
  rw [value?, if_neg (by decide), if_pos (by decide)]
  split
  · rename_i rest empty
    exact absurd empty (filled rest)
  · rfl

theorem value?_fields {n : Nat} {t : Text} (filled : ∀ rest, skipSpace t ≠ '\x7d' :: rest) :
    value? (n + 1) ('\x7b' :: t) =
      (fields? n t).map fun (fields, rest) => (.object fields, rest) := by
  rw [value?, if_neg (by decide), if_neg (by decide), if_pos (by decide)]
  split
  · rename_i rest empty
    exact absurd empty (filled rest)
  · rfl

theorem readsBack_list {items : List Json} (reads : ∀ item ∈ items, ReadsBack item) :
    ReadsBack (.list items) := by
  intro level n rest steps _
  cases items with
  | nil =>
    obtain ⟨n, rfl⟩ : ∃ m, n = m + 1 := ⟨n - 1, by simp [prettyAt] at steps; omega⟩
    rfl
  | cons item items =>
    simp only [prettyAt, List.cons_append, List.append_assoc, List.nil_append, List.length_cons,
      List.length_append] at steps ⊢
    obtain ⟨n, rfl⟩ : ∃ m, n = m + 1 := ⟨n - 1, by omega⟩
    have filled (u : Text) : skipSpace (newLine (level + 1) ++ (prettyAt (level + 1) item ++
        (prettyItems (level + 1) items ++ (newLine level ++ ']' :: rest)))) ≠ ']' :: u := by
      obtain ⟨c, t, written, -, other⟩ := prettyAt_cons (level + 1) item
      rw [skipSpace_newLine, skipSpace_prettyAt, written]
      exact fun same => other (List.cons.inj same).1
    rw [value?_items filled, items?_pretty reads level rest (by omega)]
    rfl

theorem readsBack_object {fields : List (Text × Json)}
    (reads : ∀ field ∈ fields, ReadsBack field.2) : ReadsBack (.object fields) := by
  intro level n rest steps _
  cases fields with
  | nil =>
    obtain ⟨n, rfl⟩ : ∃ m, n = m + 1 := ⟨n - 1, by simp [prettyAt] at steps; omega⟩
    rfl
  | cons field fields =>
    simp only [prettyAt, List.cons_append, List.append_assoc, List.nil_append, List.length_cons,
      List.length_append] at steps ⊢
    obtain ⟨n, rfl⟩ : ∃ m, n = m + 1 := ⟨n - 1, by omega⟩
    rw [value?_fields, fields?_pretty reads level rest (by omega)]
    · rfl
    · intro u closed
      rw [skipSpace_newLine] at closed
      cases closed

theorem readsBack (v : Json) : ReadsBack v := by
  -- The recursor of the nested type, with what holds of all items and of all fields in between.
  refine @Json.rec ReadsBack (fun items => ∀ item ∈ items, ReadsBack item)
    (fun fields => ∀ field ∈ fields, ReadsBack field.2) (fun field => ReadsBack field.2)
    ?text ?number ?list ?object ?noItem ?item ?noField ?field ?pair v
  case text =>
    intro t level n rest steps _
    exact value?_quoted t rest (by simp [prettyAt, quoted] at steps; omega)
  case number =>
    intro m level n rest steps ends
    obtain ⟨c, ds, written, -⟩ := decimal_cons m
    exact value?_decimal m ends (by simp [prettyAt, written] at steps; omega)
  case list => exact fun _ => readsBack_list
  case object => exact fun _ => readsBack_object
  case noItem => exact List.forall_mem_nil _
  case item => exact fun _ _ first others => List.forall_mem_cons.mpr ⟨first, others⟩
  case noField => exact List.forall_mem_nil _
  case field => exact fun _ _ first others => List.forall_mem_cons.mpr ⟨first, others⟩
  case pair => exact fun _ _ value => value

theorem decode?_pretty (v : Json) : decode? (pretty v) = some v.datum := by
  have solid := skipSpace_prettyAt 0 v []
  have read := readsBack v 0 _ [] (Nat.le_refl _) (fun _ none => nomatch none)
  rw [List.append_nil] at solid read
  rw [decode?, pretty, solid, read]
  rfl

-- Other spellings of a value are read too, and what is no value is not.
example : decode? "[-1.5e1,\"\\ud83d\\ude00\" ]".toList =
    some (.list [.number (-15), .text ['😀']]) := by
  cbv

example : decode? "[true,]".toList = none := by
  cbv

end LineGauge.Json
