import LineGauge.Toml.Parse

/-! A text that ends with a line end, alone and before more text. Blanks, numbers and dates are
read up to the line end at most, so they are read the same in both. -/
namespace LineGauge.Toml

/-- A text whose last character is a line feed. -/
inductive Ended : Text → Prop
  | feed : Ended ['\n']
  | cons (c : Char) {t : Text} (ended : Ended t) : Ended (c :: t)

namespace Ended

theorem tail {c : Char} {t : Text} (ended : Ended (c :: t)) (other : c ≠ '\n') : Ended t := by
  cases ended with
  | feed => exact absurd rfl other
  | cons _ ended => exact ended

theorem tail_or {c : Char} {t : Text} (ended : Ended (c :: t)) : t = [] ∨ Ended t := by
  cases ended with
  | feed => exact .inl rfl
  | cons _ ended => exact .inr ended

theorem exists_cons {t : Text} (ended : Ended t) : ∃ c s, t = c :: s := by
  cases ended with
  | feed => exact ⟨_, _, rfl⟩
  | cons c _ => exact ⟨c, _, rfl⟩

theorem ne_nil {t : Text} (ended : Ended t) : t ≠ [] := by
  rintro rfl
  cases ended

theorem head?_append {t : Text} (ended : Ended t) (u : Text) : (t ++ u).head? = t.head? := by
  cases ended <;> rfl

/-- No line end comes about after a carriage return. -/
theorem not_feed {c : Char} {t : Text} (ended : Ended t)
    (back : ∀ s, c = '\r' → t = '\n' :: s → False) (u : Text) :
    ∀ s, c = '\r' → t ++ u = '\n' :: s → False := by
  rintro s rfl same
  obtain ⟨d, t, rfl⟩ := ended.exists_cons
  cases same
  exact back t rfl rfl

theorem append (s : Text) {t : Text} (ended : Ended t) : Ended (s ++ t) := by
  induction s with
  | nil => exact ended
  | cons c s ih => exact .cons c ih

theorem mem {t : Text} (ended : Ended t) : '\n' ∈ t := by
  induction ended with
  | feed => exact List.mem_cons_self
  | cons c _ ih => exact List.mem_cons_of_mem c ih

theorem drop {t : Text} (ended : Ended t) {n : Nat} (inside : n < t.length) :
    Ended (t.drop n) := by
  induction n generalizing t with
  | zero => exact ended
  | succ n ih =>
    cases ended with
    | feed => simp at inside
    | cons c ended => exact ih ended (Nat.lt_of_succ_lt_succ inside)

theorem of_getLast? {t : Text} (last : t.getLast? = some '\n') : Ended t := by
  obtain ⟨s, rfl⟩ := List.getLast?_eq_some_iff.mp last
  exact Ended.feed.append s

end Ended

/-- A text that ends with a line end, and the same text before more text. -/
def Before (u t t' : Text) : Prop := Ended t ∧ t' = t ++ u

/-- What is left of a text, and the same before more text: the text itself may have ended. -/
def After (u t t' : Text) : Prop := (t = [] ∨ Ended t) ∧ t' = t ++ u

/-- The same value before such a text and before its continuation. -/
def Alike {α : Type} (u : Text) (x y : α × Text) : Prop := x.1 = y.1 ∧ Before u x.2 y.2

theorem Alike.map {α β : Type} {u : Text} {x y : α × Text} (alike : Alike u x y) (f : α → β) :
    Alike u (f x.1, x.2) (f y.1, y.2) := ⟨congrArg f alike.1, alike.2⟩

/-- A reader that reads the same, or nothing both times. -/
def Steady {β : Type} (R : Text → β → β → Prop) (read : Text → Option β) : Prop :=
  ∀ ⦃u t t' : Text⦄, Before u t t' → Option.Rel (R u) (read t) (read t')

theorem rel_bind {α β : Type} {R : α → α → Prop} {S : β → β → Prop} {x y : Option α}
    {f g : α → Option β} (same : Option.Rel R x y)
    (next : ∀ {a b}, R a b → Option.Rel S (f a) (g b)) : Option.Rel S (x.bind f) (y.bind g) := by
  cases same with
  | none => exact .none
  | some same => exact next same

theorem rel_map {α β : Type} {R : α → α → Prop} {S : β → β → Prop} {x y : Option α} {f g : α → β}
    (same : Option.Rel R x y) (next : ∀ {a b}, R a b → S (f a) (g b)) :
    Option.Rel S (x.map f) (y.map g) := by
  cases same with
  | none => exact .none
  | some same => exact .some (next same)

theorem rel_map_self {α β : Type} {S : β → β → Prop} (x : Option α) {f g : α → β}
    (next : ∀ a, S (f a) (g a)) : Option.Rel S (x.map f) (x.map g) := by
  cases x with
  | none => exact .none
  | some a => exact .some (next a)

section
variable {u t t' : Text}

theorem Before.exists_cons (before : Before u t t') :
    ∃ c s, t = c :: s ∧ t' = c :: (s ++ u) ∧ (c ≠ '\n' → Before u s (s ++ u)) := by
  obtain ⟨ended, rfl⟩ := before
  obtain ⟨c, s, rfl⟩ := ended.exists_cons
  exact ⟨c, s, rfl, rfl, fun other => ⟨ended.tail other, rfl⟩⟩

theorem Before.dropWhile (before : Before u t t') {p : Char → Bool} (stops : p '\n' = false) :
    Before u (t.dropWhile p) (t'.dropWhile p) := by
  obtain ⟨ended, rfl⟩ := before
  induction ended with
  | feed =>
    simp only [List.cons_append, List.dropWhile, stops]
    exact ⟨.feed, rfl⟩
  | cons c ended ih =>
    simp only [List.cons_append, List.dropWhile_cons]
    split
    · exact ih
    · exact ⟨.cons c ended, rfl⟩

theorem Before.takeWhile (before : Before u t t') {p : Char → Bool} (stops : p '\n' = false) :
    t'.takeWhile p = t.takeWhile p := by
  obtain ⟨ended, rfl⟩ := before
  induction ended with
  | feed => simp [stops]
  | cons c _ ih => simp only [List.cons_append, List.takeWhile_cons, ih]

theorem Before.skipSpace (before : Before u t t') : Before u (skipSpace t) (skipSpace t') :=
  before.dropWhile rfl

/-- The start of a text is found in both or in neither, unless it has a line end. -/
theorem Before.isPrefixOf (before : Before u t t') {s : Text} (flat : '\n' ∉ s) :
    s.isPrefixOf t' = s.isPrefixOf t ∧
      (s.isPrefixOf t = true → Before u (t.drop s.length) (t'.drop s.length)) := by
  induction s generalizing t t' with
  | nil => exact ⟨rfl, fun _ => before⟩
  | cons c s ih =>
    obtain ⟨d, t, rfl, rfl, next⟩ := before.exists_cons
    simp only [List.mem_cons, not_or] at flat
    by_cases same : c = d
    · obtain ⟨starts, drops⟩ := ih (next (same ▸ Ne.symm flat.1)) flat.2
      simp only [List.isPrefixOf, same, beq_self_eq_true, Bool.true_and]
      exact ⟨starts, drops⟩
    · simp [List.isPrefixOf, beq_eq_false_iff_ne.mpr same]

end

theorem newline?_steady : Steady After newline? := by
  intro u t t' before
  obtain ⟨c, s, rfl, rfl, next⟩ := before.exists_cons
  by_cases feed : c = '\n'
  · subst feed
    exact .some ⟨before.1.tail_or, rfl⟩
  · obtain ⟨d, s, rfl, -, -⟩ := (next feed).exists_cons
    by_cases back : c = '\r' ∧ d = '\n'
    · obtain ⟨rfl, rfl⟩ := back
      exact .some ⟨(next feed).1.tail_or, rfl⟩
    · have other (s : Text) : newline? (c :: d :: s) = none := by
        unfold newline?
        split <;> simp_all
      rw [List.cons_append, other, other]
      exact .none

/-- After blanks and a comment. -/
def pastComment (t : Text) : Text :=
  match skipSpace t with
  | '#' :: t => t.dropWhile isPlain
  | t => t

theorem lineRest?_eq (t : Text) :
    lineRest? t = if (pastComment t).isEmpty then some [] else newline? (pastComment t) := rfl

theorem Before.pastComment {u t t' : Text} (before : Before u t t') :
    Before u (pastComment t) (pastComment t') := by
  have before := before.skipSpace
  unfold Toml.pastComment
  generalize Toml.skipSpace t = s at *
  generalize Toml.skipSpace t' = s' at *
  obtain ⟨c, s, rfl, rfl, next⟩ := before.exists_cons
  by_cases hash : c = '#'
  · subst hash
    exact (next (by decide)).dropWhile rfl
  · split
    · simp_all
    · split
      · simp_all
      · exact before

theorem lineRest?_steady : Steady After lineRest? := by
  intro u t t' before
  have before := before.pastComment
  obtain ⟨c, s, left, left', -⟩ := before.exists_cons
  rw [left, left'] at before
  rw [lineRest?_eq, lineRest?_eq, left, left']
  exact newline?_steady before

theorem Steady.bind {α β : Type} {S : β → β → Prop} {read : Text → Option (α × Text)}
    (steady : Steady Alike read) {u t t' : Text} (before : Before u t t')
    {f g : α × Text → Option β}
    (next : ∀ a {s s'}, Before u s s' → Option.Rel S (f (a, s)) (g (a, s'))) :
    Option.Rel S ((read t).bind f) ((read t').bind g) := by
  refine rel_bind (steady before) ?_
  rintro ⟨a, s⟩ ⟨_, s'⟩ ⟨rfl, before⟩
  exact next a before

theorem Steady.found {α : Type} (a : α) : Steady Alike fun t => some (a, t) :=
  fun _ _ _ before => .some ⟨rfl, before⟩

theorem Steady.none {β : Type} (R : Text → β → β → Prop) : Steady R fun _ => none :=
  fun _ _ _ _ => .none

/-- A reader that goes by how the text starts. -/
theorem Steady.start {β : Type} {R : Text → β → β → Prop} {f g : Text → Option β} (s : Text)
    (flat : '\n' ∉ s) (after : Steady R f) (other : Steady R g) :
    Steady R fun t => if s.isPrefixOf t then f (t.drop s.length) else g t := by
  intro u t t' before
  obtain ⟨same, next⟩ := before.isPrefixOf flat
  simp only [same]
  by_cases starts : s.isPrefixOf t = true
  · simp only [if_pos starts]
    exact after (next starts)
  · simp only [if_neg starts]
    exact other before

theorem if_isPrefixOf {β : Type} {s t : Text} {a b : β} (other : ∀ r, t = s ++ r → False) :
    (if s.isPrefixOf t then a else b) = b := by
  apply if_neg
  rw [List.isPrefixOf_iff_prefix]
  rintro ⟨r, rfl⟩
  exact other r rfl

/-! ### Numbers -/

theorem digitRun_digit {p : Char → Bool} {c : Char} (digit : p c = true) (t : Text) :
    digitRun p (c :: t) = (c :: (digitRun p t).1, (digitRun p t).2) := by
  rw [digitRun.eq_def]
  simp [digit]

theorem digitRun_alike {p : Char → Bool} (stops : p '\n' = false) {u t t' : Text}
    (before : Before u t t') : Alike u (digitRun p t) (digitRun p t') := by
  have solid {c : Char} (digit : p c = true) : c ≠ '\n' := by
    rintro rfl
    simp [stops] at digit
  obtain ⟨ended, rfl⟩ := before
  fun_induction digitRun p t with
  | case1 => cases ended
  | case2 c t digit ds rest run ih =>
    obtain ⟨same, before⟩ := ih (ended.tail (solid digit))
    rw [run] at same before
    rw [List.cons_append, digitRun_digit digit]
    exact ⟨congrArg (c :: ·) same, before⟩
  | case3 d t digit ds rest run gap ih =>
    obtain ⟨same, before⟩ := ih ((ended.tail (by decide)).tail (solid digit))
    rw [run] at same before
    simp only [List.cons_append, digitRun, if_neg gap, if_pos digit]
    exact ⟨congrArg (d :: ·) same, before⟩
  | case4 d t other gap =>
    simp only [List.cons_append, digitRun, if_neg gap, if_neg other]
    exact ⟨rfl, ended, rfl⟩
  | case5 c t other apart =>
    have stop : digitRun p (c :: t ++ u) = ([], c :: t ++ u) := by
      rw [List.cons_append, digitRun.eq_def]
      simp only [if_neg other]
      split
      · obtain ⟨d, s, rfl⟩ := (ended.tail (by decide)).exists_cons
        exact (apart d s rfl rfl).elim
      · rfl
    rw [stop]
    exact ⟨rfl, ended, rfl⟩

theorem digits?_steady {p : Char → Bool} (stops : p '\n' = false) : Steady Alike (digits? p) := by
  intro u t t' before
  have run := digitRun_alike stops before
  obtain ⟨c, s, rfl, rfl, -⟩ := before.exists_cons
  by_cases digit : p c = true
  · simp only [digits?, List.head?_cons, Option.any_some, digit, if_true]
    exact .some run
  · simp only [digits?, List.head?_cons, Option.any_some, digit]
    exact .none

theorem sign_alike {u t t' : Text} (before : Before u t t') : Alike u (sign t) (sign t') := by
  obtain ⟨c, s, rfl, rfl, next⟩ := before.exists_cons
  unfold sign
  split
  · simp_all [Alike]
  · simp_all [Alike]
  · split <;> simp_all [Alike]

theorem digits?_map_steady {α : Type} (f : Text → α) :
    Steady Alike fun t => (digits? Char.isDigit t).map fun x => (f x.1, x.2) := by
  intro u t t' before
  exact rel_map (digits?_steady rfl before) fun alike => alike.map f

theorem decimal?_eq (t : Text) : decimal? t =
    if ['0'].isPrefixOf (sign t).2 then some (((sign t).1, ['0']), (sign t).2.drop 1)
    else (digits? Char.isDigit (sign t).2).map fun x => (((sign t).1, x.1), x.2) := by
  simp only [decimal?]
  split
  · next zero =>
    rw [zero]
    rfl
  · next other => exact (if_isPrefixOf (s := ['0']) other).symm

theorem decimal?_steady : Steady Alike decimal? := by
  intro u t t' before
  obtain ⟨same, before⟩ := sign_alike before
  simp only [decimal?_eq, same]
  exact Steady.start ['0'] (by decide) (.found _) (digits?_map_steady (Prod.mk _)) before

theorem based?_steady (base : Nat) : Steady Alike (based? base) := by
  intro u t t' before
  have read := digits?_steady (p := fun c => (hexDigit? c).any (· < base)) rfl before
  unfold based?
  refine read.rec ?_ .none
  rintro ⟨ds, s⟩ ⟨_, s'⟩ ⟨rfl, before⟩
  exact rel_map_self _ fun n => ⟨rfl, before⟩

/-- A decimal integer that fits. -/
theorem plain_steady : Steady Alike fun t =>
    match decimal? t with
    | none => none
    | some ((negative, ds), t) => (fitting negative (valueOf 10 ds)).map (·, t) := by
  intro u t t' before
  dsimp only
  refine (decimal?_steady before).rec ?_ .none
  rintro ⟨⟨negative, ds⟩, s⟩ ⟨⟨_, _⟩, s'⟩ ⟨⟨⟩, before⟩
  exact rel_map_self _ fun n => ⟨rfl, before⟩

theorem integer?_eq : integer? = fun t =>
    if ['0', 'x'].isPrefixOf t then based? 16 (t.drop 2)
    else if ['0', 'o'].isPrefixOf t then based? 8 (t.drop 2)
    else if ['0', 'b'].isPrefixOf t then based? 2 (t.drop 2)
    else match decimal? t with
      | none => none
      | some ((negative, ds), t) => (fitting negative (valueOf 10 ds)).map (·, t) := by
  funext t
  unfold integer?
  split
  · rfl
  · rfl
  · rfl
  · next hex octal binary =>
    symm
    refine (if_isPrefixOf (s := ['0', 'x']) hex).trans ?_
    refine (if_isPrefixOf (s := ['0', 'o']) octal).trans ?_
    exact if_isPrefixOf (s := ['0', 'b']) binary

theorem integer?_steady : Steady Alike integer? := by
  rw [integer?_eq]
  refine .start ['0', 'x'] (by decide) (based?_steady 16) ?_
  refine .start ['0', 'o'] (by decide) (based?_steady 8) ?_
  exact .start ['0', 'b'] (by decide) (based?_steady 2) plain_steady

theorem exponent?_steady : Steady Alike exponent? := by
  intro u t t' before
  obtain ⟨c, s, rfl, rfl, next⟩ := before.exists_cons
  unfold exponent?
  by_cases mark : (c == 'e' || c == 'E') = true
  · have other : c ≠ '\n' := by
      rintro rfl
      cases mark
    obtain ⟨same, before⟩ := sign_alike (next other)
    simp only [if_pos mark, same]
    exact digits?_map_steady
      (fun ds => if (sign (s ++ u)).1 then -(valueOf 10 ds : Int) else valueOf 10 ds) before
  · simp only [if_neg mark]
    exact .none

theorem fraction?_eq : fraction? = fun t =>
    if ['.'].isPrefixOf t then digits? Char.isDigit (t.drop 1) else none := by
  funext t
  unfold fraction?
  split
  · rfl
  · next other => exact (if_isPrefixOf (s := ['.']) other).symm

theorem fraction?_steady : Steady Alike fraction? := by
  rw [fraction?_eq]
  exact .start ['.'] (by decide) (digits?_steady rfl) (.none _)

theorem finite?_steady : Steady Alike finite? := by
  intro u t t' before
  unfold finite?
  refine (decimal?_steady before).rec ?_ .none
  rintro ⟨⟨negative, whole⟩, s⟩ ⟨⟨_, _⟩, s'⟩ ⟨⟨⟩, before⟩
  have power := exponent?_steady before
  dsimp only
  refine (fraction?_steady before).rec ?_ ?_
  · rintro ⟨fraction, s⟩ ⟨_, s'⟩ ⟨rfl, before⟩
    dsimp only
    refine (exponent?_steady before).rec ?_ ?_
    · rintro ⟨e, s⟩ ⟨_, s'⟩ ⟨rfl, before⟩
      exact rel_map_self _ fun x => ⟨rfl, before⟩
    · exact rel_map_self _ fun x => ⟨rfl, before⟩
  · refine power.rec ?_ .none
    rintro ⟨e, s⟩ ⟨_, s'⟩ ⟨rfl, before⟩
    exact rel_map_self _ fun x => ⟨rfl, before⟩

theorem special?_eq (t : Text) : special? t =
    if ['i', 'n', 'f'].isPrefixOf (sign t).2 then some (.infinite (sign t).1, (sign t).2.drop 3)
    else if ['n', 'a', 'n'].isPrefixOf (sign t).2 then some (.nan, (sign t).2.drop 3)
    else none := by
  simp only [special?]
  split
  · next infinite =>
    rw [infinite]
    rfl
  · next missing =>
    rw [missing]
    rfl
  · next infinite missing =>
    rw [if_isPrefixOf (s := ['i', 'n', 'f']) infinite, if_isPrefixOf (s := ['n', 'a', 'n']) missing]

theorem special?_steady : Steady Alike special? := by
  intro u t t' before
  obtain ⟨same, before⟩ := sign_alike before
  simp only [special?_eq, same]
  have missing : Steady Alike fun t =>
      if ['n', 'a', 'n'].isPrefixOf t then some (Binary64.nan, t.drop 3) else none :=
    .start ['n', 'a', 'n'] (by decide) (.found _) (.none _)
  exact Steady.start ['i', 'n', 'f'] (by decide) (.found _) missing before

theorem float?_steady : Steady Alike float? := by
  intro u t t' before
  unfold float?
  refine (finite?_steady before).rec ?_ (special?_steady before)
  intro a b alike
  exact .some alike

/-! ### Dates and times -/

theorem fixedDigits?_steady (count : Nat) : Steady Alike (fixedDigits? count) := by
  rintro u t t' ⟨ended, rfl⟩
  by_cases inside : count < t.length
  · have before : Before u (t.drop count) ((t ++ u).drop count) :=
      ⟨ended.drop inside, List.drop_append_of_le_length (Nat.le_of_lt inside)⟩
    unfold fixedDigits?
    rw [List.take_append_of_le_length (Nat.le_of_lt inside)]
    dsimp only
    split
    · exact .some ⟨rfl, before⟩
    · exact .none
  · -- Then the line end is among the characters that are taken.
    have feed : '\n' ∈ (t ++ u).take count := by
      rw [List.take_append, List.take_of_length_le (Nat.le_of_not_lt inside)]
      exact List.mem_append_left _ ended.mem
    have feed' : '\n' ∈ t.take count := by
      rw [List.take_of_length_le (Nat.le_of_not_lt inside)]
      exact ended.mem
    have refused {s : Text} (feed : '\n' ∈ s.take count) : fixedDigits? count s = none := by
      have some : (s.take count).all Char.isDigit = false :=
        List.all_eq_false.mpr ⟨_, feed, by decide⟩
      simp [fixedDigits?, some]
    rw [refused feed, refused feed']
    exact .none

theorem twoDigits?_steady (least greatest : Nat) : Steady Alike (twoDigits? least greatest) := by
  intro u t t' before
  unfold twoDigits?
  refine (fixedDigits?_steady 2 before).rec ?_ .none
  rintro ⟨n, s⟩ ⟨_, s'⟩ ⟨rfl, before⟩
  dsimp only
  split
  · exact .some ⟨rfl, before⟩
  · exact .none

theorem after?_steady {c : Char} (other : c ≠ '\n') : Steady Before (after? c) := by
  intro u t t' before
  obtain ⟨d, s, rfl, rfl, next⟩ := before.exists_cons
  by_cases same : c = d
  · subst same
    simp only [after?, beq_self_eq_true, if_true]
    exact .some (next other)
  · simp only [after?, beq_eq_false_iff_ne.mpr same]
    exact .none

theorem date?_steady : Steady Before date? := by
  intro u t t' before
  refine (fixedDigits?_steady 4).bind before fun year _ _ before => ?_
  refine rel_bind (after?_steady (by decide) before) fun before => ?_
  refine (twoDigits?_steady _ _).bind before fun month _ _ before => ?_
  refine rel_bind (after?_steady (by decide) before) fun before => ?_
  exact (twoDigits?_steady _ _).bind before fun _ _ _ before => .some before

theorem Before.secondFraction {u t t' : Text} (before : Before u t t') :
    Before u (secondFraction t) (secondFraction t') := by
  obtain ⟨c, s, rfl, rfl, next⟩ := before.exists_cons
  by_cases dot : c = '.'
  · subst dot
    obtain ⟨d, s, rfl, -, next⟩ := (next (by decide)).exists_cons
    simp only [List.cons_append, Toml.secondFraction]
    split
    · next digit => exact (next (by rintro rfl; cases digit)).dropWhile rfl
    · exact before
  · have kept (s : Text) : Toml.secondFraction (c :: s) = c :: s := by
      unfold Toml.secondFraction
      split <;> simp_all
    rw [kept, kept]
    exact before

theorem time?_steady : Steady Before time? := by
  intro u t t' before
  refine (twoDigits?_steady _ _).bind before fun hour _ _ before => ?_
  refine rel_bind (after?_steady (by decide) before) fun before => ?_
  refine (twoDigits?_steady _ _).bind before fun minute _ _ before => ?_
  refine rel_bind (after?_steady (by decide) before) fun before => ?_
  exact (twoDigits?_steady _ _).bind before fun _ _ _ before => .some before.secondFraction

theorem hourMinute?_steady : Steady Before hourMinute? := by
  intro u t t' before
  refine (twoDigits?_steady _ _).bind before fun hour _ _ before => ?_
  refine rel_bind (after?_steady (by decide) before) fun before => ?_
  exact (twoDigits?_steady _ _).bind before fun _ _ _ before => .some before

theorem rel_getD {α : Type} {R : α → α → Prop} {x y : Option α} {a b : α}
    (same : Option.Rel R x y) (otherwise : R a b) : R (x.getD a) (y.getD b) := by
  cases same with
  | none => exact otherwise
  | some same => exact same

theorem Before.offset {u t t' : Text} (before : Before u t t') :
    Before u (offset t) (offset t') := by
  obtain ⟨c, s, rfl, rfl, next⟩ := before.exists_cons
  unfold Toml.offset
  by_cases zero : (c == 'Z' || c == 'z') = true
  · simp only [if_pos zero]
    exact next (by rintro rfl; cases zero)
  · simp only [if_neg zero]
    split
    · next sign => exact rel_getD (hourMinute?_steady (next (by rintro rfl; cases sign))) before
    · exact before

theorem Before.timePart {u t t' : Text} (before : Before u t t') :
    Before u (timePart t) (timePart t') := by
  obtain ⟨c, s, rfl, rfl, next⟩ := before.exists_cons
  simp only [Toml.timePart]
  split
  · next mark =>
    have read := time?_steady (next (by rintro rfl; cases mark))
    exact rel_getD (rel_map read Before.offset) before
  · exact before

theorem moment?_steady : Steady Before moment? := by
  intro u t t' before
  unfold moment?
  refine (date?_steady before).rec ?_ (time?_steady before)
  intro s s' before
  exact .some before.timePart

end LineGauge.Toml
