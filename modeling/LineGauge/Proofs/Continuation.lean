import LineGauge.Proofs.Steady

/-! A TOML document that ends with a line end is read the same when more lines follow. Only a string
or a list can go on in the next line, and one that goes on beyond the end of the document is not
read at all; so what is read stays, and what is left is left with the new lines after it. -/
namespace LineGauge.Toml

/-- What was found stays. -/
inductive Lasts {β : Type} (R : β → β → Prop) : Option β → Option β → Prop
  | none (y : Option β) : Lasts R none y
  | some {a b : β} (same : R a b) : Lasts R (some a) (some b)

/-- A reader that reads the same before more text, if it reads anything. -/
def Lasting {β : Type} (R : Text → β → β → Prop) (read : Text → Option β) : Prop :=
  ∀ ⦃u t t' : Text⦄, Before u t t' → Lasts (R u) (read t) (read t')

theorem Steady.lasting {β : Type} {R : Text → β → β → Prop} {read : Text → Option β}
    (steady : Steady R read) : Lasting R read := by
  intro u t t' before
  exact (steady before).rec (fun same => .some same) (.none _)

theorem lasts_bind {α β : Type} {R : α → α → Prop} {S : β → β → Prop} {x y : Option α}
    {f g : α → Option β} (same : Lasts R x y) (next : ∀ {a b}, R a b → Lasts S (f a) (g b)) :
    Lasts S (x.bind f) (y.bind g) := by
  cases same with
  | none => exact .none _
  | some same => exact next same

theorem lasts_map {α β : Type} {R : α → α → Prop} {S : β → β → Prop} {x y : Option α}
    {f g : α → β} (same : Lasts R x y) (next : ∀ {a b}, R a b → S (f a) (g b)) :
    Lasts S (x.map f) (y.map g) := by
  cases same with
  | none => exact .none _
  | some same => exact .some (next same)

/-! ### Strings -/

theorem length_of_mapM {α β : Type} {f : α → Option β} {as : List α} {bs : List β}
    (found : as.mapM f = some bs) : bs.length = as.length := by
  induction as generalizing bs with
  | nil =>
    cases found
    rfl
  | cons a as ih =>
    rw [List.mapM_cons, Option.bind_eq_bind, Option.bind_eq_some_iff] at found
    obtain ⟨b, -, found⟩ := found
    rw [Option.bind_eq_bind, Option.bind_eq_some_iff] at found
    obtain ⟨bs, found, ⟨⟩⟩ := found
    exact congrArg (· + 1) (ih found)

theorem hexChar?_append {count : Nat} {t : Text} {c : Char} (found : hexChar? count t = some c)
    (u : Text) : hexChar? count (t ++ u) = some c := by
  have long : count ≤ t.length := by
    unfold hexChar? at found
    split at found
    · cases found
    · next ds read =>
      dsimp only at found
      split at found
      · next fits =>
        have size := length_of_mapM read
        simp only [Bool.and_eq_true, beq_iff_eq] at fits
        rw [fits.1, List.length_take] at size
        omega
      · cases found
  unfold hexChar? at found ⊢
  rw [List.take_append_of_le_length long]
  exact found

theorem escape?_append {t : Text} {e : Char × Nat} (found : escape? t = some e) (u : Text) :
    escape? (t ++ u) = some e := by
  unfold escape? at found
  split at found
  case h_8 t =>
    obtain ⟨c, read, rfl⟩ := Option.map_eq_some_iff.mp found
    exact congrArg (Option.map _) (hexChar?_append read u)
  case h_9 t =>
    obtain ⟨c, read, rfl⟩ := Option.map_eq_some_iff.mp found
    exact congrArg (Option.map _) (hexChar?_append read u)
  case h_10 => cases found
  all_goals exact found

section
variable {u : Text}

theorem Lasts.consTo {x y : Option (Text × Text)} (same : Lasts (Alike u) x y) (c : Char) :
    Lasts (Alike u) (consTo c x) (consTo c y) :=
  lasts_map same fun alike => alike.map (c :: ·)

theorem lasts_escape {read : Nat → Text → Option (Text × Text)} {t : Text}
    (next : ∀ skip, Lasts (Alike u) (read skip t) (read skip (t ++ u))) :
    Lasts (Alike u)
      (match escape? t with
        | some (d, taken) => consTo d (read taken t)
        | none => none)
      (match escape? (t ++ u) with
        | some (d, taken) => consTo d (read taken (t ++ u))
        | none => none) := by
  cases escaped : escape? t with
  | none => exact .none _
  | some e =>
    rw [escape?_append escaped]
    exact (next e.2).consTo e.1

theorem basic?_lasting (skip : Nat) : Lasting Alike (basic? skip) := by
  rintro u t t' ⟨ended, rfl⟩
  induction t generalizing skip with
  | nil => cases ended
  | cons c t ih =>
    have next (skip : Nat) : Lasts (Alike u) (basic? skip t) (basic? skip (t ++ u)) := by
      obtain rfl | ended := ended.tail_or
      · cases skip <;> exact .none _
      · exact ih skip ended
    cases skip with
    | succ skip => exact next skip
    | zero =>
      simp only [List.cons_append, basic?]
      split
      · next quote => exact .some ⟨rfl, ended.tail (by rintro rfl; cases quote), rfl⟩
      · split
        · exact lasts_escape next
        · split
          · exact (next 0).consTo c
          · exact .none _

theorem literal?_lasting : Lasting Alike literal? := by
  rintro u t t' ⟨ended, rfl⟩
  induction t with
  | nil => cases ended
  | cons c t ih =>
    simp only [List.cons_append, literal?]
    split
    · next quote => exact .some ⟨rfl, ended.tail (by rintro rfl; cases quote), rfl⟩
    · split
      · next plain => exact (ih (ended.tail (by rintro rfl; cases plain))).consTo c
      · exact .none _

theorem startsTriple_eq (quote : Char) (other : quote ≠ '\n') {t t' : Text}
    (before : Before u t t') : startsTriple quote t' = startsTriple quote t :=
  (before.isPrefixOf (by simp [other.symm])).1

theorem three_le_quotes {quote : Char} {t : Text} (starts : startsTriple quote t = true) :
    3 ≤ (t.takeWhile (· == quote)).length := by
  obtain ⟨s, rfl⟩ := List.isPrefixOf_iff_prefix.mp starts
  simp

theorem closing_alike {quote : Char} (other : quote ≠ '\n') {t t' : Text} (before : Before u t t')
    (starts : startsTriple quote t = true) : Alike u (closing quote t) (closing quote t') := by
  have stops : ('\n' == quote) = false := beq_eq_false_iff_ne.mpr other.symm
  have three := three_le_quotes starts
  have inside : (t.takeWhile (· == quote)).length < t.length := by
    have left := List.length_pos_iff.mpr (before.dropWhile (p := (· == quote)) stops).1.ne_nil
    have parts := List.takeWhile_append_dropWhile (p := (· == quote)) (l := t)
    replace parts := congrArg List.length parts
    rw [List.length_append] at parts
    omega
  unfold closing
  rw [before.takeWhile (p := (· == quote)) stops]
  obtain ⟨ended, rfl⟩ := before
  refine ⟨rfl, ended.drop ?_, List.drop_append_of_le_length ?_⟩ <;> omega

/-- Blanks and line ends are passed over the same before more text, unless nothing else is left. -/
theorem drop_append {t : Text} (ended : t = [] ∨ Ended t) (left : lineSplice.drop t ≠ []) :
    lineSplice.drop (t ++ u) = lineSplice.drop t ++ u := by
  fun_induction lineSplice.drop t with
  | case1 t ih => exact ih (ended.resolve_left nofun).tail_or left
  | case2 t ih => exact ih ((ended.resolve_left nofun).tail (by decide)).tail_or left
  | case3 c t feed back space ih =>
    have ended := (ended.resolve_left nofun).tail feed
    rw [List.cons_append, lineSplice.drop, if_pos space]
    · exact ih (.inr ended) left
    · exact feed
    · exact ended.not_feed back u
  | case4 c t feed back space =>
    rw [List.cons_append, lineSplice.drop, if_neg space]
    · exact feed
    · exact ((ended.resolve_left nofun).tail feed).not_feed back u
  | case5 => exact absurd rfl left

theorem lineSplice_append {t : Text} (ended : Ended t) (inside : lineSplice t < t.length) :
    lineSplice (t ++ u) = lineSplice t := by
  have left := newline?_steady (u := u) (Before.skipSpace ⟨ended, rfl⟩)
  unfold lineSplice at inside ⊢
  revert inside
  refine left.rec ?_ (fun _ => rfl)
  rintro r r' ⟨ended, rfl⟩ inside
  dsimp only at inside ⊢
  have filled : lineSplice.drop r ≠ [] := by
    intro none
    rw [none] at inside
    exact Nat.lt_irrefl _ inside
  rw [drop_append ended filled, List.length_append, List.length_append, Nat.add_sub_add_right]

theorem multiBasic?_inside {skip : Nat} {t : Text} (found : multiBasic? skip t ≠ none) :
    skip < t.length := by
  induction t generalizing skip with
  | nil => cases skip <;> exact absurd rfl found
  | cons c t ih =>
    cases skip with
    | zero => exact Nat.succ_pos _
    | succ skip => exact Nat.succ_lt_succ (ih found)

theorem multiBasic?_lasting (skip : Nat) : Lasting Alike (multiBasic? skip) := by
  rintro u t t' ⟨ended, rfl⟩
  induction t generalizing skip with
  | nil => cases ended
  | cons c t ih =>
    have next (skip : Nat) : Lasts (Alike u) (multiBasic? skip t) (multiBasic? skip (t ++ u)) := by
      obtain rfl | ended := ended.tail_or
      · cases skip <;> exact .none _
      · exact ih skip ended
    cases skip with
    | succ skip => exact next skip
    | zero =>
      have starts := startsTriple_eq (u := u) '"' (by decide) ⟨ended, rfl⟩
      simp only [List.cons_append] at starts
      simp only [List.cons_append, multiBasic?, starts]
      split
      · split
        · next starts => exact .some (closing_alike (by decide) ⟨ended, rfl⟩ starts)
        · exact (next 0).consTo c
      · split
        · next slash =>
          have ended : Ended t := ended.tail (by rintro rfl; cases slash)
          by_cases inside : lineSplice t < t.length
          · rw [lineSplice_append ended inside]
            split
            · exact next _
            · exact lasts_escape next
          · -- the splice takes all that is left, so the string has no end here
            have spliced : (lineSplice t != 0) = true := by
              have := List.length_pos_iff.mpr ended.ne_nil
              rw [bne_iff_ne]
              omega
            rw [if_pos spliced, Classical.not_not.mp (mt multiBasic?_inside inside)]
            exact .none _
        · split
          · next back =>
            have ended : Ended t := ended.tail (by rintro rfl; cases back)
            rw [ended.head?_append]
            split
            · exact next 0
            · exact .none _
          · split
            · exact (next 0).consTo c
            · exact .none _

theorem dropNewline_after {t t' : Text} (before : Before u t t') :
    After u (dropNewline t) (dropNewline t') :=
  rel_getD (newline?_steady before) ⟨.inr before.1, before.2⟩

theorem multiLiteral?_lasting : Lasting Alike multiLiteral? := by
  rintro u t t' ⟨ended, rfl⟩
  induction t with
  | nil => cases ended
  | cons c t ih =>
    have next : Lasts (Alike u) (multiLiteral? t) (multiLiteral? (t ++ u)) := by
      obtain rfl | ended := ended.tail_or
      · exact .none _
      · exact ih ended
    have starts := startsTriple_eq (u := u) '\'' (by decide) ⟨ended, rfl⟩
    simp only [List.cons_append] at starts
    simp only [List.cons_append, multiLiteral?, starts]
    split
    · next starts =>
      rw [Bool.and_eq_true] at starts
      exact .some (closing_alike (by decide) ⟨ended, rfl⟩ starts.2)
    · split
      · next back =>
        have ended : Ended t := ended.tail (by rintro rfl; cases back)
        rw [ended.head?_append]
        split
        · exact next
        · exact .none _
      · split
        · exact next.consTo c
        · exact .none _

/-- A reader of the rest of a string reads nothing when nothing is left. -/
theorem Lasting.after {read : Text → Option (Text × Text)} (lasting : Lasting Alike read)
    (needs : read [] = none) {t t' : Text} (after : After u t t') :
    Lasts (Alike u) (read t) (read t') := by
  obtain ⟨rfl | ended, rfl⟩ := after
  · rw [needs]
    exact .none _
  · exact lasting ⟨ended, rfl⟩

theorem string?_lasting : Lasting Alike string? := by
  intro u t t' before
  have double := before.isPrefixOf (s := ['"', '"', '"']) (by decide)
  have single := before.isPrefixOf (s := ['\'', '\'', '\'']) (by decide)
  unfold string? startsTriple
  rw [double.1, single.1]
  split
  · next starts =>
    exact (multiBasic?_lasting 0).after rfl (dropNewline_after (double.2 starts))
  · split
    · next starts => exact multiLiteral?_lasting.after rfl (dropNewline_after (single.2 starts))
    · obtain ⟨c, s, rfl, rfl, next⟩ := before.exists_cons
      by_cases double : c = '"'
      · subst double
        exact basic?_lasting 0 (next (by decide))
      · by_cases single : c = '\''
        · subst single
          exact literal?_lasting (next (by decide))
        · split
          · simp_all
          · simp_all
          · exact .none _

end

/-! ### Keys and values -/

theorem keyPart?_lasting : Lasting Alike keyPart? := by
  intro u t t' before
  have bare : Lasts (Alike u)
      (if (t.takeWhile isBareKey).isEmpty then none
        else some (t.takeWhile isBareKey, t.dropWhile isBareKey))
      (if (t'.takeWhile isBareKey).isEmpty then none
        else some (t'.takeWhile isBareKey, t'.dropWhile isBareKey)) := by
    rw [before.takeWhile (p := isBareKey) rfl]
    split
    · exact .none _
    · exact .some ⟨rfl, before.dropWhile rfl⟩
  obtain ⟨c, s, rfl, rfl, next⟩ := before.exists_cons
  by_cases double : c = '"'
  · subst double
    exact basic?_lasting 0 (next (by decide))
  · by_cases single : c = '\''
    · subst single
      exact literal?_lasting (next (by decide))
    · have plain (s : Text) : keyPart? (c :: s) =
          if ((c :: s).takeWhile isBareKey).isEmpty then none
          else some ((c :: s).takeWhile isBareKey, (c :: s).dropWhile isBareKey) := by
        unfold keyPart?
        split <;> simp_all
      rw [plain, plain]
      exact bare

theorem key?_lasting (parts : Nat) : Lasting Alike (key? parts) := by
  induction parts with
  | zero => exact fun _ _ _ _ => .none _
  | succ parts ih =>
    intro u t t' before
    unfold key?
    refine (keyPart?_lasting before.skipSpace).rec (fun _ => .none _) ?_
    rintro ⟨part, s⟩ ⟨_, s'⟩ ⟨rfl, before⟩
    dsimp only at before ⊢
    have before := before.skipSpace
    generalize skipSpace s = s at *
    generalize skipSpace s' = s' at *
    obtain ⟨c, s, rfl, rfl, next⟩ := before.exists_cons
    by_cases dot : c = '.'
    · subst dot
      exact lasts_map (ih (next (by decide))) fun alike => alike.map (part :: ·)
    · split
      · simp_all
      · split
        · simp_all
        · exact .some ⟨rfl, before⟩

theorem scalar?_lasting : Lasting Alike scalar? := by
  intro u t t' before
  have string := string?_lasting before
  have moment := moment?_steady before
  have float := float?_steady before
  have integer := integer?_steady before
  have special := special?_steady.lasting before
  obtain ⟨c, s, rfl, rfl, next⟩ := before.exists_cons
  simp only [scalar?]
  split
  · exact lasts_map string fun alike => alike.map Value.text
  · split
    · refine moment.rec (fun before => .some ⟨rfl, before⟩) ?_
      refine float.rec ?_ ?_
      · exact fun alike => .some (alike.map Value.float)
      · exact integer.rec (fun alike => .some (alike.map Value.integer)) (.none _)
    · split
      · next mark =>
        have word := Steady.start "rue".toList (by decide) (.found (Value.boolean true)) (.none _)
        exact word.lasting (next (by rintro rfl; cases mark))
      · split
        · next mark =>
          have word := Steady.start "alse".toList (by decide)
            (.found (Value.boolean false)) (.none _)
          exact word.lasting (next (by rintro rfl; cases mark))
        · split
          · exact lasts_map special fun alike => alike.map Value.float
          · exact .none _

theorem filler?_cons {inComment : Bool} {c : Char} {t : Text} (feed : c = '\n' → False)
    (back : ∀ s, c = '\r' → t = '\n' :: s → False) : filler? inComment (c :: t) =
      if inComment then (if isPlain c then filler? true t else none)
      else if isSpace c then filler? false t
      else if c == '#' then filler? true t
      else some (c :: t) := by
  rw [filler?]
  · exact feed
  · exact back

/-- What stands after blanks and comments stands there before more text too. -/
theorem filler?_append {inComment : Bool} {t s : Text} {c : Char} (ended : t = [] ∨ Ended t)
    (found : filler? inComment t = some (c :: s)) (u : Text) :
    Ended (c :: s) ∧ filler? inComment (t ++ u) = some (c :: (s ++ u)) := by
  fun_induction filler? inComment t with
  | case1 => cases found
  | case2 => cases found
  | case3 inComment t ih => exact ih (ended.resolve_left nofun).tail_or found
  | case4 inComment t ih => exact ih ((ended.resolve_left nofun).tail (by decide)).tail_or found
  | case5 d t feed back plain ih =>
    have ended := (ended.resolve_left nofun).tail feed
    rw [List.cons_append, filler?_cons feed (ended.not_feed back u), if_pos rfl, if_pos plain]
    exact ih (.inr ended) found
  | case6 => cases found
  | case7 inComment d t feed back outside space ih =>
    have ended := (ended.resolve_left nofun).tail feed
    rw [List.cons_append, filler?_cons feed (ended.not_feed back u), if_neg outside, if_pos space]
    exact ih (.inr ended) found
  | case8 inComment d t feed back outside space hash ih =>
    have ended := (ended.resolve_left nofun).tail feed
    rw [List.cons_append, filler?_cons feed (ended.not_feed back u), if_neg outside, if_neg space,
      if_pos hash]
    exact ih (.inr ended) found
  | case9 inComment d t feed back outside space hash =>
    cases found
    have ended := ended.resolve_left nofun
    rw [List.cons_append, filler?_cons feed ((ended.tail feed).not_feed back u), if_neg outside,
      if_neg space, if_neg hash]
    exact ⟨ended, rfl⟩

theorem listItems?_item {item : Text → Option (Value × Text)} {n : Nat} {t s : Text} {c : Char}
    (first : filler? false t = some (c :: s)) (opened : c ≠ ']') :
    listItems? item (n + 1) t =
      match item (c :: s) with
      | none => none
      | some (v, t) =>
        match filler? false t with
        | some (',' :: t) => (listItems? item n t).map fun (vs, t) => (v :: vs, t)
        | some (']' :: t) => some ([v], t)
        | _ => none := by
  rw [listItems?, first]
  split
  · next none => cases none
  · next closed =>
    cases closed
    exact absurd rfl opened
  · next same =>
    cases same
    rfl

theorem listItems?_lasting {item : Text → Option (Value × Text)} (lasting : Lasting Alike item)
    (needs : item [] = none) {n m : Nat} (more : n ≤ m) {u t t' : Text} (before : Before u t t') :
    Lasts (Alike u) (listItems? item n t) (listItems? item m t') := by
  induction n generalizing m t t' with
  | zero => exact .none _
  | succ n ih =>
    obtain ⟨m, rfl⟩ := Nat.exists_eq_add_one_of_ne_zero (Nat.ne_zero_of_lt more)
    obtain ⟨ended, rfl⟩ := before
    cases first : filler? false t with
    | none =>
      rw [listItems?, first]
      exact .none _
    | some s =>
      -- what comes next must be on a line of this text, or the list has no end here
      cases s with
      | nil =>
        simp only [listItems?, first, needs]
        exact .none _
      | cons c s =>
        obtain ⟨ended, first'⟩ := filler?_append (.inr ended) first u
        by_cases close : c = ']'
        · subst close
          simp only [listItems?, first, first']
          exact .some ⟨rfl, ended.tail (by decide), rfl⟩
        · rw [listItems?_item first close, listItems?_item first' close]
          refine (lasting ⟨ended, rfl⟩).rec (fun _ => .none _) ?_
          rintro ⟨v, s⟩ ⟨_, _⟩ ⟨rfl, ended, rfl⟩
          dsimp only
          split
          · next s second =>
            obtain ⟨ended, second'⟩ := filler?_append (.inr ended) second u
            rw [second']
            exact lasts_map (ih (Nat.le_of_succ_le_succ more) ⟨ended.tail (by decide), rfl⟩)
              fun alike => alike.map (v :: ·)
          · next s second =>
            obtain ⟨ended, second'⟩ := filler?_append (.inr ended) second u
            rw [second']
            exact .some ⟨rfl, ended.tail (by decide), rfl⟩
          · exact .none _

theorem pair?_lasting {item : Text → Option (Value × Text)} (lasting : Lasting Alike item) :
    Lasting Alike (pair? item) := by
  intro u t t' before
  unfold pair?
  refine (key?_lasting partLimit before).rec (fun _ => .none _) ?_
  rintro ⟨path, s⟩ ⟨_, s'⟩ ⟨rfl, before⟩
  obtain ⟨c, s, rfl, rfl, next⟩ := before.exists_cons
  by_cases equals : c = '='
  · subst equals
    simp only
    refine (lasting (next (by decide)).skipSpace).rec (fun _ => .none _) ?_
    rintro ⟨v, s⟩ ⟨_, s'⟩ ⟨rfl, before⟩
    exact .some ⟨rfl, before.skipSpace⟩
  · split
    · simp_all
    · exact .none _

theorem tablePairs?_lasting {item : Text → Option (Value × Text)} (lasting : Lasting Alike item)
    {n m : Nat} (more : n ≤ m) (items : Items) {u t t' : Text} (before : Before u t t') :
    Lasts (Alike u) (tablePairs? item n items t) (tablePairs? item m items t') := by
  induction n generalizing m items t t' with
  | zero => exact .none _
  | succ n ih =>
    obtain ⟨m, rfl⟩ := Nat.exists_eq_add_one_of_ne_zero (Nat.ne_zero_of_lt more)
    unfold tablePairs?
    refine (pair?_lasting lasting before).rec (fun _ => .none _) ?_
    rintro ⟨⟨path, v⟩, s⟩ ⟨⟨_, _⟩, s'⟩ ⟨⟨⟩, before⟩
    dsimp only
    cases assign? path v .header items with
    | none => exact .none _
    | some items =>
      obtain ⟨c, s, rfl, rfl, next⟩ := before.exists_cons
      by_cases comma : c = ','
      · subst comma
        exact ih (Nat.le_of_succ_le_succ more) items (next (by decide))
      · by_cases brace : c = '\x7d'
        · subst brace
          exact .some ⟨rfl, next (by decide)⟩
        · dsimp only
          split
          · simp_all
          · simp_all
          · exact .none _

theorem value?_nil (depth : Nat) : value? depth [] = none := by
  cases depth <;> rfl

theorem value?_lasting (depth : Nat) : Lasting Alike (value? depth) := by
  induction depth with
  | zero => exact scalar?_lasting
  | succ depth ih =>
    intro u t t' before
    have scalar := scalar?_lasting before
    obtain ⟨c, s, rfl, rfl, next⟩ := before.exists_cons
    have more : s.length + 1 ≤ (s ++ u).length + 1 := by
      rw [List.length_append]
      omega
    by_cases bracket : c = '['
    · subst bracket
      exact lasts_map (listItems?_lasting ih (value?_nil depth) more (next (by decide)))
        fun alike => alike.map Value.list
    · by_cases brace : c = '\x7b'
      · subst brace
        have before := next (by decide)
        have pairs := tablePairs?_lasting ih more [] before
        have inside := before.skipSpace
        simp only [value?]
        generalize skipSpace s = i at *
        generalize skipSpace (s ++ u) = i' at *
        obtain ⟨c, i, rfl, rfl, next⟩ := inside.exists_cons
        by_cases close : c = '\x7d'
        · subst close
          exact .some ⟨rfl, next (by decide)⟩
        · split
          · simp_all
          · split
            · simp_all
            · exact lasts_map pairs fun alike =>
                alike.map fun items => Value.table (Item.fieldsOf items)
      · have plain (s : Text) : value? (depth + 1) (c :: s) = scalar? (c :: s) := by
          unfold value?
          split <;> simp_all
        rw [plain, plain]
        exact scalar

/-! ### Lines -/

namespace Draft

/-- The same document before such a rest and before its continuation. -/
def Same (u : Text) (x y : Draft × Text) : Prop := x.1 = y.1 ∧ After u x.2 y.2

theorem header?_lasting (d : Draft) (start : Text → Items → Option Items) (close : Text)
    (flat : '\n' ∉ close) : Lasting Same (d.header? start close) := by
  intro u t t' before
  refine lasts_bind (key?_lasting partLimit before) ?_
  rintro ⟨path, s⟩ ⟨_, s'⟩ ⟨rfl, before⟩
  obtain ⟨same, next⟩ := before.isPrefixOf flat
  dsimp only at same ⊢
  rw [same]
  split
  · next closes =>
    refine lasts_bind (lineRest?_steady.lasting (next closes)) fun after => ?_
    cases d.open? start path with
    | none => exact .none _
    | some d => exact .some ⟨rfl, after⟩
  · exact .none _

theorem keyLine?_lasting (d : Draft) : Lasting Same d.keyLine? := by
  intro u t t' before
  refine lasts_bind (pair?_lasting (value?_lasting depthLimit) before) ?_
  rintro ⟨⟨path, v⟩, s⟩ ⟨⟨_, _⟩, s'⟩ ⟨⟨⟩, before⟩
  refine lasts_bind (lineRest?_steady.lasting before) fun after => ?_
  cases d.assign? path v with
  | none => exact .none _
  | some d => exact .some ⟨rfl, after⟩

theorem line?_other {d : Draft} {c : Char} (comment : c ≠ '#') (feed : c ≠ '\n') (back : c ≠ '\r')
    (bracket : c ≠ '[') (t : Text) : d.line? (c :: t) = d.keyLine? (c :: t) := by
  unfold line?
  split <;> simp_all

theorem line?_table {d : Draft} {c : Char} (bracket : c ≠ '[') (t : Text) :
    d.line? ('[' :: c :: t) = d.header? openTable? [']'] (c :: t) := by
  unfold line?
  split <;> simp_all

theorem line?_lasting (d : Draft) : Lasting Same d.line? := by
  intro u t t' before
  have rest := lineRest?_steady.lasting before
  have line := newline?_steady.lasting before
  have key := d.keyLine?_lasting before
  obtain ⟨c, s, rfl, rfl, next⟩ := before.exists_cons
  by_cases comment : c = '#'
  · subst comment
    exact lasts_map rest fun after => ⟨rfl, after⟩
  · by_cases feed : c = '\n'
    · subst feed
      exact lasts_map line fun after => ⟨rfl, after⟩
    · by_cases back : c = '\r'
      · subst back
        exact lasts_map line fun after => ⟨rfl, after⟩
      · by_cases bracket : c = '['
        · subst bracket
          have table := d.header?_lasting openTable? [']'] (by decide) (next feed)
          obtain ⟨c, s, rfl, -, next⟩ := (next feed).exists_cons
          by_cases second : c = '['
          · subst second
            exact d.header?_lasting openElement? _ (by decide) (next (by decide))
          · rw [List.cons_append, line?_table second, line?_table second]
            exact table
        · rw [line?_other comment feed back bracket, line?_other comment feed back bracket]
          exact key

theorem lines?_succ {n : Nat} {d : Draft} {t : Text} (filled : skipSpace t ≠ []) :
    lines? (n + 1) d t = (d.line? (skipSpace t)).bind fun x => lines? n x.1 x.2 := by
  rw [lines?]
  split
  · next none => exact absurd none filled
  · cases d.line? (skipSpace t) <;> rfl

theorem lines?_mono {n m : Nat} (more : n ≤ m) {d d' : Draft} {t : Text}
    (read : lines? n d t = some d') : lines? m d t = some d' := by
  induction n generalizing m d t with
  | zero => cases read
  | succ n ih =>
    obtain ⟨m, rfl⟩ := Nat.exists_eq_add_one_of_ne_zero (Nat.ne_zero_of_lt more)
    by_cases filled : skipSpace t = []
    · rw [lines?, filled] at read ⊢
      exact read
    · rw [lines?_succ filled, Option.bind_eq_some_iff] at read ⊢
      obtain ⟨x, line, read⟩ := read
      exact ⟨x, line, ih (Nat.le_of_succ_le_succ more) read⟩

theorem lines?_append {n m : Nat} {d d1 d2 : Draft} {t u : Text} (ended : t = [] ∨ Ended t)
    (read : lines? (n + 1) d t = some d1) (next : lines? m d1 u = some d2) :
    lines? (n + m) d (t ++ u) = some d2 := by
  -- The step in which the first text is found to have ended is not taken in the whole.
  induction n generalizing d t with
  | zero =>
    obtain rfl | ended := ended
    · cases read
      exact lines?_mono (Nat.le_add_left m 0) next
    · rw [lines?_succ (Before.skipSpace (u := u) ⟨ended, rfl⟩).1.ne_nil,
        Option.bind_eq_some_iff] at read
      obtain ⟨x, -, read⟩ := read
      cases read
  | succ n ih =>
    obtain rfl | ended := ended
    · cases read
      exact lines?_mono (Nat.le_add_left m (n + 1)) next
    · have before := Before.skipSpace (u := u) ⟨ended, rfl⟩
      have filled : skipSpace (t ++ u) ≠ [] := by
        rw [before.2]
        exact List.append_ne_nil_of_left_ne_nil before.1.ne_nil u
      rw [lines?_succ before.1.ne_nil, Option.bind_eq_some_iff] at read
      obtain ⟨⟨d', r⟩, line, read⟩ := read
      have lasts := d.line?_lasting before
      rw [line] at lasts
      rw [Nat.add_right_comm, lines?_succ filled]
      generalize d.line? (skipSpace (t ++ u)) = y at lasts ⊢
      cases lasts with
      | @some _ y same =>
        obtain ⟨_, r'⟩ := y
        obtain ⟨rfl, after, rfl⟩ := same
        exact ih after read

/-- The lines of a text lead from one document to another, whatever text follows. -/
def Takes (d : Draft) (t : Text) (d' : Draft) : Prop :=
  (t = [] ∨ Ended t) ∧ lines? (t.length + 1) d t = some d'

theorem Takes.refl (d : Draft) : Takes d [] d := ⟨.inl rfl, rfl⟩

theorem Takes.append {d d1 d2 : Draft} {t u : Text} (first : Takes d t d1)
    (second : Takes d1 u d2) : Takes d (t ++ u) d2 := by
  obtain ⟨ended, read⟩ := first
  obtain ⟨ended', read'⟩ := second
  constructor
  · obtain rfl | ended' := ended'
    · rw [List.append_nil]
      exact ended
    · exact .inr (ended'.append t)
  · rw [List.length_append, Nat.add_assoc]
    exact lines?_append ended read read'

theorem takes_line {d d' : Draft} {t : Text} (ended : Ended t) (solid : skipSpace t = t)
    (line : d.line? t = some (d', [])) : Takes d t d' := by
  refine ⟨.inr ended, ?_⟩
  have filled : skipSpace t ≠ [] := by
    rw [solid]
    exact ended.ne_nil
  rw [lines?_succ filled, solid, line]
  obtain ⟨c, s, rfl⟩ := ended.exists_cons
  rfl

end Draft

/-- A text without the byte order mark at its start. -/
def unmarked : Text → Text
  | [] => []
  | c :: t => if c.toNat == 0xFEFF then t else c :: t

theorem parse?_eq (t : Text) :
    parse? t = (Draft.lines? ((unmarked t).length + 1) {} (unmarked t)).map
      fun d => Item.fieldsOf d.items := by
  cases t <;> rfl

theorem unmarked_ended {t : Text} (ended : t = [] ∨ Ended t) :
    unmarked t = [] ∨ Ended (unmarked t) := by
  obtain rfl | ended := ended
  · exact .inl rfl
  · obtain ⟨c, t, rfl⟩ := ended.exists_cons
    simp only [unmarked]
    split
    · exact ended.tail_or
    · exact .inr ended

theorem unmarked_append {t u : Text} (plain : unmarked u = u) :
    unmarked (t ++ u) = unmarked t ++ u := by
  cases t with
  | nil => exact plain
  | cons c t =>
    simp only [List.cons_append, unmarked]
    split <;> rfl

/-- A document that ends with a line end is the beginning of a longer one. -/
theorem parse?_append {t u : Text} (ended : t = [] ∨ Ended t) (plain : unmarked u = u)
    {fields : Fields} (read : parse? t = some fields) :
    ∃ d : Draft, Item.fieldsOf d.items = fields ∧
      ∀ d', d.Takes u d' → parse? (t ++ u) = some (Item.fieldsOf d'.items) := by
  rw [parse?_eq] at read
  obtain ⟨d, lines, rfl⟩ := Option.map_eq_some_iff.mp read
  refine ⟨d, rfl, ?_⟩
  intro d' taken
  have first : Draft.Takes {} (unmarked t) d := ⟨unmarked_ended ended, lines⟩
  rw [parse?_eq, unmarked_append plain, (first.append taken).2]
  rfl

end LineGauge.Toml
