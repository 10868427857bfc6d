import LineGauge.Tree.Basic

/-! Paths of locations. The components of such a path are those of its names one after another, so
what is below a location has its components in front. With proper names nothing is folded away:
the path is absolute, its components are its names, and resolving it changes nothing. -/
namespace LineGauge

theorem pieces_append {α : Type} (isSeparator : α → Bool) (as bs : List α) (b : α)
    (separates : isSeparator b = true) :
    pieces isSeparator (as ++ b :: bs) = pieces isSeparator as ++ pieces isSeparator bs := by
  induction as with
  | nil => simp [pieces, separates]
  | cons a as ih =>
    by_cases ha : isSeparator a = true
    · simp [pieces, ha, ih]
    · obtain ⟨p, ps, hp⟩ := List.exists_cons_of_ne_nil (pieces_ne_nil isSeparator as)
      simp [pieces, ha, ih, hp]

theorem pieces_of_none {α : Type} (isSeparator : α → Bool) (as : List α)
    (none : ∀ a ∈ as, isSeparator a = false) : pieces isSeparator as = [as] := by
  induction as with
  | nil => rfl
  | cons a as ih =>
    have tail := ih fun b hb => none b (List.mem_cons_of_mem a hb)
    simp [pieces, none a List.mem_cons_self, tail]

theorem not_separator_of_mem_pieces {α : Type} (isSeparator : α → Bool) (as : List α) :
    ∀ p ∈ pieces isSeparator as, ∀ a ∈ p, isSeparator a = false := by
  induction as with
  | nil => simp [pieces]
  | cons a as ih =>
    by_cases ha : isSeparator a = true
    · simpa [pieces, ha] using ih
    · obtain ⟨q, qs, hq⟩ := List.exists_cons_of_ne_nil (pieces_ne_nil isSeparator as)
      rw [hq, List.forall_mem_cons] at ih
      simp only [pieces, ha, hq, Bool.false_eq_true, if_false, List.forall_mem_cons]
      exact ⟨⟨by simp, ih.1⟩, ih.2⟩

namespace Path

theorem not_mem_slash {n : Name} : slash ∉ n ↔ ∀ b ∈ n, (b == slash) = false := by
  simp only [beq_eq_false_iff_ne]
  exact ⟨fun absent b hb same => absent (same ▸ hb), fun other hb => other slash hb rfl⟩

theorem isProper_iff (n : Name) :
    n.isProper = true ↔ isSilent n = false ∧ n ≠ [dot, dot] ∧ ∀ b ∈ n, (b == slash) = false := by
  simp only [Name.isProper, Bool.and_eq_true, Bool.not_eq_true', bne_iff_ne, List.contains_eq_mem,
    decide_eq_false_iff_not, not_mem_slash, and_assoc]

theorem component?_eq_none {s : Name} : component? s = none ↔ isSilent s = true := by
  unfold component?
  split
  · simp [*]
  · split <;> simp [*]

theorem component?_eq_up {s : Name} : component? s = some .up ↔ s = [dot, dot] := by
  constructor
  · intro reads
    unfold component? at reads
    split at reads
    · cases reads
    · split at reads
      · rename_i same
        exact eq_of_beq same
      · cases reads
  · rintro rfl
    rfl

theorem component?_eq_name {s n : Name} :
    component? s = some (.name n) ↔ s = n ∧ isSilent n = false ∧ n ≠ [dot, dot] := by
  constructor
  · intro reads
    unfold component? at reads
    split at reads
    · cases reads
    · rename_i audible
      split at reads
      · cases reads
      · rename_i ordinary
        cases reads
        exact ⟨rfl, by simpa using audible, by simpa using ordinary⟩
  · rintro ⟨rfl, audible, ordinary⟩
    simp [component?, audible, ordinary]

theorem component?_proper {n : Name} (proper : n.isProper = true) :
    component? n = some (.name n) := by
  obtain ⟨audible, ordinary, _⟩ := (isProper_iff n).mp proper
  exact component?_eq_name.mpr ⟨rfl, audible, ordinary⟩

theorem segment_proper {p : Path} {s n : Name} (member : s ∈ p.segments)
    (reads : component? s = some (.name n)) : n.isProper = true := by
  obtain ⟨rfl, audible, ordinary⟩ := component?_eq_name.mp reads
  exact (isProper_iff s).mpr ⟨audible, ordinary, not_separator_of_mem_pieces _ _ s member⟩

@[simp] theorem isAbsolute_ofLocation (l : Location) : (ofLocation l).isAbsolute = true := by
  cases l <;> rfl

theorem join_absolute (cwd p : Path) (absolute : p.isAbsolute = true) : cwd.join p = p := by
  simp [join, absolute]

theorem pieces_slash (as bs : Bytes) : pieces (· == slash) (as ++ slash :: bs) =
    pieces (· == slash) as ++ pieces (· == slash) bs :=
  pieces_append _ as bs slash rfl

theorem pieces_spelled (first : Bytes) (l : Location) :
    pieces (· == slash) (first ++ l.flatMap (slash :: ·)) =
      pieces (· == slash) first ++ l.flatMap (pieces (· == slash)) := by
  induction l generalizing first with
  | nil => simp
  | cons n ns ih =>
    rw [List.flatMap_cons, List.cons_append, pieces_slash, ih, List.flatMap_cons]

theorem components_ofLocation (l : Location) :
    (ofLocation l).components =
      .root :: (l.flatMap (pieces (· == slash))).filterMap component? := by
  cases l with
  | nil => rfl
  | cons n ns =>
    have start : (ofLocation (n :: ns)).start = some .root := rfl
    have segments : (ofLocation (n :: ns)).segments = _ := pieces_spelled [] (n :: ns)
    simp [components, body, start, segments, pieces]

theorem joinNames_cons (n : Name) (ns : Location) :
    joinNames (n :: ns) = n ++ ns.flatMap (slash :: ·) := by
  induction ns generalizing n with
  | nil => simp [joinNames]
  | cons m ns ih => rw [joinNames, ih, List.flatMap_cons, List.cons_append]

theorem joinNames_pieces (b : Bytes) : joinNames (pieces (· == slash) b) = b := by
  induction b with
  | nil => rfl
  | cons a b ih =>
    obtain ⟨n, ns, split⟩ := List.exists_cons_of_ne_nil (pieces_ne_nil (· == slash) b)
    rw [split] at ih
    by_cases separates : (a == slash) = true
    · simp [pieces, split, joinNames, ih, eq_of_beq separates]
    · rw [joinNames_cons] at ih
      simp [pieces, separates, split, joinNames_cons, ih]

theorem ofLocation_eq (l : Location) : ofLocation l = ⟨slash :: joinNames l⟩ := by
  cases l with
  | nil => rfl
  | cons n ns => rw [joinNames_cons, ofLocation, List.flatMap_cons, List.cons_append]

theorem components_append (l m : Location) :
    (ofLocation l).components <+: (ofLocation (l ++ m)).components := by
  simp only [components_ofLocation, List.flatMap_append, List.filterMap_append, ← List.cons_append]
  exact List.prefix_append _ _

theorem pieces_names {l : List Name} (whole : ∀ n ∈ l, ∀ b ∈ n, (b == slash) = false) :
    l.flatMap (pieces (· == slash)) = l := by
  induction l with
  | nil => rfl
  | cons n ns ih =>
    obtain ⟨first, others⟩ := List.forall_mem_cons.mp whole
    rw [List.flatMap_cons, pieces_of_none _ n first, ih others, List.singleton_append]

theorem pieces_proper {l : Location} (proper : ∀ n ∈ l, n.isProper = true) :
    l.flatMap (pieces (· == slash)) = l :=
  pieces_names fun n hn => ((isProper_iff n).mp (proper n hn)).2.2

theorem filterMap_component?_proper {l : Location} (proper : ∀ n ∈ l, n.isProper = true) :
    l.filterMap component? = l.map .name := by
  induction l with
  | nil => rfl
  | cons n ns ih =>
    rw [List.filterMap_cons_some (component?_proper (proper n List.mem_cons_self)), List.map_cons,
      ih fun m hm => proper m (List.mem_cons_of_mem n hm)]

theorem components_proper {l : Location} (proper : ∀ n ∈ l, n.isProper = true) :
    (ofLocation l).components = .root :: l.map .name := by
  rw [components_ofLocation, pieces_proper proper, filterMap_component?_proper proper]

theorem segments_proper {l : Location} (proper : ∀ n ∈ l, n.isProper = true) (more : l ≠ []) :
    (ofLocation l).segments = [] :: l := by
  obtain ⟨n, ns, rfl⟩ := List.exists_cons_of_ne_nil more
  have spelled : (ofLocation (n :: ns)).segments = _ := pieces_spelled [] (n :: ns)
  rw [spelled, pieces_proper proper]
  rfl

theorem start_eq_some {p : Path} {first : Component} (begins : p.start = some first) :
    first = .root ∧ p.isAbsolute = true ∨ first = .here := by
  unfold start at begins
  split at begins
  · rename_i absolute
    exact .inl ⟨(Option.some.inj begins).symm, absolute⟩
  · split at begins
    · exact .inr (Option.some.inj begins).symm
    · cases begins

theorem segments_start {p : Path} {first : Component} (begins : p.start = some first) :
    ∃ silent rest, p.segments = silent :: rest ∧ component? silent = none := by
  unfold start at begins
  split at begins
  · rename_i absolute
    obtain ⟨bs, hb⟩ : ∃ bs, p.bytes = slash :: bs := by
      simpa [isAbsolute, List.head?_eq_some_iff] using absolute
    exact ⟨[], pieces (· == slash) bs, by simp [segments, hb, pieces], rfl⟩
  · split at begins
    · rename_i relative
      obtain ⟨rest, hr⟩ := List.head?_eq_some_iff.mp (eq_of_beq relative)
      exact ⟨[dot], rest, hr, rfl⟩
    · cases begins

/-- Where the beginning takes a segment, that segment has nothing to add. -/
theorem components_eq (p : Path) :
    p.components = p.start.toList ++ p.segments.filterMap component? := by
  unfold components body
  cases begins : p.start with
  | none => rfl
  | some first =>
    obtain ⟨silent, rest, split, reads⟩ := segments_start begins
    simp [split, reads]

theorem name_proper {p : Path} {n : Name} (member : .name n ∈ p.components) :
    n.isProper = true := by
  rw [components_eq] at member
  rcases List.mem_append.mp member with first | later
  · rcases start_eq_some (Option.mem_toList.mp first) with ⟨same, _⟩ | same <;> cases same
  · obtain ⟨s, known, reads⟩ := List.mem_filterMap.mp later
    exact segment_proper known reads

theorem fold_from_proper {cs : List Component} (named : ∀ n, .name n ∈ cs → n.isProper = true)
    {l : Location} (proper : ∀ n ∈ l, n.isProper = true) :
    ∀ n ∈ cs.foldl walkTo l, n.isProper = true := by
  induction cs generalizing l with
  | nil => exact proper
  | cons c cs ih =>
    apply ih fun n hn => named n (List.mem_cons_of_mem c hn)
    cases c with
    | root => simp [walkTo]
    | here => exact proper
    | up => exact fun n hn => proper n (List.dropLast_subset l hn)
    | name m =>
      intro n hn
      rcases List.mem_append.mp hn with old | new
      · exact proper n old
      · rw [List.mem_singleton] at new
        exact new ▸ named m List.mem_cons_self

theorem locationIn_proper (cwd p : Path) : ∀ n ∈ cwd.locationIn p, n.isProper = true :=
  fold_from_proper (fun _ hn => name_proper hn) (by simp)

theorem fold_names (l m : Location) : (l.map Component.name).foldl walkTo m = m ++ l := by
  induction l generalizing m with
  | nil => simp
  | cons n ns ih => simp [walkTo, ih]

theorem fold_ofLocation {l : Location} (proper : ∀ n ∈ l, n.isProper = true) :
    fold (ofLocation l).components = l := by
  rw [components_proper proper]
  exact fold_names l []

theorem locationIn_ofLocation (cwd : Path) {l : Location} (proper : ∀ n ∈ l, n.isProper = true) :
    cwd.locationIn (ofLocation l) = l := by
  rw [locationIn, join_absolute cwd _ (isAbsolute_ofLocation l)]
  exact fold_ofLocation proper

theorem resolve_ofLocation (cwd : Path) {l : Location} (proper : ∀ n ∈ l, n.isProper = true) :
    cwd.resolve (ofLocation l) = ofLocation l := by
  rw [resolve, locationIn_ofLocation cwd proper]

end Path

end LineGauge
