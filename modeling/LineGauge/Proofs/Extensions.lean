import Mathlib.Data.List.TakeWhile
import LineGauge.Config
import LineGauge.Proofs.Rebase
import LineGauge.Proofs.Utf8

/-! Extensions on raw bytes. A path ends in its last segment that says something, whatever slashes
and silent segments come after it. The extension is what follows the last dot of that segment, and
a listed extension is compared with it once its leading dots are gone. -/
namespace LineGauge

namespace Path

/-- How the path is spelled at its end: the segment begins the path or stands after a slash, and
only segments that say nothing come after it. -/
def EndsIn (p : Path) (segment : Name) : Prop :=
  isSilent segment = false ∧ slash ∉ segment ∧ ∃ (front : Bytes) (silent : List Name),
    p.bytes = front ++ segment ++ silent.flatMap (slash :: ·) ∧
    (front = [] ∨ ∃ above, front = above ++ [slash]) ∧ ∀ s ∈ silent, isSilent s = true

theorem pieces_silent {silent : List Name} (nothing : ∀ s ∈ silent, isSilent s = true) :
    silent.flatMap (pieces (· == slash)) = silent := by
  apply pieces_names
  intro s member
  have either := nothing s member
  simp only [isSilent, Bool.or_eq_true, beq_iff_eq] at either
  apply not_mem_slash.mp
  rcases either with rfl | rfl <;> decide

theorem endsIn_iff {p : Path} {segment : Name} :
    p.EndsIn segment ↔ isSilent segment = false ∧ ∃ before silent,
      p.segments = before ++ segment :: silent ∧ ∀ s ∈ silent, isSilent s = true := by
  constructor
  · rintro ⟨audible, whole, front, silent, spelled, begins, nothing⟩
    have alone : pieces (· == slash) segment = [segment] :=
      pieces_of_none _ segment (not_mem_slash.mp whole)
    have split : p.segments = pieces (· == slash) (front ++ segment) ++ silent := by
      rw [segments, spelled, pieces_spelled, pieces_silent nothing]
    refine ⟨audible, ?_⟩
    rcases begins with rfl | ⟨above, rfl⟩
    · exact ⟨[], silent, by rw [split, List.nil_append, alone]; rfl, nothing⟩
    · refine ⟨pieces (· == slash) above, silent, ?_, nothing⟩
      rw [split, List.append_assoc, List.singleton_append, pieces_slash, alone, List.append_assoc]
      rfl
  · rintro ⟨audible, before, silent, split, nothing⟩
    have member : segment ∈ p.segments := by simp [split]
    have whole := not_mem_slash.mpr (not_separator_of_mem_pieces _ _ segment member)
    have spelled : p.bytes = joinNames (before ++ segment :: silent) := by
      rw [← split, segments, joinNames_pieces]
    refine ⟨audible, whole, ?_⟩
    cases before with
    | nil =>
      rw [List.nil_append, joinNames_cons] at spelled
      exact ⟨[], silent, spelled, .inl rfl, nothing⟩
    | cons n ns =>
      refine ⟨joinNames (n :: ns) ++ [slash], silent, ?_, .inr ⟨_, rfl⟩, nothing⟩
      simp [spelled, joinNames_cons]

/-- The last component that leads on is read from the segment the path ends in. -/
theorem getLast?_steps {p : Path} {c : Component} :
    p.steps.getLast? = some c ↔ ∃ segment, component? segment = some c ∧ p.EndsIn segment := by
  rw [List.getLast?_eq_some_iff]
  constructor
  · rintro ⟨earlier, split⟩
    obtain ⟨front, back, apart, _, last⟩ := List.filterMap_eq_append_iff.mp split
    obtain ⟨before, segment, silent, rfl, _, reads, rest⟩ := List.filterMap_eq_cons_iff.mp last
    have audible : isSilent segment = false := by
      rw [← Bool.not_eq_true, ← component?_eq_none, reads]
      exact nofun
    refine ⟨segment, reads, endsIn_iff.mpr ⟨audible, front ++ before, silent, ?_, ?_⟩⟩
    · rw [apart, List.append_assoc]
    · intro s member
      exact component?_eq_none.mp (List.filterMap_eq_nil_iff.mp rest s member)
  · rintro ⟨segment, reads, ends⟩
    obtain ⟨_, before, silent, split, nothing⟩ := endsIn_iff.mp ends
    have rest : silent.filterMap component? = [] := by
      rw [List.filterMap_eq_nil_iff]
      exact fun s member => component?_eq_none.mpr (nothing s member)
    refine ⟨before.filterMap component?, ?_⟩
    rw [steps, split, List.filterMap_append, List.filterMap_cons_some reads, rest]

/-- A path begins with neither a name nor a step up, so one of those at its end is a segment. -/
theorem getLast?_components {p : Path} {c : Component} (root : c ≠ .root) (here : c ≠ .here) :
    p.components.getLast? = some c ↔ ∃ segment, component? segment = some c ∧ p.EndsIn segment := by
  rw [← getLast?_steps, components_eq, List.getLast?_append, steps]
  cases (p.segments.filterMap component?).getLast? with
  | some last => exact Iff.rfl
  | none =>
    cases begins : p.start with
    | none => exact Iff.rfl
    | some first =>
      rcases start_eq_some begins with ⟨rfl, _⟩ | rfl
      · simpa using root.symm
      · simpa using here.symm

/-- The last component is an ordinary name exactly if the path is spelled with it at its end. -/
theorem getLast?_eq_name {p : Path} {n : Name} :
    p.components.getLast? = some (.name n) ↔ n ≠ [dot, dot] ∧ p.EndsIn n := by
  rw [getLast?_components (by simp) (by simp)]
  constructor
  · rintro ⟨segment, reads, ends⟩
    obtain ⟨rfl, _, ordinary⟩ := component?_eq_name.mp reads
    exact ⟨ordinary, ends⟩
  · rintro ⟨ordinary, ends⟩
    exact ⟨n, component?_eq_name.mpr ⟨rfl, ends.1, ordinary⟩, ends⟩

theorem getLast?_eq_up {p : Path} : p.components.getLast? = some .up ↔ p.EndsIn [dot, dot] := by
  rw [getLast?_components (by simp) (by simp)]
  constructor
  · rintro ⟨segment, reads, ends⟩
    exact component?_eq_up.mp reads ▸ ends
  · intro ends
    exact ⟨[dot, dot], rfl, ends⟩

theorem fileName?_eq_last {p : Path} {n : Name} :
    p.fileName? = some n ↔ p.components.getLast? = some (.name n) := by
  unfold fileName?
  split <;> simp_all

theorem dotless {x : Name} (whole : dot ∉ x) : ∀ b ∈ x.reverse, (b != dot) = true := by
  intro b member
  rw [bne_iff_ne]
  rintro rfl
  exact whole (List.mem_reverse.mp member)

theorem extensionOf?_split (stem : Name) {x : Name} (last : dot ∉ x) :
    extensionOf? (stem ++ dot :: x) = if stem = [] then none else some x := by
  have backwards : (stem ++ dot :: x).reverse = x.reverse ++ dot :: stem.reverse := by simp
  unfold extensionOf?
  rw [backwards, List.dropWhile_append_of_pos (dotless last),
    List.takeWhile_append_of_pos (dotless last)]
  simp

theorem extensionOf?_whole {n : Name} (whole : dot ∉ n) : extensionOf? n = none := by
  unfold extensionOf?
  rw [List.dropWhile_eq_nil_iff.mpr (dotless whole)]

theorem split_last_dot {n : Name} (dotted : dot ∈ n) :
    ∃ stem x, n = stem ++ dot :: x ∧ dot ∉ x := by
  obtain ⟨after, before, backwards, last⟩ :=
    List.eq_append_cons_of_mem (List.mem_reverse.mpr dotted)
  refine ⟨before.reverse, after.reverse, ?_, by simpa using last⟩
  rw [← List.reverse_reverse n, backwards]
  simp

/-- A name has an extension exactly if something stands before its last dot. -/
theorem extensionOf?_eq_some {n x : Name} :
    extensionOf? n = some x ↔ ∃ stem, stem ≠ [] ∧ n = stem ++ dot :: x ∧ dot ∉ x := by
  constructor
  · intro found
    by_cases dotted : dot ∈ n
    · obtain ⟨stem, y, rfl, last⟩ := split_last_dot dotted
      rw [extensionOf?_split stem last] at found
      split at found
      · cases found
      · rename_i some
        cases found
        exact ⟨stem, some, rfl, last⟩
    · rw [extensionOf?_whole dotted] at found
      cases found
  · rintro ⟨stem, some, rfl, last⟩
    rw [extensionOf?_split stem last, if_neg some]

theorem extension?_of_ending {p : Path} {n : Name} (ends : p.EndsIn n) (ordinary : n ≠ [dot, dot]) :
    p.extension? = extensionOf? n := by
  rw [extension?, fileName?_eq_last.mpr (getLast?_eq_name.mpr ⟨ordinary, ends⟩)]
  rfl

theorem extension?_of_up {p : Path} (ends : p.EndsIn [dot, dot]) : p.extension? = none := by
  rw [extension?, fileName?, getLast?_eq_up.mpr ends]
  rfl

theorem extension?_of_hidden {p : Path} {x : Name} (last : dot ∉ x) (ends : p.EndsIn (dot :: x)) :
    p.extension? = none := by
  have ordinary : dot :: x ≠ [dot, dot] := by
    rintro same
    cases same
    exact last List.mem_cons_self
  rw [extension?_of_ending ends ordinary]
  exact extensionOf?_split [] last

theorem extension?_eq_some {p : Path} {x : Name} :
    p.extension? = some x ↔ ∃ stem, stem ≠ [] ∧ dot ∉ x ∧ stem ++ dot :: x ≠ [dot, dot] ∧
      p.EndsIn (stem ++ dot :: x) := by
  simp only [extension?, Option.bind_eq_some_iff, fileName?_eq_last, getLast?_eq_name,
    extensionOf?_eq_some]
  constructor
  · rintro ⟨_, ⟨ordinary, ends⟩, stem, some, rfl, last⟩
    exact ⟨stem, some, last, ordinary, ends⟩
  · rintro ⟨stem, some, last, ordinary, ends⟩
    exact ⟨_, ⟨ordinary, ends⟩, stem, some, rfl, last⟩

end Path

namespace Config

/-- A listed extension without its leading dots. -/
def undotted (e : Text) : Text := e.dropWhile (· == '.')

theorem recognises_iff {extensions : List Text} {p : Path} :
    recognises extensions p = true ↔
      ∃ t ∈ extensions.map undotted, p.extension? = some (Utf8.encode t) := by
  have read (t : Text) :
      p.extension?.bind Utf8.decode? = some t ↔ p.extension? = some (Utf8.encode t) := by
    simp only [Option.bind_eq_some_iff, Utf8.decode?_eq_some]
    exact ⟨fun ⟨_, found, same⟩ => same ▸ found, fun found => ⟨_, found, rfl⟩⟩
  unfold recognises
  simp only [← read]
  cases p.extension?.bind Utf8.decode? with
  | none => simp
  | some found => simp [undotted]

theorem recognises_mono {extensions others : List Text}
    (among : extensions.map undotted ⊆ others.map undotted) {p : Path}
    (known : recognises extensions p = true) : recognises others p = true := by
  rw [recognises_iff] at known ⊢
  obtain ⟨t, listed, found⟩ := known
  exact ⟨t, among listed, found⟩

theorem recognises_cons (e : Text) (extensions : List Text) (p : Path) :
    recognises (e :: extensions) p = (recognises [e] p || recognises extensions p) := by
  unfold recognises
  split
  · simp
  · rfl

/-- No segment has a slash, and an extension has no dot. -/
theorem recognises_broken {e : Text} (broken : '.' ∈ undotted e ∨ '/' ∈ e) (p : Path) :
    recognises [e] p = false := by
  rw [← Bool.not_eq_true, recognises_iff]
  rintro ⟨t, listed, found⟩
  obtain rfl : t = undotted e := by simpa using listed
  obtain ⟨stem, _, last, _, _, whole, _⟩ := Path.extension?_eq_some.mp found
  rcases broken with dotted | slashed
  · exact last (List.mem_flatMap.mpr ⟨_, dotted, List.mem_singleton_self _⟩)
  · have kept : '/' ∈ undotted e := by
      rw [← List.takeWhile_append_dropWhile (p := (· == '.')) (l := e)] at slashed
      rcases List.mem_append.mp slashed with leading | kept
      · exact absurd (List.mem_takeWhile_imp leading) (by decide)
      · exact kept
    apply whole
    apply List.mem_append_right stem
    apply List.mem_cons_of_mem dot
    exact List.mem_flatMap.mpr ⟨_, kept, List.mem_singleton_self _⟩

theorem recognises_none {p : Path} (none : p.extension? = .none) (extensions : List Text) :
    recognises extensions p = false := by
  rw [← Bool.not_eq_true, recognises_iff]
  rintro ⟨_, _, found⟩
  rw [none] at found
  cases found

/-- A path is recognised exactly if it ends, slashes and segments that say nothing apart, in an
ordinary name with a dot and something before it, where what follows the last dot is UTF-8 and a
listed extension without its leading dots. So only the set of these matters, an extension with a
slash or a dot within can be listed or not, and neither a name whose only dot comes first nor a path
that ends in `..` is ever recognised. What a path ends in is its last component. -/
theorem recognised_by_ending (extensions : List Text) (p : Path) :
    (recognises extensions p = true ↔ ∃ stem x : Name, stem ≠ [] ∧ dot ∉ x ∧
      stem ++ dot :: x ≠ [dot, dot] ∧ p.EndsIn (stem ++ dot :: x) ∧
      ∃ t, Utf8.encode t = x ∧ ∃ e ∈ extensions, undotted e = t) ∧
    (∀ n, p.components.getLast? = some (.name n) ↔ n ≠ [dot, dot] ∧ p.EndsIn n) ∧
    (p.components.getLast? = some .up ↔ p.EndsIn [dot, dot]) ∧
    (∀ others, extensions.map undotted ⊆ others.map undotted →
      others.map undotted ⊆ extensions.map undotted →
      recognises extensions p = recognises others p) ∧
    (∀ e, '.' ∈ undotted e ∨ '/' ∈ e →
      recognises [e] p = false ∧ recognises (e :: extensions) p = recognises extensions p) ∧
    (∀ x, dot ∉ x → p.EndsIn (dot :: x) → recognises extensions p = false) ∧
    (p.EndsIn [dot, dot] → recognises extensions p = false) := by
  refine ⟨?_, fun _ => Path.getLast?_eq_name, Path.getLast?_eq_up, ?_, ?_, ?_, ?_⟩
  · rw [recognises_iff]
    constructor
    · rintro ⟨t, listed, found⟩
      obtain ⟨stem, named, last, ordinary, ends⟩ := Path.extension?_eq_some.mp found
      exact ⟨stem, _, named, last, ordinary, ends, t, rfl, List.mem_map.mp listed⟩
    · rintro ⟨stem, _, named, last, ordinary, ends, t, rfl, listed⟩
      exact ⟨t, List.mem_map.mpr listed,
        Path.extension?_eq_some.mpr ⟨stem, named, last, ordinary, ends⟩⟩
  · intro others among around
    rw [Bool.eq_iff_iff]
    exact ⟨recognises_mono among, recognises_mono around⟩
  · intro e broken
    have never := recognises_broken broken p
    exact ⟨never, by rw [recognises_cons, never, Bool.false_or]⟩
  · intro x last hidden
    exact recognises_none (Path.extension?_of_hidden last hidden) extensions
  · intro up
    exact recognises_none (Path.extension?_of_up up) extensions

theorem recognised_by_ending_odd :
    let extensions := ["...py", "x/y", "p.y"].map String.toList
    let others := ["py", "x/y", ".p.y", ".py"].map String.toList
    let p : Path := .ofText "../w.d/a..py//./".toList
    let hidden : Path := .ofText "/w/.py/".toList
    let up : Path := .ofText "a.py/..".toList
    (hidden.EndsIn (Utf8.encode ".py".toList) ∧ up.EndsIn [dot, dot]) ∧
      recognises extensions p = true ∧ recognises others p = true ∧
      recognises ["p.y".toList] p = false ∧ recognises ["x/y".toList] p = false ∧
      recognises extensions hidden = false ∧ recognises extensions up = false := by
  intro extensions others p hidden up
  have leading : hidden.EndsIn (Utf8.encode ".py".toList) :=
    ⟨rfl, by decide, Utf8.encode "/w/".toList, [[]], by decide,
      .inr ⟨Utf8.encode "/w".toList, by decide⟩, by decide⟩
  have parent : up.EndsIn [dot, dot] :=
    ⟨rfl, by decide, Utf8.encode "a.py/".toList, [], by decide,
      .inr ⟨Utf8.encode "a.py".toList, by decide⟩, by decide⟩
  obtain ⟨_, _, _, regrouped, broken, _⟩ := recognised_by_ending extensions p
  obtain ⟨_, _, _, _, _, never, _⟩ := recognised_by_ending extensions hidden
  obtain ⟨_, _, _, _, _, _, above⟩ := recognised_by_ending extensions up
  have found : recognises extensions p = true := by decide
  exact ⟨⟨leading, parent⟩, found, (regrouped others (by decide) (by decide)).symm.trans found,
    (broken _ (.inl (by decide))).1, (broken _ (.inr (by decide))).1,
    never (Utf8.encode "py".toList) (by decide) leading, above parent⟩

end Config

end LineGauge
