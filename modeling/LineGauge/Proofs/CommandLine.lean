import Mathlib.Logic.Relation
import LineGauge.Proofs.Numeral
import LineGauge.Proofs.Path
import LineGauge.Proofs.Switches

/-! Writing a command line. Every record of arguments can be written as options with their values
attached, the switches that are on, and the paths after the dashes, and reading gives the record
back. Each item adds one entry to the record, so the items may stand in any order that keeps the
entries of a list in theirs. -/
namespace LineGauge.Arguments

/-- What one item says. -/
inductive Entry where
  | exclude (p : Path)
  | extend (n : Nat)
  | codeLength (n : Nat)
  | docsLength (n : Nat)
  | config (p : Path)
  | extensions (t : Text)
  | format (f : Report.Format)
  | jobs (n : Nat)
  | maxDepth (n : Nat)
  | strict
  | noStrict
  | follow
  | gitignore

namespace Entry

/-- The option an entry belongs to. -/
def key : Entry → Key
  | .exclude _ => .valued .exclude
  | .extend _ => .valued .extend
  | .codeLength _ => .valued .codeLength
  | .docsLength _ => .valued .docsLength
  | .config _ => .valued .config
  | .extensions _ => .valued .extensions
  | .format _ => .valued .format
  | .jobs _ => .valued .jobs
  | .maxDepth _ => .valued .maxDepth
  | .strict => .switch .strict
  | .noStrict => .switch .noStrict
  | .follow => .switch .follow
  | .gitignore => .switch .gitignore

def formatName : Report.Format → Text
  | .text => "text".toList
  | .json => "json".toList

/-- The value of an entry as it is written, if its option takes one. -/
def value? : Entry → Option Bytes
  | .exclude p | .config p => some p.bytes
  | .extensions t => some (Utf8.encode t)
  | .extend n | .codeLength n | .docsLength n | .jobs n | .maxDepth n =>
    some (Utf8.encode (Number.decimal n))
  | .format f => some (Utf8.encode (formatName f))
  | .strict | .noStrict | .follow | .gitignore => none

/-- The item that says it: two dashes and the name of the option, and the value after `=`. -/
def spelled (e : Entry) : Bytes :=
  dashes ++ Utf8.encode e.key.name ++
    match e.value? with
    | some v => 0x3D :: v
    | none => []

/-- A value that can be written: a path is not empty, an item of a list has no comma, and a number
is within the bounds of its option. -/
def Sound : Entry → Prop
  | .exclude p => p.bytes ≠ [] ∧ 0x2C ∉ p.bytes
  | .extensions t => ',' ∉ t
  | .config p => p.bytes ≠ []
  | .extend n => n ≤ 2
  | .codeLength n | .docsLength n => n ≤ 2 ^ 64 - 1
  | .jobs n | .maxDepth n => 1 ≤ n ∧ n ≤ 2 ^ 64 - 1
  | _ => True

/-- Nothing that was read so far speaks against the entry: its option stands once, and the switches
for strictness do not stand together. -/
def Fresh (r : Reading) : Entry → Prop
  | .exclude _ | .extensions _ => True
  | .extend _ => r.found.extend = none
  | .codeLength _ => r.found.codeLength = none
  | .docsLength _ => r.found.docsLength = none
  | .config _ => r.found.config = none
  | .format _ => r.formatGiven = false
  | .jobs _ => r.found.jobs = none
  | .maxDepth _ => r.found.maxDepth = none
  | .strict | .noStrict => r.found.strict = false ∧ r.found.noStrict = false
  | .follow => r.found.follow = false
  | .gitignore => r.found.gitignore = false

/-- The reading after the entry. -/
def add (r : Reading) : Entry → Reading
  | .exclude p => { r with found := { r.found with exclude := r.found.exclude ++ [p] } }
  | .extensions t => { r with found := { r.found with extensions := r.found.extensions ++ [t] } }
  | .extend n => { r with found := { r.found with extend := some n } }
  | .codeLength n => { r with found := { r.found with codeLength := some n } }
  | .docsLength n => { r with found := { r.found with docsLength := some n } }
  | .config p => { r with found := { r.found with config := some p } }
  | .format f => { r with found := { r.found with format := f }, formatGiven := true }
  | .jobs n => { r with found := { r.found with jobs := some n } }
  | .maxDepth n => { r with found := { r.found with maxDepth := some n } }
  | .strict => { r with found := { r.found with strict := true, noStrict := false } }
  | .noStrict => { r with found := { r.found with noStrict := true, strict := false } }
  | .follow => { r with found := { r.found with follow := true } }
  | .gitignore => { r with found := { r.found with gitignore := true } }

end Entry

section
variable {r : Reading} (options : r.onlyPaths = false) (idle : r.pending = .nothing)
include options idle

theorem take_valued (option : Valued) (v : Bytes) :
    take r (dashes ++ Utf8.encode (Key.valued option).name ++ 0x3D :: v) = store r option v := by
  obtain ⟨found, formatGiven, pending, onlyPaths⟩ := r
  subst options idle
  cases option <;> rfl

theorem take_switch (option : Switch) :
    take r (dashes ++ Utf8.encode (Key.switch option).name ++ []) =
      turnOn r.found option >>= fun a => .ok { r with found := a } := by
  obtain ⟨found, formatGiven, pending, onlyPaths⟩ := r
  subst options idle
  cases option <;> rfl

end

theorem numberValue_decimal {reader : Text → Except Number.Refusal Nat} {least greatest : Nat}
    (exact : Number.ReadsExactly reader least greatest) {n : Nat} (low : least ≤ n)
    (high : n ≤ greatest) :
    numberValue reader (Utf8.encode (Number.decimal n)) = .ok n := by
  have read := exact.readsDecimal n low high
  simp [numberValue, textValue, Utf8.decode?_encode, bind, Except.bind, read]

theorem listItems_single {v : Bytes} (single : 0x2C ∉ v) : listItems v = [v] := by
  apply pieces_of_none
  intro b member
  rw [beq_eq_false_iff_ne]
  rintro rfl
  exact single member

theorem once_off {α : Type} {given : Bool} (off : given = false) (value : Except UsageError α) :
    once given value = value := by
  subst off
  rfl

theorem once_absent {α β : Type} {o : Option β} (absent : o = none) (value : Except UsageError α) :
    once o.isSome value = value :=
  once_off (Option.isSome_eq_false_iff.mpr (Option.isNone_iff_eq_none.mpr absent)) value

theorem formatValue_formatName (f : Report.Format) :
    formatValue (Utf8.encode (Entry.formatName f)) = .ok f := by
  cases f <;> rfl

/-- One item adds its entry. -/
theorem take_spelled {r : Reading} (options : r.onlyPaths = false) (idle : r.pending = .nothing)
    {e : Entry} (sound : e.Sound) (fresh : e.Fresh r) : take r e.spelled = .ok (e.add r) := by
  have valued := take_valued options idle
  have switch := take_switch options idle
  cases e with
  | exclude p =>
    apply (valued .exclude p.bytes).trans
    have path : pathValue p.bytes = .ok p := by simp [pathValue, sound.1]
    simp only [store, listItems_single sound.2, List.mapM_cons, List.mapM_nil, path]
    rfl
  | extensions t =>
    apply (valued .extensions (Utf8.encode t)).trans
    have single : 0x2C ∉ Utf8.encode t := fun comma => sound (Utf8.mem_of_mem_encode comma (by decide))
    have text : textValue (Utf8.encode t) = .ok t := by simp [textValue, Utf8.decode?_encode]
    simp only [store, listItems_single single, List.mapM_cons, List.mapM_nil, text]
    rfl
  | extend n =>
    apply (valued .extend _).trans
    have number := numberValue_decimal Number.level_readsExactly (Nat.zero_le n) sound
    simp only [store, once_absent fresh, number]
    rfl
  | codeLength n =>
    apply (valued .codeLength _).trans
    have number := numberValue_decimal Number.length_readsExactly (Nat.zero_le n) sound
    simp only [store, once_absent fresh, number]
    rfl
  | docsLength n =>
    apply (valued .docsLength _).trans
    have number := numberValue_decimal Number.length_readsExactly (Nat.zero_le n) sound
    simp only [store, once_absent fresh, number]
    rfl
  | jobs n =>
    apply (valued .jobs _).trans
    have number := numberValue_decimal Number.positive_readsExactly sound.1 sound.2
    simp only [store, once_absent fresh, number]
    rfl
  | maxDepth n =>
    apply (valued .maxDepth _).trans
    have number := numberValue_decimal Number.positive_readsExactly sound.1 sound.2
    simp only [store, once_absent fresh, number]
    rfl
  | config p =>
    apply (valued .config p.bytes).trans
    have filled : p.bytes ≠ [] := sound
    have path : pathValue p.bytes = .ok p := by simp [pathValue, filled]
    simp only [store, once_absent fresh, path]
    rfl
  | format f =>
    apply (valued .format _).trans
    simp only [store, once_off fresh, formatValue_formatName]
    rfl
  | strict =>
    apply (switch .strict).trans
    simp only [turnOn, once_off fresh.1]
    rfl
  | noStrict =>
    apply (switch .noStrict).trans
    simp only [turnOn, once_off fresh.2]
    rfl
  | follow =>
    apply (switch .follow).trans
    simp only [turnOn, once_off fresh]
    rfl
  | gitignore =>
    apply (switch .gitignore).trans
    simp only [turnOn, once_off fresh]
    rfl

/-- Every entry is fresh when its turn comes. -/
def Accepts (r : Reading) : List Entry → Prop
  | [] => True
  | e :: es => e.Fresh r ∧ Accepts (e.add r) es

theorem add_frame (r : Reading) (e : Entry) :
    (e.add r).onlyPaths = r.onlyPaths ∧ (e.add r).pending = r.pending := by
  cases e <;> exact ⟨rfl, rfl⟩

theorem foldl_add_frame (r : Reading) (es : List Entry) :
    (es.foldl Entry.add r).onlyPaths = r.onlyPaths ∧ (es.foldl Entry.add r).pending = r.pending := by
  induction es generalizing r with
  | nil => exact ⟨rfl, rfl⟩
  | cons e es ih =>
    obtain ⟨options, idle⟩ := add_frame r e
    rw [← options, ← idle]
    exact ih (e.add r)

theorem read_entries {r : Reading} (options : r.onlyPaths = false) (idle : r.pending = .nothing)
    {es : List Entry} (sound : ∀ e ∈ es, e.Sound) (accepts : Accepts r es) :
    (es.map Entry.spelled).foldlM take r = .ok (es.foldl Entry.add r) := by
  induction es generalizing r with
  | nil => rfl
  | cons e es ih =>
    obtain ⟨soundFirst, soundOthers⟩ := List.forall_mem_cons.mp sound
    obtain ⟨fresh, later⟩ := accepts
    obtain ⟨sameOptions, samePending⟩ := add_frame r e
    rw [List.map_cons, List.foldlM_cons, take_spelled options idle soundFirst fresh]
    exact ih (sameOptions.trans options) (samePending.trans idle) soundOthers later

theorem read_paths {r : Reading} (only : r.onlyPaths = true) {vs : List Bytes}
    (waiting : r.pending = .paths vs) (items : List Bytes) :
    items.foldlM take r = .ok { r with pending := .paths (vs ++ items) } := by
  induction items generalizing r vs with
  | nil =>
    rw [List.append_nil, ← waiting]
    rfl
  | cons item items ih =>
    have first : take r item = .ok { r with pending := .paths (vs ++ [item]) } := by
      simp only [take, only, if_true, takePath, waiting]
    rw [List.foldlM_cons, first]
    have later := ih (r := { r with pending := .paths (vs ++ [item]) }) only rfl
    rwa [List.append_assoc] at later

theorem mapM_pathValue {paths : List Path} (filled : ∀ p ∈ paths, p.bytes ≠ []) :
    (paths.map Path.bytes).mapM pathValue = .ok paths := by
  induction paths with
  | nil => rfl
  | cons p paths ih =>
    obtain ⟨first, others⟩ := List.forall_mem_cons.mp filled
    have path : pathValue p.bytes = .ok p := by simp [pathValue, first]
    rw [List.map_cons, List.mapM_cons, path, ih others]
    rfl

/-- After the dashes the items are stored as paths when the command line ends. -/
theorem read_escaped {r : Reading} (options : r.onlyPaths = false) (idle : r.pending = .nothing)
    {paths : List Path} (filled : ∀ p ∈ paths, p.bytes ≠ []) :
    (dashes :: paths.map Path.bytes).foldlM take r >>= finish =
      .ok { r.found with paths := r.found.paths ++ paths } := by
  obtain ⟨found, formatGiven, pending, onlyPaths⟩ := r
  subst options idle
  cases paths with
  | nil =>
    rw [List.append_nil]
    rfl
  | cons p paths =>
    have stored := mapM_pathValue filled
    have waits := read_paths (r := ⟨found, formatGiven, .paths [p.bytes], true⟩) rfl rfl
      (paths.map Path.bytes)
    change (paths.map Path.bytes).foldlM take ⟨found, formatGiven, .paths [p.bytes], true⟩ >>=
      finish = _
    rw [waits]
    change ((p :: paths).map Path.bytes).mapM pathValue >>= _ >>= _ = _
    rw [stored]
    rfl

/-- The command line of these entries and paths. -/
def commandLine (es : List Entry) (paths : List Path) : List Bytes :=
  es.map Entry.spelled ++ dashes :: paths.map Path.bytes

theorem parse_commandLine {es : List Entry} (sound : ∀ e ∈ es, e.Sound) (accepts : Accepts {} es)
    {paths : List Path} (filled : ∀ p ∈ paths, p.bytes ≠ []) :
    parse (commandLine es paths) =
      let a := (es.foldl Entry.add {}).found
      .ok { a with paths := a.paths ++ paths } := by
  obtain ⟨options, idle⟩ := foldl_add_frame {} es
  change (commandLine es paths).foldlM take {} >>= finish = _
  rw [commandLine, List.foldlM_append, read_entries rfl rfl sound accepts]
  exact read_escaped options idle filled

theorem accepts_append {r : Reading} {es fs : List Entry} :
    Accepts r (es ++ fs) ↔ Accepts r es ∧ Accepts (es.foldl Entry.add r) fs := by
  induction es generalizing r with
  | nil => simp [Accepts]
  | cons e es ih => simp only [List.cons_append, Accepts, ih, List.foldl_cons, and_assoc]

/-- Two neighbours that belong to different options change places. -/
inductive Swap : List Entry → List Entry → Prop
  | neighbours (before after : List Entry) {e f : Entry} (apart : e.key ≠ f.key) :
      Swap (before ++ e :: f :: after) (before ++ f :: e :: after)

theorem add_swap {r : Reading} {e f : Entry} (apart : e.key ≠ f.key) (first : e.Fresh r)
    (second : f.Fresh (e.add r)) :
    f.Fresh r ∧ e.Fresh (f.add r) ∧ e.add (f.add r) = f.add (e.add r) := by
  cases e <;> cases f <;> simp_all [Entry.Fresh, Entry.add, Entry.key]

theorem Swap.read {r : Reading} {es fs : List Entry} (swap : Swap es fs) (accepts : Accepts r es) :
    Accepts r fs ∧ fs.foldl Entry.add r = es.foldl Entry.add r := by
  obtain ⟨before, after, apart⟩ := swap
  obtain ⟨start, first, second, later⟩ := accepts_append.mp accepts
  obtain ⟨freshSecond, freshFirst, same⟩ := add_swap apart first second
  constructor
  · apply accepts_append.mpr
    refine ⟨start, freshSecond, freshFirst, ?_⟩
    rwa [same]
  · simp only [List.foldl_append, List.foldl_cons, same]

theorem Swap.sound {es fs : List Entry} (swap : Swap es fs) (sound : ∀ e ∈ es, e.Sound) :
    ∀ e ∈ fs, e.Sound := by
  obtain ⟨before, after, _⟩ := swap
  intro e member
  apply sound e
  simp only [List.mem_append, List.mem_cons] at member ⊢
  tauto

/-- Reading these entries, all of them sound and fresh, leads from one reading to another. -/
structure Leads (r : Reading) (es : List Entry) (r' : Reading) : Prop where
  sound : ∀ e ∈ es, e.Sound
  accepts : Accepts r es
  result : es.foldl Entry.add r = r'

theorem Leads.nil (r : Reading) : Leads r [] r where
  sound := nofun
  accepts := trivial
  result := rfl

theorem Leads.append {r s t : Reading} {es fs : List Entry} (first : Leads r es s)
    (second : Leads s fs t) : Leads r (es ++ fs) t where
  sound := List.forall_mem_append.mpr ⟨first.sound, second.sound⟩
  accepts := accepts_append.mpr ⟨first.accepts, first.result ▸ second.accepts⟩
  result := by rw [List.foldl_append, first.result, second.result]

theorem Leads.one {r s : Reading} {e : Entry} (sound : e.Sound) (fresh : e.Fresh r)
    (added : e.add r = s) : Leads r [e] s where
  sound := List.forall_mem_singleton.mpr sound
  accepts := ⟨fresh, trivial⟩
  result := added

theorem Leads.swap {r s : Reading} {es fs : List Entry} (leads : Leads r es s)
    (swap : Swap es fs) : Leads r fs s where
  sound := swap.sound leads.sound
  accepts := (swap.read leads.accepts).1
  result := (swap.read leads.accepts).2.trans leads.result

/-- The entries of a list, after those of it that were read before. -/
theorem Leads.list {α : Type} (make : α → Entry) (put : List α → Reading) {xs : List α}
    (sound : ∀ x ∈ xs, (make x).Sound) (fresh : ∀ done x, (make x).Fresh (put done))
    (added : ∀ done x, (make x).add (put done) = put (done ++ [x])) (done : List α) :
    Leads (put done) (xs.map make) (put (done ++ xs)) := by
  induction xs generalizing done with
  | nil =>
    rw [List.append_nil]
    exact .nil _
  | cons x xs ih =>
    obtain ⟨first, others⟩ := List.forall_mem_cons.mp sound
    have later := ih others (done ++ [x])
    rw [List.append_assoc] at later
    exact (Leads.one first (fresh done x) (added done x)).append later

theorem Leads.option {α : Type} (make : α → Entry) (put : Option α → Reading) {o : Option α}
    (sound : ∀ x ∈ o, (make x).Sound) (fresh : ∀ x, (make x).Fresh (put none))
    (added : ∀ x, (make x).add (put none) = put (some x)) :
    Leads (put none) (o.toList.map make) (put o) := by
  cases o with
  | none => exact .nil _
  | some x => exact .one (sound x rfl) (fresh x) (added x)

theorem Leads.when {on : Bool} {e : Entry} {r s : Reading} (sound : e.Sound)
    (fresh : on = true → e.Fresh r) (off : on = false → r = s) (added : on = true → e.add r = s) :
    Leads r (if on then [e] else []) s := by
  cases on with
  | false =>
    rw [off rfl]
    exact .nil s
  | true => exact .one sound (fresh rfl) (added rfl)

/-- The options of a record with their values. The format may be left out where it is the usual
one. -/
def optionEntries (a : Arguments) (showFormat : Bool) : List Entry :=
  a.exclude.map .exclude ++ (a.extend.toList.map .extend ++
    (a.codeLength.toList.map .codeLength ++ (a.docsLength.toList.map .docsLength ++
      (a.config.toList.map .config ++ (a.extensions.map .extensions ++
        (a.jobs.toList.map .jobs ++ (a.maxDepth.toList.map .maxDepth ++
          (if showFormat then [.format a.format] else []))))))))

/-- The switches of a record that are on. -/
def switchEntries (a : Arguments) : List Entry :=
  (if a.strict then [.strict] else []) ++ ((if a.noStrict then [.noStrict] else []) ++
    ((if a.follow then [.follow] else []) ++ (if a.gitignore then [.gitignore] else [])))

/-- All of a record but its paths. -/
def entries (a : Arguments) (showFormat : Bool) : List Entry :=
  a.optionEntries showFormat ++ a.switchEntries

/-- A record that can be written: its values can, and not both switches for strictness are on. -/
structure Writable (a : Arguments) : Prop where
  paths : ∀ p ∈ a.paths, p.bytes ≠ []
  exclude : ∀ p ∈ a.exclude, p.bytes ≠ [] ∧ 0x2C ∉ p.bytes
  extend : ∀ n ∈ a.extend, n ≤ 2
  codeLength : ∀ n ∈ a.codeLength, n ≤ 2 ^ 64 - 1
  docsLength : ∀ n ∈ a.docsLength, n ≤ 2 ^ 64 - 1
  config : ∀ p ∈ a.config, p.bytes ≠ []
  extensions : ∀ t ∈ a.extensions, ',' ∉ t
  jobs : ∀ n ∈ a.jobs, 1 ≤ n ∧ n ≤ 2 ^ 64 - 1
  maxDepth : ∀ n ∈ a.maxDepth, 1 ≤ n ∧ n ≤ 2 ^ 64 - 1
  decided : ¬ (a.strict = true ∧ a.noStrict = true)

/-- The record as far as its options tell it. -/
def optionsOnly (a : Arguments) : Arguments :=
  { a with paths := [], strict := false, noStrict := false, follow := false, gitignore := false }

section
variable {a : Arguments} (writable : a.Writable)
include writable

theorem leads_options {showFormat : Bool} (usual : showFormat = false → a.format = .text) :
    Leads {} (a.optionEntries showFormat)
      { found := a.optionsOnly, formatGiven := showFormat } := by
  obtain ⟨paths, exclude, extend, codeLength, docsLength, strict, noStrict, config, extensions,
    format, jobs, follow, maxDepth, gitignore⟩ := a
  -- block by block, each with the record as it is filled in so far
  refine .append (.list .exclude (fun xs => { found := { exclude := xs } })
    writable.exclude (fun _ _ => trivial) (fun _ _ => rfl) []) ?_
  refine .append (.option .extend (fun o => { found := { exclude, extend := o } })
    writable.extend (fun _ => rfl) (fun _ => rfl)) ?_
  refine .append (.option .codeLength
    (fun o => { found := { exclude, extend, codeLength := o } })
    writable.codeLength (fun _ => rfl) (fun _ => rfl)) ?_
  refine .append (.option .docsLength
    (fun o => { found := { exclude, extend, codeLength, docsLength := o } })
    writable.docsLength (fun _ => rfl) (fun _ => rfl)) ?_
  refine .append (.option .config
    (fun o => { found := { exclude, extend, codeLength, docsLength, config := o } })
    writable.config (fun _ => rfl) (fun _ => rfl)) ?_
  refine .append (.list .extensions
    (fun xs => { found := { exclude, extend, codeLength, docsLength, config, extensions := xs } })
    writable.extensions (fun _ _ => trivial) (fun _ _ => rfl) []) ?_
  refine .append (.option .jobs
    (fun o => { found :=
      { exclude, extend, codeLength, docsLength, config, extensions, jobs := o } })
    writable.jobs (fun _ => rfl) (fun _ => rfl)) ?_
  refine .append (.option .maxDepth
    (fun o => { found :=
      { exclude, extend, codeLength, docsLength, config, extensions, jobs, maxDepth := o } })
    writable.maxDepth (fun _ => rfl) (fun _ => rfl)) ?_
  refine .when trivial (fun _ => rfl) ?_ ?_
  · rintro rfl
    cases usual rfl
    rfl
  · rintro rfl
    rfl

theorem leads_switches (formatGiven : Bool) :
    Leads { found := a.optionsOnly, formatGiven } a.switchEntries
      { found := { a with paths := [] }, formatGiven } := by
  obtain ⟨paths, exclude, extend, codeLength, docsLength, strict, noStrict, config, extensions,
    format, jobs, follow, maxDepth, gitignore⟩ := a
  let options : Arguments :=
    { exclude, extend, codeLength, docsLength, config, extensions, format, jobs, maxDepth }
  have alone : noStrict = true → strict = false := by
    rintro rfl
    exact Bool.eq_false_iff.mpr fun on => writable.decided ⟨on, rfl⟩
  have first : Leads { found := options, formatGiven } (if strict then [.strict] else [])
      { found := { options with strict }, formatGiven } := by
    refine .when trivial (fun _ => ⟨rfl, rfl⟩) ?_ ?_ <;>
      (rintro rfl; rfl)
  have second : Leads { found := { options with strict }, formatGiven }
      (if noStrict then [.noStrict] else [])
      { found := { options with strict, noStrict }, formatGiven } := by
    refine .when trivial (fun on => ⟨alone on, rfl⟩) ?_ ?_
    · rintro rfl
      rfl
    · intro on
      cases alone on
      cases on
      rfl
  have third : Leads { found := { options with strict, noStrict }, formatGiven }
      (if follow then [.follow] else [])
      { found := { options with strict, noStrict, follow }, formatGiven } := by
    refine .when trivial (fun _ => rfl) ?_ ?_ <;>
      (rintro rfl; rfl)
  have last : Leads { found := { options with strict, noStrict, follow }, formatGiven }
      (if gitignore then [.gitignore] else [])
      { found := { options with strict, noStrict, follow, gitignore }, formatGiven } := by
    refine .when trivial (fun _ => rfl) ?_ ?_ <;>
      (rintro rfl; rfl)
  exact first.append (second.append (third.append last))

end

theorem Leads.rearranged {r s : Reading} {es fs : List Entry} (leads : Leads r es s)
    (arranged : Relation.ReflTransGen Swap es fs) : Leads r fs s := by
  induction arranged with
  | refl => exact leads
  | tail _ swap ih => exact ih.swap swap

/-- A record that can be written is read back from its command line: an item for every option that
is set, one for each item of a list, the switches that are on, and the paths after the dashes. The
format may be left out where it is the usual one, and options and switches may stand in any order
that keeps the items of a list in theirs. -/
theorem written_arguments_read_back (a : Arguments) (writable : a.Writable) (showFormat : Bool)
    (usual : showFormat = false → a.format = .text) (es : List Entry)
    (arranged : Relation.ReflTransGen Swap (a.entries showFormat) es) :
    parse (commandLine es a.paths) = .ok a := by
  have listed : Leads {} (a.entries showFormat) _ :=
    (leads_options writable usual).append (leads_switches writable showFormat)
  have leads := listed.rearranged arranged
  rw [parse_commandLine leads.sound leads.accepts writable.paths, leads.result]
  rfl

/-- Paths that look like options, values with an equals sign, the least and the greatest numbers, and
an empty extension. -/
def oddArguments : Arguments where
  paths := [.ofText "--".toList, .ofText "-s".toList, ⟨[0xFF, 0x2C]⟩]
  exclude := [.ofText "--jobs=2".toList, ⟨[0xFF]⟩]
  extend := some 2
  codeLength := some (2 ^ 64 - 1)
  docsLength := some 0
  noStrict := true
  config := some (.ofText "a,b=c".toList)
  extensions := ["py".toList, []]
  format := .json
  jobs := some 1
  maxDepth := some (2 ^ 64 - 1)
  gitignore := true

theorem oddArguments_writable : oddArguments.Writable := by
  constructor <;> decide

theorem written_arguments_read_back_odd :
    let es := [Entry.exclude (.ofText "--jobs=2".toList), .extend 2, .exclude ⟨[0xFF]⟩] ++
      (oddArguments.entries true).drop 3
    oddArguments.Writable ∧ Relation.ReflTransGen Swap (oddArguments.entries true) es ∧
      parse (commandLine es oddArguments.paths) = .ok oddArguments := by
  intro es
  have arranged : Relation.ReflTransGen Swap (oddArguments.entries true) es :=
    .single (.neighbours [.exclude (.ofText "--jobs=2".toList)] _ (by decide))
  exact ⟨oddArguments_writable, arranged,
    written_arguments_read_back oddArguments oddArguments_writable true nofun es arranged⟩

end LineGauge.Arguments
