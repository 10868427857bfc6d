import LineGauge.Proofs.Keys
import LineGauge.Proofs.Literals
import LineGauge.Proofs.Utf8

/-! Settings written to a file: a table with one line for each key that is set, after a document of
other tables. The lines are read one by one, each adds its key to the table, and the settings are
read back as they were. -/
namespace LineGauge

namespace Toml

namespace Items

theorem lookup_put_self (items : Items) (key : Text) (item : Item) :
    (items.put key item).lookup key = some item := by
  fun_induction put items key item with
  | case1 => exact List.lookup_cons_self
  | case2 k i rest same =>
    cases beq_iff_eq.mp same
    exact List.lookup_cons_self
  | case3 k i rest other ih =>
    rw [Settings.lookup_cons_other fun same => other (beq_iff_eq.mpr same.symm)]
    exact ih

theorem put_put (items : Items) (key : Text) (item new : Item) :
    (items.put key item).put key new = items.put key new := by
  fun_induction put items key item with
  | case1 => simp [put]
  | case2 k i rest same => simp [put, same]
  | case3 k i rest other ih => simp [put, other, ih]

theorem put_of_lookup_eq_none {items : Items} {key : Text} (absent : items.lookup key = none)
    (item : Item) : items.put key item = items ++ [(key, item)] := by
  fun_induction put items key item with
  | case1 => rfl
  | case2 k i rest same =>
    cases beq_iff_eq.mp same
    rw [List.lookup_cons_self] at absent
    cases absent
  | case3 k i rest other ih =>
    rw [Settings.lookup_cons_other fun same => other (beq_iff_eq.mpr same.symm)] at absent
    exact congrArg ((k, i) :: ·) (ih absent)

theorem lookup_fieldsOf (items : Items) (key : Text) :
    (Item.fieldsOf items).lookup key = (items.lookup key).map Item.toValue := by
  rw [fieldsOf_eq]
  induction items with
  | nil => rfl
  | cons entry items ih =>
    obtain ⟨k, i⟩ := entry
    simp only [List.map_cons, List.lookup_cons]
    split
    · rfl
    · exact ih

end Items

namespace Draft

/-- A document at the table of a header of two parts. -/
def inTable (items : Items) (outer name : Text) (inner : Items) : Draft where
  items := items.put outer (.table .implied [(name, .table .header inner)])
  header := [outer, name]

theorem open?_new {d : Draft} {outer : Text} (free : d.items.lookup outer = none) (name : Text) :
    d.open? openTable? [outer, name] = some (inTable d.items outer name []) := by
  simp [open?, changeAt?, free, openTable?, inTable, Items.put]

theorem assign?_inTable (items : Items) (outer name : Text) {inner : Items} {key : Text}
    (absent : inner.lookup key = none) (v : Value) :
    (inTable items outer name inner).assign? [key] v =
      some (inTable items outer name (inner ++ [(key, .value v)])) := by
  have defined : Toml.assign? [key] v .header inner = some (inner ++ [(key, .value v)]) := by
    rw [← Items.put_of_lookup_eq_none absent]
    simp [Toml.assign?, changeAt?, define?, absent]
  simp [assign?, inTable, changeAt?, Items.lookup_put_self, defined, Items.put, Items.put_put]

end Draft

end Toml

namespace Settings

open Toml (Literal Draft)

def texts? (ts : List Text) : Option Literal := if ts.isEmpty then none else some (.texts ts)

/-- What is written for a key, if it is set. -/
def Key.literal? : Key → Settings → Option Literal
  | .roots, s => texts? (s.roots.map Path.display)
  | .exclude, s => texts? (s.exclude.map Path.display)
  | .codeLength, s => s.codeLength.map .number
  | .docsLength, s => s.docsLength.map .number
  | .extend, s => s.extend.map .number
  | .strict, s => s.strict.map .boolean
  | .extensions, s => texts? s.extensions

/-- A way to write settings: the order of the keys, and how each character is spelled. -/
structure Writer where
  order : List Key
  complete : order.Perm Key.all
  spell : Char → Text
  sound : ∀ c, Toml.Spelling c (spell c)

namespace Writer

def line (w : Writer) (s : Settings) (key : Key) : Text :=
  match key.literal? s with
  | none => []
  | some l => key.name ++ (" = ".toList ++ (l.text w.spell ++ ['\n']))

/-- The table of the settings, with its header. -/
def text (w : Writer) (s : Settings) : Text :=
  "[tool.len8]\n".toList ++ w.order.flatMap (w.line s)

end Writer

/-- Settings that can be written: paths are text, and lengths are numbers of TOML. The level is a
byte. -/
structure Writable (s : Settings) : Prop where
  roots : ∀ p ∈ s.roots, Utf8.Valid p.bytes
  exclude : ∀ p ∈ s.exclude, Utf8.Valid p.bytes
  codeLength : ∀ n ∈ s.codeLength, n < 2 ^ 63
  docsLength : ∀ n ∈ s.docsLength, n < 2 ^ 63
  extend : ∀ n ∈ s.extend, n ≤ 255

theorem ofText_display {p : Path} (valid : Utf8.Valid p.bytes) : Path.ofText p.display = p := by
  obtain ⟨t, written⟩ := valid
  have read : Utf8.decode? p.bytes = some t := by
    rw [← written]
    exact Utf8.decode?_encode t
  rw [Path.display, Utf8.decodeLossy_of_decode? read, Path.ofText, written]

theorem paths_read_back {paths : List Path} (valid : ∀ p ∈ paths, Utf8.Valid p.bytes) :
    paths = (paths.map Path.display).map .ofText := by
  induction paths with
  | nil => rfl
  | cons p paths ih =>
    rw [List.forall_mem_cons] at valid
    rw [List.map_cons, List.map_cons, ofText_display valid.1, ← ih valid.2]

theorem Key.literal?_means {s : Settings} (writable : s.Writable) (key : Key) :
    match key.literal? s with
    | some l => l.Fits ∧ key.Means l.value (key.get s)
    | none => key.get s = key.get {} := by
  obtain ⟨roots, exclude, codeLength, docsLength, extend, strict, extensions⟩ := s
  cases key with
  | roots =>
    cases roots with
    | nil => rfl
    | cons p roots => exact ⟨trivial, _, rfl, paths_read_back writable.roots⟩
  | exclude =>
    cases exclude with
    | nil => rfl
    | cons p exclude => exact ⟨trivial, _, rfl, paths_read_back writable.exclude⟩
  | codeLength =>
    cases codeLength with
    | none => rfl
    | some n => exact ⟨writable.codeLength n rfl, n, rfl, rfl⟩
  | docsLength =>
    cases docsLength with
    | none => rfl
    | some n => exact ⟨writable.docsLength n rfl, n, rfl, rfl⟩
  | extend =>
    cases extend with
    | none => rfl
    | some n =>
      have byte : n ≤ 255 := writable.extend n rfl
      exact ⟨Nat.lt_of_le_of_lt byte (by decide), n, byte, rfl, rfl⟩
  | strict =>
    cases strict with
    | none => rfl
    | some b => exact ⟨trivial, b, rfl, rfl⟩
  | extensions =>
    cases extensions with
    | nil => rfl
    | cons t extensions => exact ⟨trivial, _, rfl, rfl⟩

theorem takes_header {d : Draft} (free : d.items.lookup toolsName = none) :
    d.Takes "[tool.len8]\n".toList (.inTable d.items toolsName toolName []) := by
  apply Draft.takes_line
  · exact Toml.Ended.feed.append "[tool.len8]".toList
  · rfl
  · have key : Toml.key? Toml.partLimit "tool.len8]\n".toList =
        some ([toolsName, toolName], "]\n".toList) := rfl
    change d.header? Toml.openTable? [']'] "tool.len8]\n".toList = _
    rw [Draft.header?, key]
    have opened := Draft.open?_new free toolName
    simp only [Option.bind_eq_bind, Option.bind_some, opened]
    rfl

theorem pair?_line (key : Key) {l : Literal} {spell : Char → Text}
    (sound : ∀ c, Toml.Spelling c (spell c)) (fits : l.Fits) (depth : Nat) :
    Toml.pair? (Toml.value? (depth + 1)) (key.name ++ (" = ".toList ++ (l.text spell ++ ['\n']))) =
      some (([key.name], l.value), ['\n']) := by
  have named (t : Text) : Toml.key? Toml.partLimit (key.name ++ (" = ".toList ++ t)) =
      some ([key.name], '=' :: ' ' :: t) := by
    cases key <;> rfl
  have blank : Toml.skipSpace (' ' :: (l.text spell ++ ['\n'])) = l.text spell ++ ['\n'] :=
    l.skipSpace_text spell ['\n']
  unfold Toml.pair?
  rw [named]
  simp only [blank, Literal.value?_text sound fits depth []]
  rfl

theorem takes_keyLine {w : Writer} {s : Settings} {key : Key} {l : Literal}
    (set : key.literal? s = some l) (fits : l.Fits) (items : Toml.Items) {inner : Toml.Items}
    (absent : inner.lookup key.name = none) :
    (Draft.inTable items toolsName toolName inner).Takes (w.line s key)
      (.inTable items toolsName toolName (inner ++ [(key.name, .value l.value)])) := by
  have start (d : Draft) (t : Text) : d.line? (key.name ++ t) = d.keyLine? (key.name ++ t) := by
    cases key <;> rfl
  simp only [Writer.line, set]
  apply Draft.takes_line
  · exact ((Toml.Ended.feed.append _).append _).append _
  · cases key <;> rfl
  · rw [start, Draft.keyLine?, Toml.depthLimit, pair?_line key w.sound fits]
    simp only [Option.bind_eq_bind, Option.bind_some,
      Draft.assign?_inTable items toolsName toolName absent l.value]
    rfl

/-- The keys that are written, with their values. -/
def writtenFields (s : Settings) (keys : List Key) : Toml.Fields :=
  keys.filterMap fun key => (key.literal? s).map fun l => (key.name, l.value)

theorem takes_lines (w : Writer) {s : Settings} (writable : s.Writable) (items inner : Toml.Items)
    {keys : List Key} (distinct : keys.Nodup)
    (absent : ∀ key ∈ keys, inner.lookup key.name = none) :
    (Draft.inTable items toolsName toolName inner).Takes (keys.flatMap (w.line s))
      (.inTable items toolsName toolName
        (inner ++ (s.writtenFields keys).map fun (n, v) => (n, .value v))) := by
  induction keys generalizing inner with
  | nil =>
    rw [writtenFields, List.filterMap_nil, List.map_nil, List.append_nil]
    exact .refl _
  | cons key keys ih =>
    -- a key that is not set has no line and leaves the document as it is
    rw [List.nodup_cons] at distinct
    rw [List.forall_mem_cons] at absent
    rw [List.flatMap_cons, writtenFields, List.filterMap_cons]
    have means := key.literal?_means writable
    cases set : key.literal? s with
    | none =>
      simp only [Writer.line, set]
      exact ih inner distinct.2 absent.2
    | some l =>
      rw [set] at means
      have later : ∀ other ∈ keys,
          (inner ++ [(key.name, Toml.Item.value l.value)]).lookup other.name = none := by
        intro other member
        have apart : other ≠ key := by
          rintro rfl
          exact distinct.1 member
        rw [List.lookup_append, absent.2 other member, lookup_cons_other (Key.name_ne apart)]
        rfl
      have rest := ih _ distinct.2 later
      rw [List.append_assoc] at rest
      exact (takes_keyLine set means.1 items absent.1).append rest

theorem tableIn?_inTable (items : Toml.Items) (fields : Toml.Fields) :
    tableIn? (Toml.Item.fieldsOf (Draft.inTable items toolsName toolName
      (fields.map fun (n, v) => (n, .value v))).items) = some fields := by
  have inner : Toml.Item.fieldsOf (fields.map fun (n, v) => (n, .value v)) = fields := by
    rw [Toml.Items.fieldsOf_eq, List.map_map]
    conv_rhs => rw [← List.map_id fields]
    apply List.map_congr_left
    rintro ⟨n, v⟩ -
    simp [Toml.Item.toValue]
  have outer := Toml.Items.lookup_put_self items toolsName
  simp only [tableIn?, Toml.Items.lookup_fieldsOf, Draft.inTable, outer, Option.map_some,
    Toml.toValue_table, List.lookup_cons_self, inner]

theorem tells_writtenFields {s : Settings} (writable : s.Writable) {keys : List Key}
    (complete : ∀ key, key ∈ keys) (distinct : ((s.writtenFields keys).map Prod.fst).Nodup) :
    Tells {} (s.writtenFields keys) s := by
  intro key
  have means := key.literal?_means writable
  have found (v : Toml.Value) : (s.writtenFields keys).lookup key.name = some v ↔
      ∃ l, key.literal? s = some l ∧ l.value = v := by
    rw [lookup_eq_some_iff_mem distinct, writtenFields, List.mem_filterMap]
    constructor
    · rintro ⟨other, -, written⟩
      obtain ⟨l, set, same⟩ := Option.map_eq_some_iff.mp written
      obtain ⟨name, value⟩ := Prod.mk.inj same
      have equal : other = key := Classical.not_not.mp fun apart => Key.name_ne apart name
      rw [equal] at set
      exact ⟨l, set, value⟩
    · rintro ⟨l, set, rfl⟩
      refine ⟨key, complete key, ?_⟩
      rw [set]
      rfl
  cases lookup : (s.writtenFields keys).lookup key.name with
  | some v =>
    obtain ⟨l, set, rfl⟩ := (found v).mp lookup
    rw [set] at means
    exact means.2
  | none =>
    cases set : key.literal? s with
    | none =>
      rw [set] at means
      exact means
    | some l =>
      rw [(found l.value).mpr ⟨l, set, rfl⟩] at lookup
      cases lookup

/-- Settings survive being written to a file. The text that a writer makes of them is read as
exactly these settings, after any document that is well formed, ends with a line end or is empty,
and does not define the key `tool`. -/
theorem written_settings_read_back (w : Writer) (s : Settings) (writable : s.Writable)
    {front : Text} {fields : Toml.Fields} (formed : Toml.parse? front = some fields)
    (ended : front = [] ∨ front.getLast? = some '\n') (free : fields.lookup "tool".toList = none) :
    parse (front ++ w.text s) = .ok s := by
  obtain ⟨d, rfl, later⟩ := Toml.parse?_append (ended.imp_right .of_getLast?)
    (rfl : Toml.unmarked (w.text s) = w.text s) formed
  have unused : d.items.lookup toolsName = none := by
    rw [Toml.Items.lookup_fieldsOf] at free
    exact Option.map_eq_none_iff.mp free
  have distinct : w.order.Nodup := w.complete.nodup_iff.mpr (by decide)
  have lines := takes_lines w writable d.items [] distinct fun _ _ => rfl
  have parsed := later _ ((takes_header unused).append lines)
  have table := tableIn?_inTable d.items (s.writtenFields w.order)
  have good := wellFormed_table table (Toml.parse?_wellFormed parsed)
  have complete (key : Key) : key ∈ w.order := w.complete.mem_iff.mpr (by cases key <;> decide)
  apply (parse_eq_ok parsed).mpr
  apply (ofDocument_table table).trans
  apply (ofFields_eq_ok good).mpr
  exact tells_writtenFields writable complete good.distinct

def standardWriter : Writer where
  order := Key.all
  complete := .refl _
  spell := Toml.standardSpelling
  sound := Toml.standardSpelling_sound

/-- Quotes, backslashes, line ends and other control characters, and the greatest numbers. -/
def oddSettings : Settings where
  roots := ["a\"b\\c".toList, []].map .ofText
  exclude := ["\t\r\n\x00\x7f é 😀".toList].map .ofText
  codeLength := some 0
  docsLength := some (2 ^ 63 - 1)
  extend := some 255
  strict := some false
  extensions := ["#]".toList, "'".toList]

/-- Another document: a string with a header in it, and names close to that of the table. -/
def oddFront : Text :=
  "tools.len8 = 1 # tool\n['tool.len8']\nx = \"\"\"\n[tool.len8]\nextend = 2\"\"\"\n".toList

theorem valid_ofText (ts : List Text) : ∀ p ∈ ts.map Path.ofText, Utf8.Valid p.bytes := by
  intro p member
  obtain ⟨t, -, rfl⟩ := List.mem_map.mp member
  exact ⟨t, rfl⟩

theorem oddSettings_writable : oddSettings.Writable where
  roots := valid_ofText _
  exclude := valid_ofText _
  codeLength := by decide
  docsLength := by decide
  extend := by decide

theorem written_settings_read_back_odd :
    ∃ fields, Toml.parse? oddFront = some fields ∧ fields.lookup "tool".toList = none ∧
      parse (oddFront ++ standardWriter.text oddSettings) = .ok oddSettings := by
  have found : (Toml.parse? oddFront).map (fun fields => (fields.lookup "tool".toList).isNone) =
      some true := by decide +kernel
  obtain ⟨fields, formed, free⟩ := Option.map_eq_some_iff.mp found
  rw [Option.isNone_iff_eq_none] at free
  refine ⟨fields, formed, free, ?_⟩
  exact written_settings_read_back standardWriter oddSettings oddSettings_writable formed
    (.inr (by decide)) free

example :
    standardWriter.text
      { roots := [.ofText "a\\b".toList, .ofText "c".toList]
        codeLength := some 100
        strict := some true } =
      "[tool.len8]\ninclude = [\"a\\\\b\", \"c\"]\ncode-length = 100\nstrict = true\n".toList := by
  decide

end Settings

end LineGauge
