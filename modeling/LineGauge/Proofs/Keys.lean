import Mathlib.Logic.Relation
import LineGauge.Proofs.Tables
import LineGauge.Proofs.Switches
import LineGauge.Settings.Decode

/-! Which keys of a document the settings depend on. A key without a meaning is passed over at each
of the three levels, whatever its value. Each key with a meaning fills one field, so the order of
the keys decides at most which of several wrong values is reported. -/
namespace LineGauge

namespace Settings

namespace Key

/-- What a key fills. -/
def Field : Key → Type
  | .roots | .exclude => List Path
  | .codeLength | .docsLength | .extend => Option Nat
  | .strict => Option Bool
  | .extensions => List Text

def get : (key : Key) → Settings → key.Field
  | .roots, s => s.roots
  | .exclude, s => s.exclude
  | .codeLength, s => s.codeLength
  | .docsLength, s => s.docsLength
  | .extend, s => s.extend
  | .strict, s => s.strict
  | .extensions, s => s.extensions

/-- The value is of the type of the key and means this. -/
def Means : (key : Key) → Toml.Value → key.Field → Prop
  | .roots, v, paths => ∃ ts : List Text, v = .list (ts.map .text) ∧ paths = ts.map .ofText
  | .exclude, v, paths => ∃ ts : List Text, v = .list (ts.map .text) ∧ paths = ts.map .ofText
  | .codeLength, v, length => ∃ n : Nat, v = .integer n ∧ length = some n
  | .docsLength, v, length => ∃ n : Nat, v = .integer n ∧ length = some n
  | .extend, v, level => ∃ n : Nat, n ≤ 255 ∧ v = .integer n ∧ level = some n
  | .strict, v, wanted => ∃ b, v = .boolean b ∧ wanted = some b
  | .extensions, v, texts => ∃ ts : List Text, v = .list (ts.map .text) ∧ texts = ts

def HasType (key : Key) (v : Toml.Value) : Prop := ∃ x, key.Means v x

theorem ofName?_name (key : Key) : ofName? key.name = some key := by
  cases key <;> decide

theorem name_of_ofName? {n : Text} {key : Key} (found : ofName? n = some key) : key.name = n :=
  beq_iff_eq.mp (List.find?_some (p := fun key : Key => key.name == n) found)

/-- The settings with one field filled. -/
def put : (key : Key) → Settings → key.Field → Settings
  | .roots, s, x => { s with roots := x }
  | .exclude, s, x => { s with exclude := x }
  | .codeLength, s, x => { s with codeLength := x }
  | .docsLength, s, x => { s with docsLength := x }
  | .extend, s, x => { s with extend := x }
  | .strict, s, x => { s with strict := x }
  | .extensions, s, x => { s with extensions := x }

theorem get_put (key : Key) (s : Settings) (x : key.Field) : key.get (key.put s x) = x := by
  cases key <;> rfl

theorem get_put_other {key other : Key} (apart : other ≠ key) (s : Settings) (x : key.Field) :
    other.get (key.put s x) = other.get s := by
  cases key <;> cases other <;> first | rfl | exact absurd rfl apart

theorem ext {s s' : Settings} (same : ∀ key : Key, key.get s = key.get s') : s = s' := by
  obtain ⟨_, _, _, _, _, _, _⟩ := s
  obtain ⟨_, _, _, _, _, _, _⟩ := s'
  rw [Settings.mk.injEq]
  exact ⟨same .roots, same .exclude, same .codeLength, same .docsLength, same .extend,
    same .strict, same .extensions⟩

theorem exists_get (f : (key : Key) → key.Field) : ∃ s : Settings, ∀ key, key.get s = f key := by
  refine ⟨⟨f .roots, f .exclude, f .codeLength, f .docsLength, f .extend, f .strict,
    f .extensions⟩, ?_⟩
  intro key
  cases key <;> rfl

def read : (key : Key) → Toml.Value → Except TypeError key.Field
  | .roots, v => listOf path v
  | .exclude, v => listOf path v
  | .codeLength, v => (word v).map some
  | .docsLength, v => (word v).map some
  | .extend, v => (byte v).map some
  | .strict, v => (boolean v).map some
  | .extensions, v => listOf text v

theorem bind_pure_eq {ε α β γ : Type} (x : Except ε α) (g : α → β) (f : β → γ) :
    (x >>= fun a => pure (f (g a))) = (x.map g).map f := by
  cases x <;> rfl

theorem set_eq (s : Settings) (key : Key) (v : Toml.Value) :
    s.set key v = (key.read v).map (key.put s) := by
  cases key with
  | roots => exact map_eq_pure_bind (put .roots s) (listOf path v) |>.symm
  | exclude => exact map_eq_pure_bind (put .exclude s) (listOf path v) |>.symm
  | extensions => exact map_eq_pure_bind (put .extensions s) (listOf text v) |>.symm
  | codeLength => exact bind_pure_eq (word v) some (put .codeLength s)
  | docsLength => exact bind_pure_eq (word v) some (put .docsLength s)
  | extend => exact bind_pure_eq (byte v) some (put .extend s)
  | strict => exact bind_pure_eq (boolean v) some (put .strict s)

end Key

theorem map_eq_ok {ε α β : Type} {f : α → β} {x : Except ε α} {b : β} :
    x.map f = .ok b ↔ ∃ a, x = .ok a ∧ b = f a := by
  cases x with
  | error e => exact ⟨nofun, fun ⟨_, bad, _⟩ => nomatch bad⟩
  | ok a => simp [Except.map, eq_comm]

theorem mapM_eq_ok {α : Type} {item : Toml.Value → Except TypeError α} {f : Text → α}
    (reads : ∀ v a, item v = .ok a ↔ ∃ t, v = .text t ∧ a = f t) {vs : List Toml.Value}
    {as : List α} : vs.mapM item = .ok as ↔ ∃ ts : List Text, vs = ts.map .text ∧ as = ts.map f := by
  induction vs generalizing as with
  | nil =>
    constructor
    · intro done
      cases done
      exact ⟨[], rfl, rfl⟩
    · rintro ⟨ts, none, rfl⟩
      rw [List.nil_eq, List.map_eq_nil_iff] at none
      subst none
      rfl
  | cons v vs ih =>
    rw [List.mapM_cons]
    constructor
    · intro done
      obtain ⟨a, first, rest⟩ := exists_of_bind done
      obtain ⟨others, later, same⟩ := exists_of_bind rest
      cases same
      obtain ⟨t, rfl, rfl⟩ := (reads v a).mp first
      obtain ⟨ts, rfl, rfl⟩ := ih.mp later
      exact ⟨t :: ts, rfl, rfl⟩
    · rintro ⟨ts, all, rfl⟩
      cases ts with
      | nil => cases all
      | cons t ts =>
        obtain ⟨rfl, rfl⟩ := List.cons.inj all
        rw [(reads _ _).mpr ⟨t, rfl, rfl⟩, ih.mpr ⟨ts, rfl, rfl⟩]
        rfl

theorem listOf_eq_ok {α : Type} {item : Toml.Value → Except TypeError α} {f : Text → α}
    (reads : ∀ v a, item v = .ok a ↔ ∃ t, v = .text t ∧ a = f t) {v : Toml.Value} {as : List α} :
    listOf item v = .ok as ↔ ∃ ts : List Text, v = .list (ts.map .text) ∧ as = ts.map f := by
  cases v with
  | list vs =>
    simp only [listOf, mapM_eq_ok reads, Toml.Value.list.injEq]
  | _ => exact ⟨nofun, fun ⟨_, bad, _⟩ => nomatch bad⟩

theorem path_eq_ok (v : Toml.Value) (p : Path) :
    path v = .ok p ↔ ∃ t, v = .text t ∧ p = .ofText t := by
  cases v with
  | text t => simp [path, eq_comm]
  | _ => exact ⟨nofun, fun ⟨_, bad, _⟩ => nomatch bad⟩

theorem text_eq_ok (v : Toml.Value) (u : Text) :
    text v = .ok u ↔ ∃ t, v = .text t ∧ u = id t := by
  cases v with
  | text t => simp [text, eq_comm]
  | _ => exact ⟨nofun, fun ⟨_, bad, _⟩ => nomatch bad⟩

theorem boolean_eq_ok {v : Toml.Value} {b : Bool} : boolean v = .ok b ↔ v = .boolean b := by
  cases v with
  | boolean c => simp [boolean]
  | _ => exact ⟨nofun, nofun⟩

theorem natural_eq_ok {expected : Expected} {greatest : Nat} {v : Toml.Value} {n : Nat} :
    natural expected greatest v = .ok n ↔ v = .integer n ∧ n ≤ greatest := by
  cases v with
  | integer m =>
    simp only [natural, Toml.Value.integer.injEq]
    split
    · rename_i fits
      simp only [Bool.and_eq_true, decide_eq_true_eq] at fits
      simp only [Except.ok.injEq]
      omega
    · rename_i bad
      simp only [Bool.and_eq_true, decide_eq_true_eq] at bad
      simp only [reduceCtorEq, false_iff]
      omega
  | _ => exact ⟨nofun, fun ⟨bad, _⟩ => nomatch bad⟩

theorem word_eq_ok {v : Toml.Value} (good : Toml.WellFormed v) {n : Nat} :
    word v = .ok n ↔ v = .integer n := by
  unfold word
  rw [natural_eq_ok]
  constructor
  · exact And.left
  · rintro rfl
    -- an integer of a document has a sign, so it is below half the range
    cases good with
    | integer _ high =>
      have word : Number.greatestWord = 18446744073709551615 := rfl
      exact ⟨rfl, by omega⟩

theorem Key.read_eq_ok {key : Key} {v : Toml.Value} (good : Toml.WellFormed v) {x : key.Field} :
    key.read v = .ok x ↔ key.Means v x := by
  cases key with
  | roots | exclude => exact listOf_eq_ok path_eq_ok
  | extensions =>
    refine (listOf_eq_ok text_eq_ok).trans ?_
    simp only [List.map_id]
    rfl
  | codeLength | docsLength =>
    refine map_eq_ok.trans ?_
    simp only [word_eq_ok good]
    rfl
  | extend =>
    refine map_eq_ok.trans ?_
    simp only [byte, natural_eq_ok]
    constructor
    · rintro ⟨n, ⟨same, small⟩, level⟩
      exact ⟨n, small, same, level⟩
    · rintro ⟨n, small, same, level⟩
      exact ⟨n, ⟨same, small⟩, level⟩
  | strict =>
    refine map_eq_ok.trans ?_
    simp only [boolean_eq_ok]
    rfl

theorem set_eq_ok {s s' : Settings} {key : Key} {v : Toml.Value} (good : Toml.WellFormed v) :
    s.set key v = .ok s' ↔ ∃ x, key.Means v x ∧ s' = key.put s x := by
  rw [Key.set_eq, map_eq_ok]
  simp only [Key.read_eq_ok good]

/-- The keys with a meaning tell their fields, and the other fields are those of the start. -/
def Tells (start : Settings) (fields : Toml.Fields) (s : Settings) : Prop :=
  ∀ key : Key,
    match fields.lookup key.name with
    | some v => key.Means v (key.get s)
    | none => key.get s = key.get start

theorem setField_unknown {s : Settings} {n : Text} (unknown : Key.ofName? n = none)
    (v : Toml.Value) : s.setField (n, v) = .ok s := by
  simp only [setField, unknown]

theorem setField_known {s : Settings} (key : Key) (v : Toml.Value) :
    s.setField (key.name, v) = s.set key v := by
  simp only [setField, Key.ofName?_name]

theorem lookup_cons_other {β : Type} {key n : Text} (apart : key ≠ n) (v : β)
    (fields : List (Text × β)) : ((n, v) :: fields).lookup key = fields.lookup key := by
  rw [List.lookup_cons, beq_eq_false_iff_ne.mpr apart]

theorem Key.name_ne {key other : Key} (apart : other ≠ key) : other.name ≠ key.name := by
  intro same
  have found := ofName?_name other
  rw [same, ofName?_name] at found
  exact apart (Option.some.inj found).symm

theorem tells_unknown {start s : Settings} {n : Text} (unknown : Key.ofName? n = none)
    (v : Toml.Value) (fields : Toml.Fields) :
    Tells start ((n, v) :: fields) s ↔ Tells start fields s := by
  have same (key : Key) : ((n, v) :: fields).lookup key.name = fields.lookup key.name := by
    apply lookup_cons_other
    rintro rfl
    rw [Key.ofName?_name] at unknown
    cases unknown
  simp only [Tells, same]

theorem tells_known {start s : Settings} {key : Key} {fields : Toml.Fields}
    (absent : fields.lookup key.name = none) (v : Toml.Value) :
    Tells start ((key.name, v) :: fields) s ↔
      ∃ x, key.Means v x ∧ Tells (key.put start x) fields s := by
  have own : ((key.name, v) :: fields).lookup key.name = some v := List.lookup_cons_self
  constructor
  · intro told
    have means := told key
    rw [own] at means
    refine ⟨key.get s, means, ?_⟩
    intro other
    by_cases same : other = key
    · subst same
      rw [absent]
      exact (other.get_put start (other.get s)).symm
    · have rest := told other
      rw [lookup_cons_other (Key.name_ne same)] at rest
      rwa [Key.get_put_other same]
  · rintro ⟨x, means, told⟩ other
    by_cases same : other = key
    · subst same
      have filled := told other
      rw [absent, Key.get_put] at filled
      rw [own, filled]
      exact means
    · have rest := told other
      rw [Key.get_put_other same] at rest
      rwa [lookup_cons_other (Key.name_ne same)]

theorem lookup_tail_eq_none {β : Type} {n : Text} {v : β} {fields : List (Text × β)}
    (distinct : (((n, v) :: fields).map Prod.fst).Nodup) : fields.lookup n = none := by
  apply List.lookup_eq_none_iff.mpr
  intro field member
  rw [bne_iff_ne]
  rintro rfl
  exact (List.nodup_cons.mp distinct).1 (List.mem_map.mpr ⟨field, member, rfl⟩)

theorem foldlM_setField_eq_ok {fields : Toml.Fields} (good : Toml.WellFormed (.table fields))
    {start s : Settings} : fields.foldlM setField start = .ok s ↔ Tells start fields s := by
  induction fields generalizing start with
  | nil =>
    constructor
    · intro done
      cases done
      intro key
      rfl
    · intro told
      rw [Key.ext told]
      rfl
  | cons field fields ih =>
    obtain ⟨n, v⟩ := field
    have first : Toml.WellFormed v := good.member (n, v) List.mem_cons_self
    have later {start : Settings} := @ih good.tail start
    rw [List.foldlM_cons]
    cases known : Key.ofName? n with
    | none =>
      rw [setField_unknown known, tells_unknown known]
      exact later
    | some key =>
      cases Key.name_of_ofName? known
      rw [setField_known, tells_known (lookup_tail_eq_none good.distinct)]
      constructor
      · intro done
        obtain ⟨s₁, now, rest⟩ := exists_of_bind done
        obtain ⟨x, means, rfl⟩ := (set_eq_ok first).mp now
        exact ⟨x, means, later.mp rest⟩
      · rintro ⟨x, means, told⟩
        rw [(set_eq_ok first).mpr ⟨x, means, rfl⟩]
        exact later.mpr told

theorem ofFields_eq_ok {fields : Toml.Fields} (good : Toml.WellFormed (.table fields))
    {s : Settings} : ofFields fields = .ok s ↔ Tells {} fields s :=
  foldlM_setField_eq_ok good

theorem exists_tells {start : Settings} {fields : Toml.Fields} :
    (∃ s, Tells start fields s) ↔
      ∀ (key : Key) v, fields.lookup key.name = some v → key.HasType v := by
  constructor
  · rintro ⟨s, told⟩ key v found
    have means := told key
    rw [found] at means
    exact ⟨key.get s, means⟩
  · intro typed
    have each (key : Key) : ∃ x,
        match fields.lookup key.name with
        | some v => key.Means v x
        | none => x = key.get start := by
      cases found : fields.lookup key.name with
      | some v => exact typed key v found
      | none => exact ⟨key.get start, rfl⟩
    choose f told using each
    obtain ⟨s, filled⟩ := Key.exists_get f
    refine ⟨s, ?_⟩
    intro key
    rw [filled]
    exact told key

/-- The table around that of the settings. -/
def toolsName : Text := "tool".toList

/-- The value of one key decides; without it nothing is set. -/
def below (name : Text) (read : Toml.Value → Except TypeError Settings) (fields : Toml.Fields) :
    Except TypeError Settings :=
  match fields.lookup name with
  | some v => read v
  | none => .ok {}

theorem ofDocument_eq (doc : Toml.Fields) : ofDocument doc = below toolsName ofTools doc := rfl

theorem ofTools_eq (tools : Toml.Fields) : ofTools (.table tools) = below toolName ofValue tools :=
  rfl

theorem below_congr {name : Text} {fields fields' : Toml.Fields}
    (same : fields.lookup name = fields'.lookup name)
    (read : Toml.Value → Except TypeError Settings) :
    below name read fields = below name read fields' := by
  unfold below
  rw [same]

theorem below_replaced {R : Except TypeError Settings → Except TypeError Settings → Prop}
    (refl : ∀ x, R x x) {name : Text} {read : Toml.Value → Except TypeError Settings}
    {v v' : Toml.Value} (related : R (read v) (read v')) (before after : Toml.Fields) :
    R (below name read (before ++ (name, v) :: after))
      (below name read (before ++ (name, v') :: after)) := by
  unfold below
  rw [List.lookup_append, List.lookup_append, List.lookup_cons_self, List.lookup_cons_self]
  cases before.lookup name with
  | none => exact related
  | some w => exact refl (read w)

/-- A change at one of the three levels of a document, where some keys have a meaning: at the top,
in the table of the tools, or in the table of the settings. -/
inductive AtLevel (change : (Text → Bool) → Toml.Fields → Toml.Fields → Prop) :
    Toml.Fields → Toml.Fields → Prop
  | document {doc doc' : Toml.Fields} (changed : change (· == toolsName) doc doc') :
      AtLevel change doc doc'
  | tools (before after : Toml.Fields) {tools tools' : Toml.Fields}
      (changed : change (· == toolName) tools tools') :
      AtLevel change (before ++ (toolsName, .table tools) :: after)
        (before ++ (toolsName, .table tools') :: after)
  | settings (before after early late : Toml.Fields) {fields fields' : Toml.Fields}
      (changed : change (fun n => (Key.ofName? n).isSome) fields fields') :
      AtLevel change
        (before ++ (toolsName, .table (early ++ (toolName, .table fields) :: late)) :: after)
        (before ++ (toolsName, .table (early ++ (toolName, .table fields') :: late)) :: after)

/-- One more key without a meaning, with any value at any position. -/
def Inserted (known : Text → Bool) (fields fields' : Toml.Fields) : Prop :=
  ∃ before after key v, known key = false ∧ fields = before ++ after ∧
    fields' = before ++ (key, v) :: after

/-- The same keys with their values in another order. -/
def Permuted (_ : Text → Bool) (fields fields' : Toml.Fields) : Prop := fields.Perm fields'

theorem lookup_inserted {known : Text → Bool} {fields fields' : Toml.Fields}
    (inserted : Inserted known fields fields') {name : Text} (isKnown : known name = true) :
    fields.lookup name = fields'.lookup name := by
  obtain ⟨before, after, key, v, unknown, rfl, rfl⟩ := inserted
  have apart : name ≠ key := by
    rintro rfl
    rw [isKnown] at unknown
    cases unknown
  rw [List.lookup_append, List.lookup_append, lookup_cons_other apart]

theorem ofFields_inserted {fields fields' : Toml.Fields}
    (inserted : Inserted (fun n => (Key.ofName? n).isSome) fields fields') :
    ofFields fields = ofFields fields' := by
  obtain ⟨before, after, key, v, unknown, rfl, rfl⟩ := inserted
  have skipped (s : Settings) : s.setField (key, v) = .ok s :=
    setField_unknown (Option.isNone_iff_eq_none.mp (Option.isSome_eq_false_iff.mp unknown)) v
  unfold ofFields
  rw [List.foldlM_append, List.foldlM_append]
  simp only [List.foldlM_cons, skipped]
  rfl

theorem AtLevel.inserted {doc doc' : Toml.Fields} (edit : AtLevel Inserted doc doc') :
    ofDocument doc = ofDocument doc' := by
  cases edit with
  | document changed => exact below_congr (lookup_inserted changed (by decide)) ofTools
  | tools before after changed =>
    apply below_replaced (R := Eq) (fun _ => rfl)
    exact below_congr (lookup_inserted changed (by decide)) ofValue
  | settings before after early late changed =>
    apply below_replaced (R := Eq) (fun _ => rfl)
    apply below_replaced (R := Eq) (fun _ => rfl)
    exact ofFields_inserted changed

/-- Both give the same settings, or none. -/
def SameSuccess (x y : Except TypeError Settings) : Prop := ∀ s, x = .ok s ↔ y = .ok s

theorem SameSuccess.refl (x : Except TypeError Settings) : SameSuccess x x := fun _ => Iff.rfl

theorem sameSuccess_of_eq {x y : Except TypeError Settings} (same : x = y) : SameSuccess x y := by
  rw [same]
  exact .refl y

theorem ofFields_permuted {fields fields' : Toml.Fields}
    (good : Toml.WellFormed (.table fields)) (permuted : fields.Perm fields') :
    SameSuccess (ofFields fields) (ofFields fields') := by
  intro s
  rw [ofFields_eq_ok good, ofFields_eq_ok (good.perm permuted)]
  simp only [Tells, lookup_perm permuted good.distinct]

theorem AtLevel.permuted {doc doc' : Toml.Fields} (good : Toml.WellFormed (.table doc))
    (edit : AtLevel Permuted doc doc') :
    Toml.WellFormed (.table doc') ∧ SameSuccess (ofDocument doc) (ofDocument doc') := by
  cases edit with
  | document changed =>
    refine ⟨good.perm changed, sameSuccess_of_eq ?_⟩
    exact below_congr (lookup_perm changed good.distinct toolsName) ofTools
  | tools before after changed =>
    have inner := good.inside
    refine ⟨good.replace (inner.perm changed), ?_⟩
    apply below_replaced SameSuccess.refl
    apply sameSuccess_of_eq
    exact below_congr (lookup_perm changed inner.distinct toolName) ofValue
  | settings before after early late changed =>
    have inner := good.inside.inside
    refine ⟨good.replace (good.inside.replace (inner.perm changed)), ?_⟩
    apply below_replaced SameSuccess.refl
    apply below_replaced SameSuccess.refl
    exact ofFields_permuted inner changed

/-- The keys of the settings table; none if it or the table around it is missing. Both have to be
tables if they are there. -/
def tableIn? (doc : Toml.Fields) : Option Toml.Fields :=
  match doc.lookup toolsName with
  | none => some []
  | some (.table tools) =>
    match tools.lookup toolName with
    | none => some []
    | some (.table fields) => some fields
    | some _ => none
  | some _ => none

theorem ofDocument_table {doc fields : Toml.Fields} (table : tableIn? doc = some fields) :
    ofDocument doc = ofFields fields := by
  unfold tableIn? at table
  rw [ofDocument_eq, below]
  split at table
  · rename_i missing
    cases table
    rw [missing]
    rfl
  · rename_i tools around
    rw [around]
    change ofTools (.table tools) = ofFields fields
    rw [ofTools_eq, below]
    split at table
    · rename_i missing
      cases table
      rw [missing]
      rfl
    · rename_i own
      cases table
      rw [own]
      rfl
    · cases table
  · cases table

theorem wellFormed_table {doc fields : Toml.Fields} (table : tableIn? doc = some fields)
    (good : Toml.WellFormed (.table doc)) : Toml.WellFormed (.table fields) := by
  have empty : Toml.WellFormed (.table []) := .table List.nodup_nil nofun
  unfold tableIn? at table
  split at table
  · cases table
    exact empty
  · rename_i around
    split at table
    · cases table
      exact empty
    · rename_i own
      cases table
      exact (good.lookup around).lookup own
    · cases table
  · cases table

theorem inserted_anywhere {doc doc' : Toml.Fields}
    (edits : Relation.EqvGen (AtLevel Inserted) doc doc') : ofDocument doc = ofDocument doc' := by
  induction edits with
  | rel _ _ edit => exact edit.inserted
  | refl => rfl
  | symm _ _ _ ih => exact ih.symm
  | trans _ _ _ _ _ first second => exact first.trans second

theorem permuted_anywhere {doc doc' : Toml.Fields} (good : Toml.WellFormed (.table doc))
    (edits : Relation.ReflTransGen (AtLevel Permuted) doc doc') :
    Toml.WellFormed (.table doc') ∧ SameSuccess (ofDocument doc) (ofDocument doc') := by
  induction edits with
  | refl => exact ⟨good, .refl _⟩
  | tail _ edit ih =>
    obtain ⟨still, same⟩ := edit.permuted ih.1
    exact ⟨still, fun s => (ih.2 s).trans (same s)⟩

theorem parse_of_parsed {text : Text} {doc : Toml.Fields} (parsed : Toml.parse? text = some doc) :
    parse text = (ofDocument doc).mapError .mistyped := by
  simp only [parse, parsed]
  cases ofDocument doc <;> rfl

theorem parse_eq_ok {text : Text} {doc : Toml.Fields} (parsed : Toml.parse? text = some doc)
    {s : Settings} : parse text = .ok s ↔ ofDocument doc = .ok s := by
  rw [parse_of_parsed parsed]
  cases ofDocument doc with
  | error e => exact ⟨nofun, nofun⟩
  | ok t => simp [Except.mapError]

/-- The settings of a parsed document come from the keys with a meaning alone. Other keys may be put
in or taken out at every level, and the outcome is the same, error included; and the order of the
keys changes neither whether there are settings nor what they are. There are settings if and only if
every key with a meaning that is there has a value of its type. They are then what these keys mean,
and the defaults for the others. -/
theorem settings_from_known_keys {text : Text} {doc fields : Toml.Fields}
    (parsed : Toml.parse? text = some doc) (table : tableIn? doc = some fields) :
    parse text = (ofDocument doc).mapError .mistyped ∧
    (∀ doc', Relation.EqvGen (AtLevel Inserted) doc doc' → ofDocument doc' = ofDocument doc) ∧
    (∀ doc', Relation.ReflTransGen (AtLevel Permuted) doc doc' →
      ∀ s, ofDocument doc' = .ok s ↔ ofDocument doc = .ok s) ∧
    ((∃ s, parse text = .ok s) ↔
      ∀ (key : Key) v, fields.lookup key.name = some v → key.HasType v) ∧
    ∀ s, parse text = .ok s ↔ Tells {} fields s := by
  have good := Toml.parse?_wellFormed parsed
  have meaning (s : Settings) : parse text = .ok s ↔ Tells {} fields s := by
    rw [parse_eq_ok parsed, ofDocument_table table, ofFields_eq_ok (wellFormed_table table good)]
  refine ⟨parse_of_parsed parsed, ?_, ?_, ?_, meaning⟩
  · intro doc' edits
    exact (inserted_anywhere edits).symm
  · intro doc' edits s
    exact ((permuted_anywhere good edits).2 s).symm
  · simp only [meaning]
    exact exists_tells

/-- The settings between other keys and tables. -/
def mixedText : Text := "tool.x.strict=1\n[tool.len8]\nextend=2\nlevel=[]\nexclude=['a']".toList

theorem settings_from_known_keys_mixed :
    let s : Settings := { exclude := [.ofText ['a']], extend := some 2 }
    ∃ doc fields, Toml.parse? mixedText = some doc ∧ tableIn? doc = some fields ∧
      parse mixedText = .ok s ∧ Tells {} fields s ∧
      ofDocument (("len8".toList, .moment) :: doc) = .ok s ∧ ofDocument doc.reverse = .ok s := by
  intro s
  have found : ((Toml.parse? mixedText).bind tableIn?).isSome = true := by decide +kernel
  have reads : (parse mixedText).toOption = some s := by decide +kernel
  obtain ⟨fields, both⟩ := Option.isSome_iff_exists.mp found
  obtain ⟨doc, parsed, table⟩ := Option.bind_eq_some_iff.mp both
  have read : parse mixedText = .ok s := by
    cases outcome : parse mixedText with
    | error e =>
      rw [outcome] at reads
      cases reads
    | ok t =>
      rw [outcome] at reads
      cases reads
      rfl
  obtain ⟨_, inserted, permuted, _, meaning⟩ := settings_from_known_keys parsed table
  have settled : ofDocument doc = .ok s := (parse_eq_ok parsed).mp read
  refine ⟨doc, fields, parsed, table, read, (meaning s).mp read, ?_, ?_⟩
  · rw [inserted (("len8".toList, .moment) :: doc) (.rel _ _ (.document
      ⟨[], doc, "len8".toList, .moment, by decide, rfl, rfl⟩))]
    exact settled
  · exact (permuted doc.reverse (.single (.document doc.reverse_perm.symm)) s).mpr settled

end Settings

end LineGauge
