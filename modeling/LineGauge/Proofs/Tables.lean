import Mathlib.Algebra.Group.Int.Defs
import Mathlib.Data.List.Nodup
import LineGauge.Toml.Parse

/-! What a TOML document can hold. Every table that is built, by headers, by dotted keys or in
braces, keeps its keys apart, and every integer fits in 64 bits, whatever the text. So a parsed
document is well formed at every depth. -/
namespace LineGauge

theorem lookup_eq_some_iff_mem {β : Type} {fields : List (Text × β)}
    (distinct : (fields.map Prod.fst).Nodup) {key : Text} {v : β} :
    fields.lookup key = some v ↔ (key, v) ∈ fields := by
  constructor
  · intro found
    obtain ⟨before, after, rfl, _⟩ := List.lookup_eq_some_iff.mp found
    simp
  · intro member
    obtain ⟨before, after, rfl⟩ := List.append_of_mem member
    apply List.lookup_eq_some_iff.mpr
    refine ⟨before, after, rfl, ?_⟩
    intro field early
    rw [List.map_append, List.nodup_append] at distinct
    rw [bne_iff_ne]
    rintro rfl
    exact distinct.2.2 _ (List.mem_map_of_mem early) _ List.mem_cons_self rfl

theorem lookup_perm {β : Type} {fields fields' : List (Text × β)} (same : fields.Perm fields')
    (distinct : (fields.map Prod.fst).Nodup) (key : Text) :
    fields.lookup key = fields'.lookup key := by
  have distinct' : (fields'.map Prod.fst).Nodup := (same.map Prod.fst).nodup_iff.mp distinct
  apply Option.ext
  intro v
  rw [lookup_eq_some_iff_mem distinct, lookup_eq_some_iff_mem distinct', same.mem_iff]

namespace Toml

inductive WellFormed : Value → Prop
  | text (t : Text) : WellFormed (.text t)
  | integer {n : Int} (low : -2 ^ 63 ≤ n) (high : n < 2 ^ 63) : WellFormed (.integer n)
  | float (x : Binary64) : WellFormed (.float x)
  | boolean (b : Bool) : WellFormed (.boolean b)
  | moment : WellFormed .moment
  | list {items : List Value} (each : ∀ v ∈ items, WellFormed v) : WellFormed (.list items)
  | table {fields : Fields} (distinct : (fields.map Prod.fst).Nodup)
      (each : ∀ field ∈ fields, WellFormed field.2) : WellFormed (.table fields)

namespace WellFormed

theorem distinct {fields : Fields} (good : WellFormed (.table fields)) :
    (fields.map Prod.fst).Nodup := by
  cases good with
  | table distinct _ => exact distinct

theorem member {fields : Fields} (good : WellFormed (.table fields)) :
    ∀ field ∈ fields, WellFormed field.2 := by
  cases good with
  | table _ each => exact each

theorem tail {field : Text × Value} {fields : Fields}
    (good : WellFormed (.table (field :: fields))) : WellFormed (.table fields) := by
  apply WellFormed.table
  · exact (List.nodup_cons.mp good.distinct).2
  · intro other found
    exact good.member other (List.mem_cons_of_mem field found)

theorem perm {fields fields' : Fields} (good : WellFormed (.table fields))
    (same : fields.Perm fields') : WellFormed (.table fields') := by
  apply WellFormed.table
  · exact (same.map Prod.fst).nodup_iff.mp good.distinct
  · intro field found
    exact good.member field (same.mem_iff.mpr found)

theorem lookup {fields : Fields} (good : WellFormed (.table fields)) {key : Text} {v : Value}
    (found : fields.lookup key = some v) : WellFormed v :=
  good.member (key, v) ((lookup_eq_some_iff_mem good.distinct).mp found)

variable {before after : Fields} {key : Text} {v v' : Value}

theorem inside (good : WellFormed (.table (before ++ (key, v) :: after))) : WellFormed v :=
  good.member (key, v) (List.mem_append_right before List.mem_cons_self)

theorem replace (good : WellFormed (.table (before ++ (key, v) :: after))) (new : WellFormed v') :
    WellFormed (.table (before ++ (key, v') :: after)) := by
  apply WellFormed.table
  · have distinct := good.distinct
    rw [List.map_append, List.map_cons] at distinct ⊢
    exact distinct
  · intro field found
    rcases List.mem_append.mp found with early | rest
    · exact good.member field (List.mem_append_left _ early)
    · rcases List.mem_cons.mp rest with rfl | late
      · exact new
      · exact good.member field (List.mem_append_right _ (List.mem_cons_of_mem _ late))

end WellFormed

theorem fitting_bounds {negative : Bool} {n : Nat} {m : Int} (fits : fitting negative n = some m) :
    -2 ^ 63 ≤ m ∧ m < 2 ^ 63 := by
  have power : Nat.pow 2 63 = 9223372036854775808 := rfl
  rw [fitting, power] at fits
  split at fits <;> split at fits
  · cases fits
    omega
  · cases fits
  · cases fits
    omega
  · cases fits

theorem based?_wellFormed {base : Nat} {t r : Text} {n : Int} (read : based? base t = some (n, r)) :
    WellFormed (.integer n) := by
  unfold based? at read
  split at read
  · cases read
  · obtain ⟨m, fits, same⟩ := Option.map_eq_some_iff.mp read
    cases same
    exact .integer (fitting_bounds fits).1 (fitting_bounds fits).2

theorem integer?_wellFormed {t r : Text} {n : Int} (read : integer? t = some (n, r)) :
    WellFormed (.integer n) := by
  unfold integer? at read
  split at read
  · exact based?_wellFormed read
  · exact based?_wellFormed read
  · exact based?_wellFormed read
  · split at read
    · cases read
    · obtain ⟨m, fits, same⟩ := Option.map_eq_some_iff.mp read
      cases same
      exact .integer (fitting_bounds fits).1 (fitting_bounds fits).2

/-- A reader that gives well-formed values. -/
def Reliable (item : Text → Option (Value × Text)) : Prop :=
  ∀ {t r v}, item t = some (v, r) → WellFormed v

theorem scalar?_reliable : Reliable scalar? := by
  intro t r v read
  unfold scalar? at read
  split at read
  · cases read
  · split at read
    · obtain ⟨_, _, same⟩ := Option.map_eq_some_iff.mp read
      cases same
      exact .text _
    · split at read
      · split at read
        · cases read
          exact .moment
        · cases read
          exact .float _
        · rename_i found
          cases read
          exact integer?_wellFormed found
        · cases read
      · split at read
        · split at read
          · cases read
            exact .boolean _
          · cases read
        · split at read
          · split at read
            · cases read
              exact .boolean _
            · cases read
          · split at read
            · obtain ⟨_, _, same⟩ := Option.map_eq_some_iff.mp read
              cases same
              exact .float _
            · cases read

theorem listItems?_wellFormed {item : Text → Option (Value × Text)} (reliable : Reliable item)
    {fuel : Nat} {t r : Text} {vs : List Value} (read : listItems? item fuel t = some (vs, r)) :
    ∀ v ∈ vs, WellFormed v := by
  induction fuel generalizing t vs with
  | zero => cases read
  | succ fuel ih =>
    unfold listItems? at read
    split at read
    · cases read
    · cases read
      exact nofun
    · split at read
      · cases read
      · rename_i found
        have first := reliable found
        split at read
        · obtain ⟨others, later, same⟩ := Option.map_eq_some_iff.mp read
          cases same
          exact List.forall_mem_cons.mpr ⟨first, ih later⟩
        · cases read
          exact List.forall_mem_singleton.mpr first
        · cases read

namespace Items

/-- The finished table is well formed. -/
def WellFormed (items : Items) : Prop := Toml.WellFormed (.table (Item.fieldsOf items))

theorem fieldsOf_eq (items : Items) :
    Item.fieldsOf items = items.map fun (key, item) => (key, item.toValue) := by
  induction items with
  | nil => rw [Item.fieldsOf, List.map_nil]
  | cons entry items ih => rw [Item.fieldsOf, ih, List.map_cons]

theorem tablesOf_eq (elements : List Items) :
    Item.tablesOf elements = elements.map fun items => .table (Item.fieldsOf items) := by
  induction elements with
  | nil => rw [Item.tablesOf, List.map_nil]
  | cons items elements ih => rw [Item.tablesOf, ih, List.map_cons]

theorem wellFormed_iff {items : Items} : items.WellFormed ↔
    (items.map Prod.fst).Nodup ∧ ∀ entry ∈ items, Toml.WellFormed entry.2.toValue := by
  have keys : (Item.fieldsOf items).map Prod.fst = items.map Prod.fst := by
    simp [fieldsOf_eq]
  constructor
  · intro sound
    refine ⟨keys ▸ sound.distinct, ?_⟩
    intro entry member
    apply sound.member (entry.1, entry.2.toValue)
    rw [fieldsOf_eq]
    exact List.mem_map_of_mem member
  · rintro ⟨distinct, each⟩
    refine .table (keys ▸ distinct) ?_
    intro field member
    rw [fieldsOf_eq] at member
    obtain ⟨entry, found, rfl⟩ := List.mem_map.mp member
    exact each entry found

theorem wellFormed_nil : WellFormed [] := by
  rw [wellFormed_iff]
  exact ⟨List.nodup_nil, nofun⟩

theorem WellFormed.lookup {items : Items} (sound : items.WellFormed) {key : Text} {item : Item}
    (found : items.lookup key = some item) : Toml.WellFormed item.toValue := by
  obtain ⟨before, after, rfl, _⟩ := List.lookup_eq_some_iff.mp found
  exact (wellFormed_iff.mp sound).2 (key, item) (by simp)

theorem mem_put {items : Items} {key : Text} {item : Item} {entry : Text × Item}
    (member : entry ∈ items.put key item) : entry = (key, item) ∨ entry ∈ items := by
  induction items with
  | nil => exact .inl (List.mem_singleton.mp member)
  | cons first items ih =>
    obtain ⟨k, i⟩ := first
    unfold put at member
    split at member
    · rename_i same
      cases beq_iff_eq.mp same
      rcases List.mem_cons.mp member with rfl | later
      · exact .inl rfl
      · exact .inr (List.mem_cons_of_mem _ later)
    · rcases List.mem_cons.mp member with rfl | later
      · exact .inr List.mem_cons_self
      · exact (ih later).imp_right (List.mem_cons_of_mem _)

theorem nodup_put {items : Items} (distinct : (items.map Prod.fst).Nodup) (key : Text)
    (item : Item) : ((items.put key item).map Prod.fst).Nodup := by
  induction items with
  | nil => exact List.nodup_singleton key
  | cons first items ih =>
    obtain ⟨k, i⟩ := first
    rw [List.map_cons, List.nodup_cons] at distinct
    unfold put
    split
    · exact List.nodup_cons.mpr distinct
    · rename_i other
      rw [List.map_cons, List.nodup_cons]
      refine ⟨?_, ih distinct.2⟩
      intro member
      obtain ⟨entry, found, same⟩ := List.mem_map.mp member
      rcases mem_put found with rfl | old
      · exact other (beq_iff_eq.mpr same.symm)
      · exact distinct.1 (same ▸ List.mem_map_of_mem old)

theorem WellFormed.put {items : Items} (sound : items.WellFormed) (key : Text) {item : Item}
    (good : Toml.WellFormed item.toValue) : (items.put key item).WellFormed := by
  obtain ⟨distinct, each⟩ := wellFormed_iff.mp sound
  apply wellFormed_iff.mpr
  refine ⟨nodup_put distinct key item, ?_⟩
  intro entry member
  rcases mem_put member with rfl | old
  · exact good
  · exact each entry old

theorem WellFormed.drop {items : Items} (sound : items.WellFormed) (key : Text) :
    (items.drop key).WellFormed := by
  obtain ⟨distinct, each⟩ := wellFormed_iff.mp sound
  apply wellFormed_iff.mpr
  constructor
  · exact distinct.sublist (List.filter_sublist.map Prod.fst)
  · intro entry member
    exact each entry (List.mem_filter.mp member).1

end Items

theorem toValue_table (origin : Origin) (items : Items) :
    (Item.table origin items).toValue = .table (Item.fieldsOf items) := by
  rw [Item.toValue]

theorem wellFormed_tables {elements : List Items} :
    WellFormed (Item.tables elements).toValue ↔ ∀ items ∈ elements, items.WellFormed := by
  rw [Item.toValue, Items.tablesOf_eq]
  constructor
  · rintro (_ | _ | _ | _ | _ | ⟨each⟩ | _) items member
    exact each _ (List.mem_map_of_mem member)
  · intro each
    refine .list ?_
    intro v member
    obtain ⟨items, found, rfl⟩ := List.mem_map.mp member
    exact each items found

/-- A change of one table leaves the table around it well formed. -/
theorem changeAt?_wellFormed {change : Origin → Items → Option Items}
    (keeps : ∀ {o inner new}, change o inner = some new → inner.WellFormed → new.WellFormed)
    {dots : Bool} {origin : Origin} {path : List Text} {items new : Items}
    (changed : changeAt? dots change origin path items = some new) (sound : items.WellFormed) :
    new.WellFormed := by
  induction path generalizing origin items new with
  | nil => exact keeps changed sound
  | cons key path ih =>
    simp only [changeAt?] at changed
    split at changed
    · obtain ⟨inner, made, rfl⟩ := Option.map_eq_some_iff.mp changed
      apply sound.put
      rw [toValue_table]
      exact ih made Items.wellFormed_nil
    · cases changed
    · rename_i found
      split at changed
      · cases changed
      · obtain ⟨inner, made, rfl⟩ := Option.map_eq_some_iff.mp changed
        have old := sound.lookup found
        rw [toValue_table] at old
        apply sound.put
        rw [toValue_table]
        exact ih made old
    · rename_i elements found
      split at changed
      · cases changed
      · rename_i last final
        obtain ⟨inner, made, rfl⟩ := Option.map_eq_some_iff.mp changed
        have each := wellFormed_tables.mp (sound.lookup found)
        apply sound.put
        apply wellFormed_tables.mpr
        intro items member
        rcases List.mem_append.mp member with early | late
        · exact each items (List.dropLast_subset elements early)
        · cases List.mem_singleton.mp late
          exact ih made (each last (List.mem_of_getLast? final))

theorem define?_wellFormed {key : Text} {v : Value} (good : WellFormed v) {items new : Items}
    (defined : define? key v items = some new) (sound : items.WellFormed) : new.WellFormed := by
  unfold define? at defined
  split at defined
  · cases defined
  · cases defined
    apply sound.put
    rwa [Item.toValue]

theorem assign?_wellFormed {path : List Text} {v : Value} (good : WellFormed v) {origin : Origin}
    {items new : Items} (assigned : assign? path v origin items = some new)
    (sound : items.WellFormed) : new.WellFormed := by
  unfold assign? at assigned
  split at assigned
  · cases assigned
  · refine changeAt?_wellFormed ?_ assigned sound
    intro o inner changed defined
    split at defined
    · cases defined
    · exact define?_wellFormed good defined

theorem openTable?_wellFormed {key : Text} {items new : Items}
    (opened : openTable? key items = some new) (sound : items.WellFormed) : new.WellFormed := by
  unfold openTable? at opened
  split at opened
  · cases opened
    apply sound.put
    rw [toValue_table]
    exact Items.wellFormed_nil
  · rename_i found
    cases opened
    have old := sound.lookup found
    apply (sound.drop key).put
    rwa [toValue_table] at old ⊢
  · cases opened

theorem openElement?_wellFormed {key : Text} {items new : Items}
    (opened : openElement? key items = some new) (sound : items.WellFormed) : new.WellFormed := by
  unfold openElement? at opened
  split at opened
  · cases opened
    apply sound.put
    apply wellFormed_tables.mpr
    exact List.forall_mem_singleton.mpr Items.wellFormed_nil
  · rename_i found
    cases opened
    apply sound.put
    apply wellFormed_tables.mpr
    exact List.forall_mem_append.mpr ⟨wellFormed_tables.mp (sound.lookup found),
      List.forall_mem_singleton.mpr Items.wellFormed_nil⟩
  · cases opened

theorem pair?_wellFormed {item : Text → Option (Value × Text)} (reliable : Reliable item)
    {t r : Text} {path : List Text} {v : Value} (read : pair? item t = some ((path, v), r)) :
    WellFormed v := by
  unfold pair? at read
  split at read
  · split at read
    · rename_i found
      cases read
      exact reliable found
    · cases read
  · cases read

theorem tablePairs?_wellFormed {item : Text → Option (Value × Text)} (reliable : Reliable item)
    {fuel : Nat} {items new : Items} {t r : Text}
    (read : tablePairs? item fuel items t = some (new, r)) (sound : items.WellFormed) :
    new.WellFormed := by
  induction fuel generalizing items t with
  | zero => cases read
  | succ fuel ih =>
    unfold tablePairs? at read
    split at read
    · cases read
    · rename_i found
      split at read
      · cases read
      · rename_i assigned
        have after := assign?_wellFormed (pair?_wellFormed reliable found) assigned sound
        split at read
        · exact ih read after
        · cases read
          exact after
        · cases read

theorem value?_reliable (depth : Nat) : Reliable (value? depth) := by
  induction depth with
  | zero => exact scalar?_reliable
  | succ depth ih =>
    intro t r v read
    unfold value? at read
    split at read
    · obtain ⟨items, found, same⟩ := Option.map_eq_some_iff.mp read
      cases same
      exact .list (listItems?_wellFormed ih found)
    · split at read
      · cases read
        exact .table List.nodup_nil nofun
      · obtain ⟨items, found, same⟩ := Option.map_eq_some_iff.mp read
        cases same
        exact tablePairs?_wellFormed ih found Items.wellFormed_nil
    · exact scalar?_reliable read

namespace Draft

theorem header?_wellFormed {start : Text → Items → Option Items}
    (keeps : ∀ {key inner new}, start key inner = some new → inner.WellFormed → new.WellFormed)
    {d d' : Draft} {close t r : Text} (read : d.header? start close t = some (d', r))
    (sound : d.items.WellFormed) : d'.items.WellFormed := by
  simp only [header?, Option.bind_eq_bind, Option.bind_eq_some_iff] at read
  obtain ⟨⟨path, t⟩, _, read⟩ := read
  split at read
  · simp only [Option.bind_eq_some_iff] at read
    obtain ⟨rest, _, opened, found, same⟩ := read
    cases same
    unfold open? at found
    split at found
    · cases found
    · obtain ⟨items, changed, same⟩ := Option.map_eq_some_iff.mp found
      cases same
      exact changeAt?_wellFormed keeps changed sound
  · cases read

theorem keyLine?_wellFormed {d d' : Draft} {t r : Text} (read : d.keyLine? t = some (d', r))
    (sound : d.items.WellFormed) : d'.items.WellFormed := by
  simp only [keyLine?, Option.bind_eq_bind, Option.bind_eq_some_iff] at read
  obtain ⟨⟨⟨path, v⟩, t⟩, found, rest, _, assigned, stored, same⟩ := read
  cases same
  have good := pair?_wellFormed (value?_reliable depthLimit) found
  obtain ⟨items, changed, same⟩ := Option.map_eq_some_iff.mp stored
  cases same
  exact changeAt?_wellFormed (assign?_wellFormed good) changed sound

theorem line?_wellFormed {d d' : Draft} {t r : Text} (read : d.line? t = some (d', r))
    (sound : d.items.WellFormed) : d'.items.WellFormed := by
  have silent {rest : Option Text} (kept : rest.map (d, ·) = some (d', r)) :
      d'.items.WellFormed := by
    obtain ⟨_, _, same⟩ := Option.map_eq_some_iff.mp kept
    cases same
    exact sound
  unfold line? at read
  split at read
  · exact silent read
  · exact silent read
  · exact silent read
  · exact header?_wellFormed openElement?_wellFormed read sound
  · exact header?_wellFormed openTable?_wellFormed read sound
  · exact keyLine?_wellFormed read sound

theorem lines?_wellFormed {fuel : Nat} {d d' : Draft} {t : Text}
    (read : lines? fuel d t = some d') (sound : d.items.WellFormed) : d'.items.WellFormed := by
  induction fuel generalizing d t with
  | zero => cases read
  | succ fuel ih =>
    unfold lines? at read
    split at read
    · cases read
      exact sound
    · split at read
      · cases read
      · rename_i found
        exact ih read (line?_wellFormed found sound)

end Draft

theorem parse?_wellFormed {t : Text} {fields : Fields} (read : parse? t = some fields) :
    WellFormed (.table fields) := by
  obtain ⟨d, found, same⟩ := Option.map_eq_some_iff.mp read
  cases same
  exact Draft.lines?_wellFormed found Items.wellFormed_nil

end Toml

end LineGauge
