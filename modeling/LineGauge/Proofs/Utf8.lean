import LineGauge.Text.Utf8

/-! Reading and writing UTF-8 undo each other: the text of a byte string, written again, is that
byte string, and the bytes of a text are read as that text. Each character that is read takes
exactly the bytes it is written with, since no longer form of a character and no half of a
surrogate pair is read. -/
namespace LineGauge.Utf8

theorem toNat_ofNat {n : Nat} (valid : n.isValidChar) : (Char.ofNat n).toNat = n := by
  rw [Char.ofNat, dif_pos valid]
  rfl

theorem isTail_iff {b : UInt8} : isTail b = true ↔ 0x80 ≤ b.toNat ∧ b.toNat ≤ 0xBF := by
  simp [isTail, UInt8.le_iff_toNat_le]

/-- What the second byte may be after the first. -/
theorem fits_iff {a b : UInt8} : fits a b = true ↔ (0x80 ≤ b.toNat ∧ b.toNat ≤ 0xBF) ∧
    (a.toNat = 0xE0 → 0xA0 ≤ b.toNat) ∧ (a.toNat = 0xED → b.toNat < 0xA0) ∧
    (a.toNat = 0xF0 → 0x90 ≤ b.toNat) ∧ (a.toNat = 0xF4 → b.toNat < 0x90) := by
  simp only [fits, Bool.and_eq_true, isTail_iff, Bool.not_eq_true', Bool.and_eq_false_iff,
    beq_eq_false_iff_ne, ne_eq, ← UInt8.toNat_inj, decide_eq_false_iff_not, UInt8.lt_iff_toNat_lt,
    UInt8.le_iff_toNat_le, UInt8.reduceToNat]
  omega

/-- The first bytes of each kind. -/
def Lead.Starts (n : Nat) : Lead → Prop
  | .single => n < 0x80
  | .pair => 0xC2 ≤ n ∧ n < 0xE0
  | .triple => 0xE0 ≤ n ∧ n < 0xF0
  | .quad => 0xF0 ≤ n ∧ n < 0xF5
  | .stray => True

theorem lead_starts (a : UInt8) : (lead a).Starts a.toNat := by
  simp only [lead, UInt8.lt_iff_toNat_lt, UInt8.reduceToNat]
  split
  · assumption
  · split
    · trivial
    · split
      · exact ⟨by omega, by assumption⟩
      · split
        · exact ⟨by omega, by assumption⟩
        · split
          · exact ⟨by omega, by assumption⟩
          · trivial

theorem byte_eq {n : Nat} {b : UInt8} (same : n = b.toNat) : UInt8.ofNat n = b := by
  rw [same, UInt8.ofNat_toNat]

theorem encodeChar_single {a : UInt8} (ha : a.toNat < 0x80) :
    encodeChar (Char.ofNat a.toNat) = [a] := by
  have value := toNat_ofNat (n := a.toNat) (.inl (by omega))
  simp only [encodeChar, value, if_pos ha, UInt8.ofNat_toNat]

theorem encodeChar_code₂ {a b : UInt8} (low : 0xC2 ≤ a.toNat) (high : a.toNat < 0xE0)
    (hb : isTail b = true) : encodeChar (code₂ a b) = [a, b] := by
  rw [isTail_iff] at hb
  rw [code₂, payload, encodeChar, toNat_ofNat (.inl (by omega)), if_neg (by omega),
    if_pos (by omega), byte_eq (b := a) (by omega), byte_eq (b := b) (by omega)]

theorem encodeChar_code₃ {a b c : UInt8} (low : 0xE0 ≤ a.toNat) (high : a.toNat < 0xF0)
    (hb : fits a b = true) (hc : isTail c = true) : encodeChar (code₃ a b c) = [a, b, c] := by
  rw [fits_iff] at hb
  rw [isTail_iff] at hc
  have valid : Nat.isValidChar (a.toNat % 16 * 4096 + payload b * 64 + payload c) := by
    simp only [Nat.isValidChar, payload]
    omega
  rw [code₃, encodeChar, toNat_ofNat valid, payload, payload, if_neg (by omega),
    if_neg (by omega), if_pos (by omega), byte_eq (b := a) (by omega), byte_eq (b := b) (by omega),
    byte_eq (b := c) (by omega)]

theorem encodeChar_code₄ {a b c d : UInt8} (low : 0xF0 ≤ a.toNat) (high : a.toNat < 0xF5)
    (hb : fits a b = true) (hc : isTail c = true) (hd : isTail d = true) :
    encodeChar (code₄ a b c d) = [a, b, c, d] := by
  rw [fits_iff] at hb
  rw [isTail_iff] at hc hd
  have valid : Nat.isValidChar
      (a.toNat % 8 * 262144 + payload b * 4096 + payload c * 64 + payload d) := by
    simp only [Nat.isValidChar, payload]
    omega
  rw [code₄, encodeChar, toNat_ofNat valid, payload, payload, payload, if_neg (by omega),
    if_neg (by omega), if_neg (by omega), byte_eq (b := a) (by omega), byte_eq (b := b) (by omega),
    byte_eq (b := c) (by omega), byte_eq (b := d) (by omega)]

/-- A character that is read takes the bytes it is written with. -/
theorem encodeChar_next {a : UInt8} {r : Bytes} {c : Char} {taken : Nat}
    (found : next a r = (some c, taken)) : encodeChar c ++ r.drop taken = a :: r := by
  have range := lead_starts a
  unfold next at found
  split at found
  · rename_i single
    rw [single] at range
    cases found
    rw [encodeChar_single range]
    rfl
  · cases found
  · cases found
  · rename_i b r' pair
    rw [pair] at range
    split at found
    · rename_i fit
      cases found
      have tail := isTail_iff.mpr (fits_iff.mp fit).1
      rw [encodeChar_code₂ range.1 range.2 tail]
      rfl
    · cases found
  · rename_i b r' triple
    rw [triple] at range
    split at found
    · rename_i fit
      split at found
      · cases found
      · split at found
        · rename_i tail
          cases found
          rw [encodeChar_code₃ range.1 range.2 fit tail]
          rfl
        · cases found
    · cases found
  · rename_i b r' quad
    rw [quad] at range
    split at found
    · rename_i fit
      split at found
      · cases found
      · cases found
      · split at found
        · rename_i third
          split at found
          · rename_i fourth
            cases found
            rw [encodeChar_code₄ range.1 range.2 fit third fourth]
            rfl
          · cases found
        · cases found
    · cases found

theorem unitsAfter_drop (skip : Nat) (b : Bytes) : unitsAfter skip b = units (b.drop skip) := by
  induction skip generalizing b with
  | zero => rfl
  | succ skip ih =>
    cases b with
    | nil => rfl
    | cons a r => exact ih r

theorem encode_decode? {b : Bytes} {t : Text} (read : decode? b = some t) : encode t = b := by
  -- The bytes left after a character are fewer, so this goes by their number.
  induction length : b.length using Nat.strongRecOn generalizing b t with
  | _ n ih =>
    cases b with
    | nil =>
      cases read
      rfl
    | cons a r =>
      rw [decode?, units, unitsAfter, unitsAfter_drop] at read
      cases first : next a r with
      | mk char taken =>
        rw [first] at read
        cases char with
        | none => cases read
        | some c =>
          simp only [gather, Option.map_eq_some_iff] at read
          obtain ⟨later, hl, rfl⟩ := read
          have fewer : (r.drop taken).length < n := by
            simp only [List.length_cons, List.length_drop] at length ⊢
            omega
          have rest : encode later = r.drop taken := ih _ fewer hl rfl
          rw [encode, List.flatMap_cons]
          rw [encode] at rest
          rw [rest, encodeChar_next first]

theorem lead_eq {a : UInt8} {l : Lead} (known : l ≠ .stray) (starts : l.Starts a.toNat) :
    lead a = l := by
  simp only [lead, UInt8.lt_iff_toNat_lt, UInt8.reduceToNat]
  cases l with
  | single => exact if_pos starts
  | pair =>
    obtain ⟨low, high⟩ := starts
    rw [if_neg (by omega), if_neg (by omega), if_pos high]
  | triple =>
    obtain ⟨low, high⟩ := starts
    rw [if_neg (by omega), if_neg (by omega), if_neg (by omega), if_pos high]
  | quad =>
    obtain ⟨low, high⟩ := starts
    rw [if_neg (by omega), if_neg (by omega), if_neg (by omega), if_neg (by omega), if_pos high]
  | stray => exact absurd rfl known

theorem exists_byte {n : Nat} (small : n < 256) : ∃ b : UInt8, b.toNat = n ∧ UInt8.ofNat n = b :=
  ⟨_, UInt8.toNat_ofNat_of_lt small, rfl⟩

theorem ofNat_eq {c : Char} {n : Nat} (same : n = c.toNat) : Char.ofNat n = c := by
  rw [same, Char.ofNat_toNat]

/-- The bytes of a character are read as that character, whatever follows them. -/
theorem next_encodeChar (c : Char) (r : Bytes) :
    ∃ a bs, encodeChar c = a :: bs ∧ next a (bs ++ r) = (some c, bs.length) := by
  have valid : c.toNat < 0xD800 ∨ 0xDFFF < c.toNat ∧ c.toNat < 0x110000 := c.valid
  simp only [encodeChar]
  split
  · obtain ⟨a, ha, first⟩ := exists_byte (n := c.toNat) (by omega)
    have starts : lead a = .single := lead_eq nofun (by rw [Lead.Starts]; omega)
    refine ⟨a, [], by rw [first], ?_⟩
    simp only [next, starts, ofNat_eq ha, List.length_nil]
  · split
    · obtain ⟨a, ha, first⟩ := exists_byte (n := 0xC0 + c.toNat / 64) (by omega)
      obtain ⟨b, hb, second⟩ := exists_byte (n := 0x80 + c.toNat % 64) (by omega)
      have starts : lead a = .pair := lead_eq nofun (by rw [Lead.Starts]; omega)
      have fit : fits a b = true := by
        rw [fits_iff]
        omega
      have code : code₂ a b = c := ofNat_eq (by rw [payload]; omega)
      refine ⟨a, [b], by rw [first, second], ?_⟩
      simp only [next, starts, List.cons_append, fit, code, if_true, List.length_cons,
        List.length_nil]
    · split
      · obtain ⟨a, ha, first⟩ := exists_byte (n := 0xE0 + c.toNat / 4096) (by omega)
        obtain ⟨b, hb, second⟩ := exists_byte (n := 0x80 + c.toNat / 64 % 64) (by omega)
        obtain ⟨d, hd, third⟩ := exists_byte (n := 0x80 + c.toNat % 64) (by omega)
        have starts : lead a = .triple := lead_eq nofun (by rw [Lead.Starts]; omega)
        have fit : fits a b = true := by
          rw [fits_iff]
          omega
        have tail : isTail d = true := isTail_iff.mpr (by omega)
        have code : code₃ a b d = c := ofNat_eq (by rw [payload, payload]; omega)
        refine ⟨a, [b, d], by rw [first, second, third], ?_⟩
        simp only [next, starts, List.cons_append, fit, tail, code, if_true, List.length_cons,
          List.length_nil]
      · obtain ⟨a, ha, first⟩ := exists_byte (n := 0xF0 + c.toNat / 262144) (by omega)
        obtain ⟨b, hb, second⟩ := exists_byte (n := 0x80 + c.toNat / 4096 % 64) (by omega)
        obtain ⟨d, hd, third⟩ := exists_byte (n := 0x80 + c.toNat / 64 % 64) (by omega)
        obtain ⟨e, he, fourth⟩ := exists_byte (n := 0x80 + c.toNat % 64) (by omega)
        have starts : lead a = .quad := lead_eq nofun (by rw [Lead.Starts]; omega)
        have fit : fits a b = true := by
          rw [fits_iff]
          omega
        have tails : isTail d = true ∧ isTail e = true :=
          ⟨isTail_iff.mpr (by omega), isTail_iff.mpr (by omega)⟩
        have code : code₄ a b d e = c := ofNat_eq (by rw [payload, payload, payload]; omega)
        refine ⟨a, [b, d, e], by rw [first, second, third, fourth], ?_⟩
        simp only [next, starts, List.cons_append, fit, tails, code, if_true, List.length_cons,
          List.length_nil]

theorem decode?_encode (t : Text) : decode? (encode t) = some t := by
  induction t with
  | nil => rfl
  | cons c t ih =>
    obtain ⟨a, bs, written, read⟩ := next_encodeChar c (encode t)
    have split : encode (c :: t) = a :: (bs ++ encode t) := by
      rw [encode, List.flatMap_cons, written]
      rfl
    rw [decode?] at ih ⊢
    rw [split, units, unitsAfter, unitsAfter_drop, read, List.drop_left, gather, ih]
    rfl

theorem decode?_eq_some {b : Bytes} {t : Text} : decode? b = some t ↔ encode t = b := by
  constructor
  · exact encode_decode?
  · rintro rfl
    exact decode?_encode t

theorem gather_eq_some {α : Type} {us : List (Option α)} {as : List α}
    (whole : gather us = some as) : us = as.map some := by
  induction us generalizing as with
  | nil =>
    cases whole
    rfl
  | cons u us ih =>
    cases u with
    | none => cases whole
    | some a =>
      simp only [gather, Option.map_eq_some_iff] at whole
      obtain ⟨later, rest, rfl⟩ := whole
      rw [ih rest]
      rfl

theorem decodeLossy_of_decode? {b : Bytes} {t : Text} (read : decode? b = some t) :
    decodeLossy b = t := by
  unfold decodeLossy
  rw [gather_eq_some read, List.map_map]
  exact List.map_id t

/-- The bytes of some text. -/
def Valid (b : Bytes) : Prop := ∃ t, encode t = b

theorem decode?_eq_none {b : Bytes} : decode? b = none ↔ ¬ Valid b := by
  constructor
  · rintro unread ⟨t, rfl⟩
    rw [decode?_encode] at unread
    cases unread
  · intro invalid
    cases read : decode? b with
    | none => rfl
    | some t => exact absurd ⟨t, encode_decode? read⟩ invalid

theorem encode_append (s t : Text) : encode (s ++ t) = encode s ++ encode t :=
  List.flatMap_append

theorem encode_flatten (texts : List Text) :
    encode texts.flatten = (texts.map encode).flatten := by
  induction texts with
  | nil => rfl
  | cons text texts ih => simp only [List.flatten_cons, List.map_cons, encode_append, ih]

theorem encodeChar_high (c : Char) (wide : 0x80 ≤ c.toNat) :
    ∀ b ∈ encodeChar c, 0x80 ≤ b.toNat := by
  have valid : c.toNat < 0xD800 ∨ 0xDFFF < c.toNat ∧ c.toNat < 0x110000 := c.valid
  have high {n : Nat} (low : 0x80 ≤ n) (small : n < 256) : 0x80 ≤ (UInt8.ofNat n).toNat := by
    obtain ⟨b, value, rfl⟩ := exists_byte small
    omega
  simp only [encodeChar, if_neg (Nat.not_lt.mpr wide)]
  split
  · simp only [List.forall_mem_cons]
    exact ⟨high (by omega) (by omega), high (by omega) (by omega), nofun⟩
  · split
    · simp only [List.forall_mem_cons]
      exact ⟨high (by omega) (by omega), high (by omega) (by omega), high (by omega) (by omega),
        nofun⟩
    · simp only [List.forall_mem_cons]
      exact ⟨high (by omega) (by omega), high (by omega) (by omega), high (by omega) (by omega),
        high (by omega) (by omega), nofun⟩

/-- A byte below 0x80 is never part of a longer character. -/
theorem mem_of_mem_encode {t : Text} {b : UInt8} (found : b ∈ encode t) (single : b.toNat < 0x80) :
    Char.ofNat b.toNat ∈ t := by
  obtain ⟨c, member, part⟩ := List.mem_flatMap.mp found
  by_cases wide : 0x80 ≤ c.toNat
  · have high := encodeChar_high c wide b part
    omega
  · have narrow : c.toNat < 0x80 := Nat.lt_of_not_le wide
    have own : encodeChar c = [UInt8.ofNat c.toNat] := by simp only [encodeChar, if_pos narrow]
    rw [own, List.mem_singleton] at part
    obtain ⟨a, value, same⟩ := exists_byte (n := c.toNat) (by omega)
    rw [part, same, value, Char.ofNat_toNat]
    exact member

end LineGauge.Utf8
