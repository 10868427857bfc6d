import LineGauge.Proofs.Listing
import LineGauge.Proofs.Output

/-! The coloured listing without its colours. The codes that colour it all start with the escape
character, which stands nowhere else in a listing unless a path brings it along. So they can be told
apart from the rest, and without them the coloured output is the plain output, byte by byte. -/
namespace LineGauge.Report

def escape : Char := '\x1b'

/-- Bold, red and back to normal. -/
def colourCodes : List Bytes :=
  ["\x1b[1m", "\x1b[31m", "\x1b[0m"].map fun code => Utf8.encode code.toList

/-- The bytes without the codes that occur in them. The next `skip` bytes belong to a code that is
already found. -/
def eraseAfter (codes : List Bytes) : Nat → Bytes → Bytes
  | _, [] => []
  | skip + 1, _ :: rest => eraseAfter codes skip rest
  | 0, b :: rest =>
    match codes.find? (·.isPrefixOf (b :: rest)) with
    | some code => eraseAfter codes (code.length - 1) rest
    | none => b :: eraseAfter codes 0 rest

def uncolour (bytes : Bytes) : Bytes := eraseAfter colourCodes 0 bytes

theorem colourCodes_start : ∀ code ∈ colourCodes, code.head? = some 0x1B := by decide

theorem uncolour_code {code : Bytes} (known : code ∈ colourCodes) (rest : Bytes) :
    uncolour (code ++ rest) = uncolour rest := by
  simp only [colourCodes, List.map_cons, List.map_nil, List.mem_cons, List.not_mem_nil,
    or_false] at known
  rcases known with rfl | rfl | rfl
  · rfl
  · rfl
  · rfl

theorem uncolour_cons {b : UInt8} (other : b ≠ 0x1B) (rest : Bytes) :
    uncolour (b :: rest) = b :: uncolour rest := by
  have none : colourCodes.find? (·.isPrefixOf (b :: rest)) = none := by
    apply List.find?_eq_none.mpr
    intro code known found
    obtain ⟨more, whole⟩ := List.isPrefixOf_iff_prefix.mp found
    have first := colourCodes_start code known
    cases code with
    | nil => cases first
    | cons c code =>
      cases whole
      exact other (Option.some.inj first)
  simp only [uncolour, eraseAfter, none]

theorem uncolour_encode {t : Text} (plain : escape ∉ t) (rest : Bytes) :
    uncolour (Utf8.encode t ++ rest) = Utf8.encode t ++ uncolour rest := by
  -- no byte of a longer character is below 0x80, so the byte can only be the character itself
  have none : 0x1B ∉ Utf8.encode t := fun found => plain (Utf8.mem_of_mem_encode found (by decide))
  generalize Utf8.encode t = bytes at none
  induction bytes with
  | nil => rfl
  | cons b bytes ih =>
    rw [List.mem_cons, not_or] at none
    rw [List.cons_append, uncolour_cons (Ne.symm none.1), ih none.2]
    rfl

def groupBody (g : Group) : Text :=
  ['\n'] ++ g.problems.flatMap (problemLine · ++ ['\n']) ++ ['\n']

theorem escape_not_mem_groupBody (g : Group) : escape ∉ groupBody g := by
  have line : escape ∉ ['\n'] := by decide
  have problems : escape ∉ g.problems.flatMap (problemLine · ++ ['\n']) := by
    intro found
    obtain ⟨p, _, member⟩ := List.mem_flatMap.mp found
    rcases List.mem_append.mp member with told | ended
    · exact (visible_problemLine p).not_mem (by decide) told
    · exact line ended
  simp only [groupBody, List.mem_append, line, problems, or_self, not_false_eq_true]

theorem uncolour_group {g : Group} (plain : escape ∉ g.path.display) (rest : Bytes) :
    uncolour (Utf8.encode (groupText .coloured g) ++ rest) =
      Utf8.encode (groupText .plain g) ++ uncolour rest := by
  have bold : Utf8.encode Style.coloured.beforeFile ∈ colourCodes := by decide
  have reset : Utf8.encode Style.coloured.reset ∈ colourCodes := by decide
  have parts (style : Style) : groupText style g =
      style.beforeFile ++ (g.path.display ++ (style.reset ++ groupBody g)) := by
    simp only [groupText, groupBody, List.append_assoc]
  rw [parts, parts]
  simp only [Utf8.encode_append, List.append_assoc]
  rw [uncolour_code bold, uncolour_encode plain, uncolour_code reset,
    uncolour_encode (escape_not_mem_groupBody g)]
  rfl

theorem uncolour_groups {groups : List Group} (plain : ∀ g ∈ groups, escape ∉ g.path.display)
    (rest : Bytes) :
    uncolour (Utf8.encode (groups.flatMap (groupText .coloured)) ++ rest) =
      Utf8.encode (groups.flatMap (groupText .plain)) ++ uncolour rest := by
  induction groups with
  | nil => rfl
  | cons g groups ih =>
    obtain ⟨first, others⟩ := List.forall_mem_cons.mp plain
    simp only [List.flatMap_cons, Utf8.encode_append, List.append_assoc]
    rw [uncolour_group first, ih others]

def ending (style : Style) (count : Nat) : Text :=
  style.beforeTotal ++ (totalLine count ++ (style.reset ++ ['\n']))

theorem uncolour_ending (count : Nat) :
    uncolour (Utf8.encode (ending .coloured count)) = Utf8.encode (ending .plain count) := by
  have codes : Utf8.encode Style.coloured.beforeTotal =
      Utf8.encode (Style.code ['1']) ++ Utf8.encode (Style.code ['3', '1']) := rfl
  have bold : Utf8.encode (Style.code ['1']) ∈ colourCodes := by decide
  have red : Utf8.encode (Style.code ['3', '1']) ∈ colourCodes := by decide
  have reset : Utf8.encode Style.coloured.reset ∈ colourCodes := by decide
  have plain : escape ∉ totalLine count := (visible_totalLine count).not_mem (by decide)
  simp only [ending, Utf8.encode_append, codes, List.append_assoc]
  rw [uncolour_code bold, uncolour_code red, uncolour_encode plain, uncolour_code reset]
  rfl

theorem uncolour_listing {r : Report} (plain : ∀ g ∈ r.groups, escape ∉ g.path.display) :
    uncolour (Utf8.encode (listing .coloured r ++ ['\n'])) =
      Utf8.encode (listing .plain r ++ ['\n']) := by
  have parts (style : Style) : listing style r ++ ['\n'] =
      r.groups.flatMap (groupText style) ++ ending style r.problems.length := by
    simp only [listing, ending, List.append_assoc]
  rw [parts, parts, Utf8.encode_append, Utf8.encode_append, uncolour_groups plain, uncolour_ending]

theorem write_text (coloured : Bool) (r : Report) :
    (r.write .text coloured none).1 =
      Utf8.encode (if r.isClean then [] else
        listing (if coloured then .coloured else .plain) r ++ ['\n']) := by
  rw [write_output (output_rendering rfl)]
  cases clean : r.isClean <;> cases coloured <;> simp [render, display, clean]

/-- Colours only add their codes: the coloured output of a report without them is its plain output,
unless the name of a file has an escape character of its own. -/
theorem uncoloured_output (r : Report) (plain : ∀ g ∈ r.groups, escape ∉ g.path.display) :
    uncolour (r.write .text true none).1 = (r.write .text false none).1 := by
  rw [write_text, write_text]
  split
  · rfl
  · exact uncolour_listing plain

theorem uncoloured_output_lookalike :
    let problem (path : String) (line : Nat) : Problem :=
      { path := .ofText path.toList, line := line, observed := 80, limit := 79 }
    let r : Report := { problems := [problem "/[31m" 1, problem "/[31m/." 12, problem "/1mä" 3] }
    (∀ g ∈ r.groups, escape ∉ g.path.display) ∧
      (r.write .text true none).1 ≠ (r.write .text false none).1 ∧
      uncolour (r.write .text true none).1 = (r.write .text false none).1 := by
  intro problem r
  have plain : ∀ g ∈ r.groups, escape ∉ g.path.display := by decide
  refine ⟨plain, ?_, uncoloured_output r plain⟩
  rw [write_text, write_text]
  decide

end LineGauge.Report
