import LineGauge.Proofs.Rebase

/-! One spelling for every location. A path made absolute and folded is a slash and proper names
with single slashes between them. All that counts is where the steps of the path lead: a detour that
comes back to where it began can be put in at any slash, and changes nothing. -/
namespace LineGauge.Path

theorem steps_slash (as bs : Bytes) : steps ⟨as ++ slash :: bs⟩ = steps ⟨as⟩ ++ steps ⟨bs⟩ := by
  unfold steps segments
  rw [pieces_slash, List.filterMap_append]

theorem steps_proper {n : Name} (proper : n.isProper = true) : steps ⟨n⟩ = [.name n] := by
  have whole := pieces_of_none (· == slash) n ((isProper_iff n).mp proper).2.2
  unfold steps segments
  simp [whole, component?_proper proper]

/-- Where a path sets out from. -/
def origin (cwd p : Path) : Location := if p.isAbsolute then [] else cwd.steps.foldl walkTo []

theorem locationIn_origin (cwd p : Path) :
    cwd.locationIn p = p.steps.foldl walkTo (cwd.origin p) := by
  unfold origin
  rw [locationIn_steps]
  cases begins : p.isAbsolute with
  | true => rw [join_absolute cwd p begins, if_pos rfl]
  | false => rw [steps_join cwd begins, List.foldl_append, if_neg Bool.false_ne_true]

theorem resolve_congr (cwd : Path) {p q : Path} (begins : p.isAbsolute = q.isAbsolute)
    (leads : ∀ l, p.steps.foldl walkTo l = q.steps.foldl walkTo l) :
    cwd.resolve p = cwd.resolve q := by
  unfold resolve
  rw [locationIn_origin, locationIn_origin, leads, origin, origin, begins]

theorem isAbsolute_slash (x y : Bytes) :
    isAbsolute ⟨x ++ slash :: y⟩ = isAbsolute ⟨x ++ [slash]⟩ := by
  cases x <;> rfl

theorem resolve_detour (cwd : Path) (x detour y : Bytes)
    (back : ∀ l, (steps ⟨detour⟩).foldl walkTo l = l) :
    cwd.resolve ⟨x ++ slash :: (detour ++ slash :: y)⟩ = cwd.resolve ⟨x ++ slash :: y⟩ := by
  apply resolve_congr
  · rw [isAbsolute_slash x y, isAbsolute_slash]
  · intro l
    rw [steps_slash, steps_slash, steps_slash, List.foldl_append, List.foldl_append, back,
      List.foldl_append]

theorem foldl_out_and_back {n : Name} (proper : n.isProper = true) (l : Location) :
    (steps ⟨n ++ [slash, dot, dot]⟩).foldl walkTo l = l := by
  have up : steps ⟨[dot, dot]⟩ = [.up] := rfl
  rw [steps_slash, steps_proper proper, up]
  exact List.dropLast_concat

theorem resolve_trailing (cwd : Path) {p : Path} (some : p.bytes ≠ []) :
    cwd.resolve ⟨p.bytes ++ [slash]⟩ = cwd.resolve p := by
  apply resolve_congr
  · obtain ⟨b, bs, spelled⟩ := List.exists_cons_of_ne_nil some
    simp [isAbsolute, spelled]
  · intro l
    rw [steps_slash]
    exact congrArg (List.foldl walkTo l) (List.append_nil p.steps)

theorem resolve_absolute (cwd other : Path) {p : Path} (absolute : p.isAbsolute = true) :
    cwd.resolve p = other.resolve p := by
  unfold resolve locationIn
  rw [join_absolute cwd p absolute, join_absolute other p absolute]

theorem resolve_again (cwd other p : Path) : other.resolve (cwd.resolve p) = cwd.resolve p :=
  resolve_ofLocation other (cwd.locationIn_proper p)

/-- Making a path absolute and folding it gives a canonical form: a slash and then proper names with
single slashes between them. It is kept when it is made absolute again, from wherever; an absolute
path has it whatever the working directory is; and neither `.`, an empty name nor a proper name with
`..` after it, put in at a slash, changes it, nor does a slash at the end. -/
theorem resolve_canonical (cwd p : Path) :
    (∃ names : Location, (∀ n ∈ names, n.isProper = true) ∧
      cwd.resolve p = ⟨slash :: joinNames names⟩) ∧
    (cwd.resolve p).isAbsolute = true ∧
    (∀ other : Path, other.resolve (cwd.resolve p) = cwd.resolve p) ∧
    (p.isAbsolute = true → ∀ other : Path, other.resolve p = cwd.resolve p) ∧
    (∀ x y, p.bytes = x ++ [slash] ++ y →
      cwd.resolve ⟨x ++ [slash, dot, slash] ++ y⟩ = cwd.resolve p ∧
      cwd.resolve ⟨x ++ [slash, slash] ++ y⟩ = cwd.resolve p ∧
      ∀ n : Name, n.isProper = true →
        cwd.resolve ⟨x ++ [slash] ++ n ++ [slash, dot, dot, slash] ++ y⟩ = cwd.resolve p) ∧
    (p.bytes ≠ [] → cwd.resolve ⟨p.bytes ++ [slash]⟩ = cwd.resolve p) := by
  refine ⟨?_, isAbsolute_ofLocation _, fun other => resolve_again cwd other p, ?_, ?_, ?_⟩
  · exact ⟨cwd.locationIn p, cwd.locationIn_proper p, ofLocation_eq _⟩
  · intro absolute other
    exact resolve_absolute other cwd absolute
  · intro x y spelled
    have whole : p = ⟨x ++ slash :: y⟩ := by
      cases p
      simpa using spelled
    subst whole
    refine ⟨?_, ?_, ?_⟩
    · simpa using resolve_detour cwd x [dot] y fun _ => rfl
    · simpa using resolve_detour cwd x [] y fun _ => rfl
    · intro n proper
      simpa using resolve_detour cwd x _ y (foldl_out_and_back proper)
  · exact resolve_trailing cwd

theorem resolve_canonical_climbing :
    let cwd : Path := .ofText "/w/x".toList
    let p : Path := .ofText "a/../../../../b".toList
    cwd.resolve p = .ofText "/b".toList ∧
      cwd.resolve (.ofText "a/.././../../../b".toList) = cwd.resolve p ∧
      cwd.resolve (.ofText "a/..//../../../b".toList) = cwd.resolve p ∧
      cwd.resolve (.ofText "a/../n/../../../../b".toList) = cwd.resolve p ∧
      cwd.resolve (.ofText "a/../../../../b/".toList) = cwd.resolve p := by
  intro cwd p
  obtain ⟨_, _, _, _, detours, trailing⟩ := resolve_canonical cwd p
  obtain ⟨here, silent, back⟩ :=
    detours (Utf8.encode "a/..".toList) (Utf8.encode "../../../b".toList) (by decide)
  exact ⟨by decide, here, silent, back (Utf8.encode ['n']) (by decide), trailing (by decide)⟩

end LineGauge.Path
