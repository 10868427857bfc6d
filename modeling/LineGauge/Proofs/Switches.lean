import LineGauge.Arguments.Parse
import LineGauge.Proofs.Merging

/-! The switches of a command line. Reading an item stores values, turns switches on and changes what
waits, and nothing else, so what these keep the whole reading keeps: the two switches for strictness
are never on together. A switch at the end of a command line is read after everything else is
stored, and so the last switch for strictness decides, whatever stands before it and in the
settings. -/
namespace LineGauge

theorem exists_of_bind {ε α β : Type} {x : Except ε α} {f : α → Except ε β} {b : β}
    (done : x >>= f = .ok b) : ∃ a, x = .ok a ∧ f a = .ok b := by
  cases x with
  | error e => cases done
  | ok a => exact ⟨a, rfl, done⟩

namespace Arguments

theorem store_frame {r r' : Reading} {option : Valued} {v : Bytes}
    (stored : store r option v = .ok r') :
    r'.pending = r.pending ∧ r'.onlyPaths = r.onlyPaths ∧ r'.found.strict = r.found.strict ∧
      r'.found.noStrict = r.found.noStrict := by
  cases option <;>
    obtain ⟨value, _, done⟩ := exists_of_bind stored <;>
    cases done <;>
    exact ⟨rfl, rfl, rfl, rfl⟩

theorem settle_pending {r r' : Reading} (settled : settle r = .ok r') : r'.pending = .nothing := by
  unfold settle at settled
  split at settled
  · cases settled
    rfl
  · cases settled
  · exact (store_frame settled).1
  · obtain ⟨paths, _, done⟩ := exists_of_bind settled
    cases done
    rfl

theorem settle_settled {r : Reading} (nothing : r.pending = .nothing) (a : Arguments) :
    settle { r with found := a } = .ok { r with found := a } := by
  cases r
  cases nothing
  rfl

/-- The item after which every item is a path. -/
def dashes : Bytes := Utf8.encode "--".toList

/-- A property of readings that no part of a step takes away. -/
structure Kept (P : Reading → Prop) : Prop where
  store {r r' : Reading} {option : Valued} {v : Bytes} :
    store r option v = .ok r' → P r → P r'
  turnOn {r : Reading} {a : Arguments} {option : Switch} :
    turnOn r.found option = .ok a → P r → P { r with found := a }
  addPaths {r : Reading} (paths : List Path) :
    P r → P { r with found := { r.found with paths := r.found.paths ++ paths } }
  wait {r : Reading} (pending : Pending) : P r → P { r with pending }

section
variable {P : Reading → Prop} (kept : Kept P) {r r' : Reading}
include kept

theorem Kept.settle (settled : settle r = .ok r') (holds : P r) : P r' := by
  have emptied := kept.wait .nothing holds
  unfold Arguments.settle at settled
  split at settled
  · cases settled
    exact emptied
  · cases settled
  · exact kept.store settled emptied
  · obtain ⟨paths, _, done⟩ := exists_of_bind settled
    cases done
    exact kept.addPaths paths emptied

theorem Kept.takeSwitch {option : Switch} (taken : takeSwitch r option = .ok r') (holds : P r) :
    P r' := by
  obtain ⟨settled, first, then'⟩ := exists_of_bind taken
  obtain ⟨a, on, done⟩ := exists_of_bind then'
  cases done
  exact kept.turnOn on (kept.settle first holds)

theorem Kept.takeAttached {option : Valued} {v : Bytes} (taken : takeAttached r option v = .ok r')
    (holds : P r) : P r' := by
  obtain ⟨settled, first, stored⟩ := exists_of_bind taken
  exact kept.store stored (kept.settle first holds)

theorem Kept.takeOption {option : Valued} (taken : takeOption r option = .ok r') (holds : P r) :
    P r' := by
  obtain ⟨settled, first, done⟩ := exists_of_bind taken
  cases done
  exact kept.wait _ (kept.settle first holds)

theorem Kept.takeLong {item : Bytes} (taken : takeLong r item = .ok r') (holds : P r) : P r' := by
  simp only [Arguments.takeLong] at taken
  split at taken
  · cases taken
  · exact kept.takeOption taken holds
  · exact kept.takeAttached taken holds
  · exact kept.takeSwitch taken holds
  · cases taken

theorem Kept.takeShort {cluster : Bytes} (taken : takeShort r cluster = .ok r') (holds : P r) :
    P r' := by
  -- the switches of a cluster are read one by one, each from the reading that the last one left
  fun_induction Arguments.takeShort r cluster with
  | case1 r =>
    cases taken
    exact holds
  | case2 r b rest unknown => cases taken
  | case3 r b rest option known ih =>
    obtain ⟨next, first, others⟩ := exists_of_bind taken
    exact ih next others (kept.takeSwitch first holds)
  | case4 r b option known => exact kept.takeOption taken holds
  | case5 r b option known c v => exact kept.takeAttached taken holds

theorem Kept.takePath {v : Bytes} (taken : takePath r v = .ok r') (holds : P r) : P r' := by
  unfold Arguments.takePath at taken
  split at taken
  · cases taken
    exact kept.wait _ holds
  · obtain ⟨settled, first, done⟩ := exists_of_bind taken
    cases done
    exact kept.wait _ (kept.settle first holds)

theorem Kept.takePlain {v : Bytes} (taken : takePlain r v = .ok r') (holds : P r) : P r' := by
  unfold Arguments.takePlain at taken
  split at taken
  · cases taken
    exact kept.wait _ holds
  · exact kept.takePath taken holds

theorem Kept.take {item : Bytes}
    (escape : item = dashes → P r → P { r with onlyPaths := true })
    (taken : take r item = .ok r') (holds : P r) : P r' := by
  -- the dashes alone change nothing but how the items after them are read
  unfold Arguments.take at taken
  split at taken
  · exact kept.takePath taken holds
  · split at taken
    · cases taken
      exact escape rfl holds
    · exact kept.takeLong taken holds
    · exact kept.takeShort taken holds
    · exact kept.takePlain taken holds

theorem Kept.run {items : List Bytes}
    (escape : dashes ∈ items → ∀ {r : Reading}, P r → P { r with onlyPaths := true })
    (read : items.foldlM Arguments.take r = .ok r') (holds : P r) : P r' := by
  induction items generalizing r with
  | nil =>
    cases read
    exact holds
  | cons item items ih =>
    obtain ⟨next, first, others⟩ := exists_of_bind read
    have after : P next := by
      apply kept.take _ first holds
      intro same
      exact escape (same ▸ List.mem_cons_self)
    apply ih _ others after
    intro later
    exact escape (List.mem_cons_of_mem item later)

end

/-- At most one of the two switches for strictness is on. -/
def Decided (a : Arguments) : Prop := ¬ (a.strict = true ∧ a.noStrict = true)

theorem of_once {α : Type} {given : Bool} {value : Except UsageError α} {a : α}
    (taken : once given value = .ok a) : value = .ok a := by
  cases given with
  | true => cases taken
  | false => exact taken

theorem turnOn_decided {a b : Arguments} {option : Switch} (on : turnOn a option = .ok b)
    (decided : a.Decided) : b.Decided := by
  cases option with
  | strict =>
    cases of_once on
    rintro ⟨_, both⟩
    cases both
  | noStrict =>
    cases of_once on
    rintro ⟨both, _⟩
    cases both
  | follow =>
    cases of_once on
    exact decided
  | gitignore =>
    cases of_once on
    exact decided
  | help => cases on
  | version => cases on

theorem kept_decided : Kept fun r => r.found.Decided where
  store stored decided := by
    obtain ⟨_, _, strict, noStrict⟩ := store_frame stored
    unfold Decided
    rwa [strict, noStrict]
  turnOn on decided := turnOn_decided on decided
  addPaths _ decided := decided
  wait _ decided := decided

theorem kept_onlyPaths : Kept fun r => r.onlyPaths = false where
  store stored unescaped := (store_frame stored).2.1.trans unescaped
  turnOn _ unescaped := unescaped
  addPaths _ unescaped := unescaped
  wait _ unescaped := unescaped

theorem parse_decided {items : List Bytes} {a : Arguments} (parsed : parse items = .ok a) :
    a.Decided := by
  obtain ⟨r, read, last⟩ := exists_of_bind parsed
  obtain ⟨settled, first, done⟩ := exists_of_bind last
  cases done
  have start : ({} : Reading).found.Decided := by
    rintro ⟨both, _⟩
    cases both
  have decided := kept_decided.run (fun _ _ holds => holds) read start
  exact kept_decided.settle first decided

def finish (r : Reading) : Except UsageError Arguments := do
  return (← settle r).found

theorem takeSwitch_finish (r : Reading) (option : Switch) :
    takeSwitch r option >>= finish = finish r >>= (turnOn · option) := by
  unfold takeSwitch finish
  cases settled : settle r with
  | error e => rfl
  | ok s =>
    change ((turnOn s.found option >>= fun a => .ok { s with found := a }) >>= finish) =
      turnOn s.found option
    cases turnOn s.found option with
    | error e => rfl
    | ok a =>
      change (settle { s with found := a } >>= fun s => .ok s.found) = .ok a
      rw [settle_settled (settle_pending settled)]
      rfl

/-- A switch at the end is turned on after everything before it is stored, so it fails only by
itself. -/
theorem parse_append_switch {items : List Bytes} (unescaped : dashes ∉ items) {flag : Bytes}
    {option : Switch}
    (flagged : ∀ {r : Reading}, r.onlyPaths = false → take r flag = takeSwitch r option) :
    parse (items ++ [flag]) = parse items >>= (turnOn · option) := by
  change (items ++ [flag]).foldlM take {} >>= finish =
    (items.foldlM take {} >>= finish) >>= (turnOn · option)
  rw [List.foldlM_append]
  cases read : items.foldlM take {} with
  | error e => rfl
  | ok r =>
    have plain : r.onlyPaths = false :=
      kept_onlyPaths.run (fun escaped => absurd escaped unescaped) read rfl
    have alone : [flag].foldlM take r = takeSwitch r option := by
      rw [List.foldlM_cons, flagged plain]
      exact bind_pure _
    change [flag].foldlM take r >>= finish = finish r >>= (turnOn · option)
    rw [alone, takeSwitch_finish]

/-- The switches for strictness as they are written, each with what it asks for. -/
def strictnessFlags : List (Bytes × Bool) :=
  [("--no-strict", false), ("--strict", true), ("-s", true)].map fun (flag, strict) =>
    (Utf8.encode flag.toList, strict)

def strictness (strict : Bool) : Switch := if strict then .strict else .noStrict

theorem take_strictness {flag : Bytes} {strict : Bool} (known : (flag, strict) ∈ strictnessFlags)
    {r : Reading} (plain : r.onlyPaths = false) :
    take r flag = takeSwitch r (strictness strict) := by
  simp only [strictnessFlags, List.map_cons, List.map_nil, List.mem_cons, List.not_mem_nil,
    or_false, Prod.mk.injEq] at known
  unfold take
  rw [plain]
  rcases known with ⟨rfl, rfl⟩ | ⟨rfl, rfl⟩ | ⟨rfl, rfl⟩
  · rfl
  · rfl
  · -- the only switch of a cluster, with nothing after it
    exact bind_pure (takeSwitch r .strict)

theorem turnOn_strictness {a b : Arguments} {strict : Bool}
    (on : turnOn a (strictness strict) = .ok b) : b = { a with strict, noStrict := !strict } := by
  cases strict with
  | true =>
    cases of_once on
    rfl
  | false =>
    cases of_once on
    rfl

end Arguments

/-- On a command line that is understood, at most one switch for strictness is on. One more at the
end, if that is understood too, decides over the switches before it and over the settings, and
changes nothing else about the run. -/
theorem last_strictness_flag_wins (items : List Bytes) :
    (∀ a, Arguments.parse items = .ok a → ¬ (a.strict = true ∧ a.noStrict = true)) ∧
    (Arguments.dashes ∉ items →
      ∀ flag strict, (flag, strict) ∈ Arguments.strictnessFlags →
        ∀ a b, Arguments.parse items = .ok a → Arguments.parse (items ++ [flag]) = .ok b →
          ∀ cwd settings i, Invocation.resolve cwd a settings = .ok i →
            Invocation.resolve cwd b settings =
              .ok { i with config := { i.config with strict } }) := by
  constructor
  · intro a parsed
    exact Arguments.parse_decided parsed
  · intro unescaped flag strict known a b parsed extended cwd settings i resolved
    have last := Arguments.parse_append_switch unescaped (Arguments.take_strictness known)
    rw [last, parsed] at extended
    rw [Arguments.turnOn_strictness extended]
    exact Invocation.resolve_strictness resolved strict

theorem last_strictness_flag_wins_cluster :
    let items := ["-sl2", "a.py", "--no-strict", "--exclude=x,y", "-s"].map (Utf8.encode ·.toList)
    let flag := Utf8.encode "--no-strict".toList
    let settings : Settings := { strict := some true }
    let cwd : Path := .ofText ['/', 'w']
    ∃ a b i, Arguments.parse items = .ok a ∧ Arguments.parse (items ++ [flag]) = .ok b ∧
      (a.strict = true ∧ a.noStrict = false) ∧ (b.strict = false ∧ b.noStrict = true) ∧
      Invocation.resolve cwd a settings = .ok i ∧ i.config.strict = true ∧
      Invocation.resolve cwd b settings =
        .ok { i with config := { i.config with strict := false } } := by
  intro items flag settings cwd
  let a : Arguments :=
    { paths := [.ofText "a.py".toList], exclude := [.ofText ['x'], .ofText ['y']],
      extend := some 2, strict := true }
  let b : Arguments := { a with strict := false, noStrict := true }
  have parsed : Arguments.parse items = .ok a := rfl
  have extended : Arguments.parse (items ++ [flag]) = .ok b := rfl
  have resolved : Invocation.resolve cwd a settings = .ok (.merged cwd a settings { code := 99 }) :=
    rfl
  refine ⟨a, b, _, parsed, extended, ⟨rfl, rfl⟩, ⟨rfl, rfl⟩, resolved, rfl, ?_⟩
  exact (last_strictness_flag_wins items).2 (by decide) flag false (by decide) a b parsed extended
    cwd settings _ resolved

end LineGauge
