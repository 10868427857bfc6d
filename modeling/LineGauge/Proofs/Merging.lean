import LineGauge.Invocation

/-! The command line over the settings. Some values of the settings give way to those of the command
line, exclusion entries add up, and strictness has a flag for each side; all the same the settings
are nothing but arguments that may be left out, since they can be written into the command line
where it is silent. The merge fails for a level that does not exist and for nothing else. -/
namespace LineGauge

theorem Limits.resolve?_eq_none {level : Nat} {code docs : Option Nat} :
    resolve? level code docs = none ↔ 2 < level := by
  unfold resolve?
  rw [Option.map_eq_none_iff]
  match level with
  | 0 | 1 | 2 => simp [codeAtLevel?]
  | level + 3 => simp [codeAtLevel?]

namespace Invocation

/-- The level that counts. -/
def level (a : Arguments) (s : Settings) : Nat := (a.extend.or s.extend).getD 0

def limits? (a : Arguments) (s : Settings) : Option Limits :=
  Limits.resolve? (level a s) (a.codeLength.or s.codeLength) (a.docsLength.or s.docsLength)

/-- What is asked for, with the limits already decided. -/
def merged (cwd : Path) (a : Arguments) (s : Settings) (limits : Limits) : Invocation where
  roots := firstGiven a.paths s.roots [.ofText ['.']]
  config := {
    limits := limits
    exclusions := .standard cwd (s.exclude ++ a.exclude)
    extensions := firstGiven a.extensions s.extensions standardExtensions
    walk := {
      followLinks := a.follow
      maxDepth := a.maxDepth
      respectIgnoreFiles := a.gitignore
      threads := a.jobs }
    strict := isStrict a s }
  format := a.format

section
variable {cwd : Path} {a : Arguments} {s : Settings}

theorem resolve_eq : resolve cwd a s =
    match limits? a s with
    | none => .error (.noLevel (level a s))
    | some limits => .ok (merged cwd a s limits) := rfl

theorem resolve_eq_ok {i : Invocation} :
    resolve cwd a s = .ok i ↔ ∃ limits, limits? a s = some limits ∧ i = merged cwd a s limits := by
  rw [resolve_eq]
  cases limits? a s <;> simp [eq_comm]

theorem resolve_eq_error {e : CheckError} :
    resolve cwd a s = .error e ↔ 2 < level a s ∧ e = .noLevel (level a s) := by
  have none : limits? a s = none ↔ 2 < level a s := Limits.resolve?_eq_none
  rw [resolve_eq, ← none]
  cases limits? a s <;> simp [eq_comm]

theorem resolve_strictness {i : Invocation} (resolved : resolve cwd a s = .ok i) (strict : Bool) :
    resolve cwd { a with strict, noStrict := !strict } s =
      .ok { i with config := { i.config with strict } } := by
  have decided : isStrict { a with strict, noStrict := !strict } s = strict := by
    cases strict <;> rfl
  obtain ⟨limits, found, rfl⟩ := resolve_eq_ok.mp resolved
  refine resolve_eq_ok.mpr ⟨limits, found, ?_⟩
  simp only [merged, decided]

end

theorem firstGiven_silent {α : Type} (given configured standard : List α) :
    firstGiven (if given.isEmpty then configured else given) [] standard =
      firstGiven given configured standard := by
  cases given <;> cases configured <;> rfl

end Invocation

/-- The command line with the settings written into it where it is silent. -/
def Arguments.withSettings (a : Arguments) (s : Settings) : Arguments :=
  { a with
    paths := if a.paths.isEmpty then s.roots else a.paths
    exclude := s.exclude ++ a.exclude
    extend := a.extend.or s.extend
    codeLength := a.codeLength.or s.codeLength
    docsLength := a.docsLength.or s.docsLength
    strict := if a.strict || a.noStrict then a.strict else s.strict == some true
    noStrict := if a.strict || a.noStrict then a.noStrict else s.strict == some false
    extensions := if a.extensions.isEmpty then s.extensions else a.extensions }

theorem Invocation.isStrict_withSettings (a : Arguments) (s : Settings) :
    isStrict (a.withSettings s) {} = isStrict a s := by
  unfold isStrict Arguments.withSettings
  cases a.strict <;> cases a.noStrict <;> rcases s.strict with _ | _ | _ <;> rfl

theorem Invocation.resolve_withSettings (cwd : Path) (a : Arguments) (s : Settings) :
    resolve cwd (a.withSettings s) {} = resolve cwd a s := by
  have level : level (a.withSettings s) {} = level a s := by
    simp [Invocation.level, Arguments.withSettings]
  have limits : limits? (a.withSettings s) {} = limits? a s := by
    unfold limits?
    rw [level]
    simp [Arguments.withSettings]
  have merged : merged cwd (a.withSettings s) {} = merged cwd a s := by
    funext limits
    unfold Invocation.merged
    rw [isStrict_withSettings]
    simp only [Arguments.withSettings, firstGiven_silent, List.nil_append]
  rw [resolve_eq, resolve_eq, limits, level, merged]

/-- Settings act like arguments: merging the command line over the settings is the same as writing
them into the command line where it is silent and merging that over empty settings. Both fail
exactly for a level above two, which explicit lengths do not help, and name that level. -/
theorem settings_act_as_arguments (cwd : Path) (a : Arguments) (s : Settings) :
    let level := (a.extend.or s.extend).getD 0
    Invocation.resolve cwd a s = Invocation.resolve cwd (a.withSettings s) {} ∧
    (∀ e, Invocation.resolve cwd a s = .error e ↔ 2 < level ∧ e = .noLevel level) ∧
    ((∃ i, Invocation.resolve cwd a s = .ok i) ↔ level ≤ 2) := by
  refine ⟨(Invocation.resolve_withSettings cwd a s).symm, fun e => Invocation.resolve_eq_error, ?_⟩
  constructor
  · rintro ⟨i, resolved⟩
    apply Nat.le_of_not_lt
    intro beyond
    rw [Invocation.resolve_eq_error.mpr ⟨beyond, rfl⟩] at resolved
    cases resolved
  · intro within
    cases resolved : Invocation.resolve cwd a s with
    | error e => exact absurd (Invocation.resolve_eq_error.mp resolved).1 (Nat.not_lt.mpr within)
    | ok i => exact ⟨i, rfl⟩

end LineGauge
