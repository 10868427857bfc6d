import LineGauge.Arguments.Basic
import LineGauge.Check
import LineGauge.Settings.Basic

/-! What a run does: the command line over the settings. -/
namespace LineGauge

/-- The roots, the configuration and the output format of one check. -/
structure Invocation where
  roots : List Path
  config : Config
  format : Report.Format
  deriving DecidableEq, Repr

namespace Invocation

/-- The first list that is not empty, or else the last one. -/
def firstGiven {α : Type} (given configured standard : List α) : List α :=
  if !given.isEmpty then given else if !configured.isEmpty then configured else standard

/-- Whether the run is strict: the command line decides, then the settings. -/
def isStrict (a : Arguments) (s : Settings) : Bool :=
  if a.strict then true else if a.noStrict then false else s.strict.getD false

/-- Merges the command line over the settings. Exclusion entries add up; everything else the
command line gives takes the place of what the settings say. -/
def resolve (cwd : Path) (a : Arguments) (s : Settings) : Except CheckError Invocation :=
  let level := (a.extend.or s.extend).getD 0
  match Limits.resolve? level (a.codeLength.or s.codeLength) (a.docsLength.or s.docsLength) with
  | none => .error (.noLevel level)
  | some limits =>
    .ok {
      roots := firstGiven a.paths s.roots [.ofText ['.']]
      config := {
        limits := limits
        exclusions := .standard cwd (s.exclude ++ a.exclude)
        extensions := firstGiven a.extensions s.extensions standardExtensions
        walk := {
          followLinks := a.follow
          maxDepth := a.maxDepth
          respectIgnoreFiles := a.gitignore
          threads := a.jobs }
        strict := isStrict a s }
      format := a.format }

end Invocation

end LineGauge
