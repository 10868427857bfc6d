import LineGauge.Config
import LineGauge.Proofs.Path

/-! What an exclusion entry takes out is closed downwards: whatever lies below an excluded path is
excluded too. So it does not matter whether a walk leaves out an excluded directory or leaves out
every file below it. -/
namespace LineGauge

namespace Path

theorem after?_eq_some {α : Type} [BEq α] [LawfulBEq α] {bs as rest : List α} :
    after? bs as = some rest ↔ as = bs ++ rest := by
  induction bs generalizing as with
  | nil => simp [after?]
  | cons b bs ih =>
    cases as with
    | nil => simp [after?]
    | cons a as =>
      by_cases same : a = b
      · simp [after?, same, ih]
      · simp [after?, same]

theorem excludedBy_mono {p q entry : Path} (below : p.components <+: q.components)
    (excluded : p.excludedBy entry = true) : q.excludedBy entry = true := by
  obtain ⟨more, hq⟩ := below
  simp only [excludedBy, Bool.or_eq_true, List.isPrefixOf_iff_prefix] at excluded ⊢
  rcases excluded with inside | named
  · exact .inl (inside.trans ⟨more, hq⟩)
  · right
    split at named
    · rename_i n last
      split at named
      · rename_i rest hr
        have longer : after? entry.components.dropLast q.components = some (rest ++ more) := by
          rw [after?_eq_some] at hr ⊢
          rw [← hq, hr, List.append_assoc]
        obtain ⟨c, hc, same⟩ := List.any_eq_true.mp named
        have kept : c ∈ (rest ++ more).dropLast := by
          cases more with
          | nil => simpa using hc
          | cons d more =>
            rw [List.dropLast_append_of_ne_nil (List.cons_ne_nil d more)]
            exact List.mem_append_left _ (List.dropLast_subset rest hc)
        simp only [longer]
        exact List.any_eq_true.mpr ⟨c, kept, same⟩
      · contradiction
    · contradiction

theorem excludedBy_below {l : Location} {entry : Path}
    (excluded : (ofLocation l).excludedBy entry = true) (m : Location) :
    (ofLocation (l ++ m)).excludedBy entry = true :=
  excludedBy_mono (components_append l m) excluded

end Path

namespace Exclusions

theorem excludes_below {es : Exclusions} {l : Location}
    (excluded : es.excludes (.ofLocation l) = true) (m : Location) :
    es.excludes (.ofLocation (l ++ m)) = true := by
  obtain ⟨entry, member, he⟩ := List.any_eq_true.mp excluded
  exact List.any_eq_true.mpr ⟨entry, member, Path.excludedBy_below he m⟩

theorem entries_extend (cwd : Path) (es : Exclusions) (more : List Path) :
    (extend cwd es more).entries = es.entries ++ more.map cwd.resolve := by
  induction more generalizing es with
  | nil => simp [extend]
  | cons entry more ih =>
    have step := ih (es.push cwd entry)
    rw [extend] at step
    rw [extend, List.foldl_cons, step]
    simp [push]

theorem entries_standard (cwd : Path) (more : List Path) :
    (standard cwd more).entries = (standardNames ++ more).map cwd.resolve := by
  rw [standard, entries_extend, entries_extend, List.map_append, List.nil_append]

theorem excludes_push (cwd : Path) (es : Exclusions) (entry p : Path) :
    (es.push cwd entry).excludes p = (es.excludes p || p.excludedBy (cwd.resolve entry)) := by
  simp [excludes, push]

end Exclusions

end LineGauge
