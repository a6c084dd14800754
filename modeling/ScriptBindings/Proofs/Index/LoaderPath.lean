import ScriptBindings.Index.Program
import ScriptBindings.Proofs.Name.Scope

namespace ScriptBindings.BindingIndex

open Scope

theorem loaderPath_eq_iff {ss ts : List String} {object : String} :
    loaderPath ss object = loaderPath ts object ↔ join ss = join ts := by
  rw [loaderPath, loaderPath, String.append_left_inj, String.append_left_inj]

/-- Cutting a name into its segments undoes joining them. So namespaces share the prefix of their
loaders exactly if they have the same segments, also where their names differ in colons. -/
theorem prefix_determines_segments :
    (∀ name, segments (join (segments name)) = segments name) ∧
    (∀ scope other, join (segments scope) = join (segments other) ↔
      segments scope = segments other) ∧
    ∀ scope other object, loaderPath (segments scope) object = loaderPath (segments other) object ↔
      segments scope = segments other := by
  have hjoined (scope other : String) :
      join (segments scope) = join (segments other) ↔ segments scope = segments other := by
    constructor
    · intro h
      calc segments scope
        _ = segments (join (segments scope)) := (segments_join_segments scope).symm
        _ = segments (join (segments other)) := congrArg segments h
        _ = segments other := segments_join_segments other
    · intro h
      rw [h]
  exact ⟨segments_join_segments, hjoined, fun scope other _ =>
    loaderPath_eq_iff.trans (hjoined scope other)⟩

/-- Colons that belong to no separator stay in the segments, here before `a` and `b` and behind
`d`. -/
example : segments ":::a:::::b::::d:" = [":a", ":b", "d:"] ∧
    join (segments ":::a:::::b::::d:") = ":a:::b::d:" := by
  decide +kernel

end ScriptBindings.BindingIndex
