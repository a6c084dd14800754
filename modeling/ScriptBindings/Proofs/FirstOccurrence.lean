import Mathlib.Data.List.Induction
import Mathlib.Data.List.Nodup

namespace ScriptBindings

variable {α : Type} [BEq α] [LawfulBEq α]

theorem eraseDups_concat (as : List α) (a : α) :
    (as ++ [a]).eraseDups = if a ∈ as then as.eraseDups else as.eraseDups ++ [a] := by
  rw [List.eraseDups_append, List.removeAll]
  by_cases ha : a ∈ as
  · simp [ha]
  · simp [ha, List.eraseDups_cons]

theorem filter_eraseDups (p : α → Bool) (as : List α) :
    as.eraseDups.filter p = (as.filter p).eraseDups := by
  induction as using List.reverseRecOn with
  | nil => rfl
  | append_singleton as a ih =>
    cases hp : p a with
    | true =>
      have hmem : a ∈ as.filter p ↔ a ∈ as := by rw [List.mem_filter, and_iff_left hp]
      rw [List.filter_append, List.filter_singleton, hp, cond_true]
      simp only [eraseDups_concat, hmem, ← ih]
      split
      · rfl
      · simp [hp]
    | false =>
      rw [List.filter_append, List.filter_singleton, hp, cond_false, List.append_nil, ← ih,
        eraseDups_concat]
      split
      · rfl
      · simp [hp]

theorem eraseDups_eq_self {as : List α} (h : as.Nodup) : as.eraseDups = as := by
  induction as using List.reverseRecOn with
  | nil => rfl
  | append_singleton as a ih =>
    obtain ⟨has, _, hdisjoint⟩ := List.nodup_append.mp h
    have ha : a ∉ as := fun ha => hdisjoint a ha a (List.mem_singleton_self a) rfl
    rw [eraseDups_concat, if_neg ha, ih has]

theorem eraseDups_append_of_subset {as bs : List α} (h : bs ⊆ as) (cs : List α) :
    (as ++ (bs ++ cs)).eraseDups = (as ++ cs).eraseDups := by
  have hnone : (bs.filter fun b => !as.elem b) = [] := by
    rw [List.filter_eq_nil_iff]
    intro b hb
    simp [h hb]
  rw [List.eraseDups_append, List.eraseDups_append, List.removeAll, List.removeAll,
    List.filter_append, hnone, List.nil_append]

/-- Members that are listed by increasing places are kept in the order of their first places. -/
theorem pairwise_eraseDups {κ : Type} {before : κ → κ → Prop} {places : List (κ × α)}
    (h : places.Pairwise fun p q => before p.1 q.1) :
    (places.map Prod.snd).eraseDups.Pairwise fun a b =>
      ∃ i, (i, a) ∈ places ∧ ∀ j, (j, b) ∈ places → before i j := by
  induction places using List.reverseRecOn with
  | nil => exact .nil
  | append_singleton places p ih =>
    obtain ⟨hplaces, _, hlast⟩ := List.pairwise_append.mp h
    have hlater : ∀ q ∈ places, before q.1 p.1 :=
      fun q hq => hlast q hq p (List.mem_singleton_self p)
    -- A place behind all others changes no order among the members that were there.
    have hearlier : (places.map Prod.snd).eraseDups.Pairwise fun a b =>
        ∃ i, (i, a) ∈ places ++ [p] ∧ ∀ j, (j, b) ∈ places ++ [p] → before i j := by
      apply (ih hplaces).imp
      rintro a b ⟨i, hi, hfirst⟩
      refine ⟨i, List.mem_append_left _ hi, fun j hj => ?_⟩
      rcases List.mem_append.mp hj with hj | hj
      · exact hfirst j hj
      · rw [← List.mem_singleton.mp hj] at hlater
        exact hlater _ hi
    rw [List.map_append, List.map_singleton, eraseDups_concat]
    split
    · exact hearlier
    · rename_i hnew
      refine List.pairwise_append.mpr ⟨hearlier, List.pairwise_singleton _ _, ?_⟩
      intro a ha b hb
      obtain rfl := List.mem_singleton.mp hb
      obtain ⟨q, hq, rfl⟩ := List.mem_map.mp (List.mem_eraseDups.mp ha)
      refine ⟨q.1, List.mem_append_left _ hq, fun j hj => ?_⟩
      rcases List.mem_append.mp hj with hj | hj
      · exact absurd (List.mem_map_of_mem hj) hnew
      · rw [← List.mem_singleton.mp hj] at hlater
        exact hlater q hq

end ScriptBindings
