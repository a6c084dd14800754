import Mathlib.Data.List.Sort
import Mathlib.Data.String.Basic
import ScriptBindings.SortedSet

namespace ScriptBindings.SortedSet

theorem mem_insert {s t : String} {ts : List String} : t ∈ insert s ts ↔ t = s ∨ t ∈ ts := by
  induction ts with
  | nil => simp [insert]
  | cons u ts ih =>
    by_cases hlt : s < u
    · simp [insert, hlt]
    · by_cases he : s = u
      · simp [insert, he]
      · simp only [insert, hlt, he, if_false, List.mem_cons, ih]
        exact or_left_comm

theorem pairwise_insert {s : String} {ts : List String} (h : ts.Pairwise (· < ·)) :
    (insert s ts).Pairwise (· < ·) := by
  induction ts with
  | nil => simp [insert]
  | cons u ts ih =>
    rw [List.pairwise_cons] at h
    rcases lt_trichotomy s u with hlt | rfl | hgt
    · simp only [insert, hlt, if_true, List.pairwise_cons]
      refine ⟨fun t ht => ?_, h⟩
      rcases List.mem_cons.mp ht with rfl | ht
      · exact hlt
      · exact hlt.trans (h.1 t ht)
    · simp only [insert, lt_irrefl, if_false, if_true, List.pairwise_cons]
      exact h
    · simp only [insert, hgt.not_gt, hgt.ne', if_false, List.pairwise_cons]
      refine ⟨fun t ht => ?_, ih h.2⟩
      rcases mem_insert.mp ht with rfl | ht
      · exact hgt
      · exact h.1 t ht

theorem mem_ofList {t : String} {ts : List String} : t ∈ ofList ts ↔ t ∈ ts := by
  induction ts with
  | nil => rfl
  | cons s ts ih =>
    change t ∈ insert s (ofList ts) ↔ _
    rw [mem_insert, ih, List.mem_cons]

theorem pairwise_ofList (ts : List String) : (ofList ts).Pairwise (· < ·) := by
  induction ts with
  | nil => exact List.Pairwise.nil
  | cons s ts ih => exact pairwise_insert ih

theorem nodup_ofList (ts : List String) : (ofList ts).Nodup :=
  (pairwise_ofList ts).imp fun h => h.ne

theorem ofList_concat (ts : List String) (s : String) :
    ofList (ts ++ [s]) = insert s (ofList ts) := by
  apply List.Pairwise.eq_of_mem_iff (pairwise_ofList _) (pairwise_insert (pairwise_ofList ts))
  intro t
  rw [mem_ofList, mem_insert, mem_ofList, List.mem_append, List.mem_singleton, or_comm]

end ScriptBindings.SortedSet
