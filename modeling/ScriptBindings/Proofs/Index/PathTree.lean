import ScriptBindings.Index.PathTree

namespace ScriptBindings.PathTree

theorem find?_setChild_self (s : String) (c : PathTree) (cs : List (String × PathTree)) :
    ((setChild s c cs).find? fun e => e.1 == s) = some (s, c) := by
  induction cs with
  | nil => simp [setChild]
  | cons e cs ih =>
    by_cases hlt : s < e.1
    · simp [setChild, hlt]
    · by_cases he : s = e.1
      · subst he
        simp [setChild]
      · simp [setChild, hlt, he, Ne.symm he, ih]

theorem find?_setChild_of_ne {r s : String} (h : r ≠ s) (c : PathTree)
    (cs : List (String × PathTree)) :
    ((setChild s c cs).find? fun e => e.1 == r) = cs.find? fun e => e.1 == r := by
  induction cs with
  | nil => simp [setChild, h.symm]
  | cons e cs ih =>
    by_cases hlt : s < e.1
    · simp [setChild, hlt, h.symm]
    · by_cases he : s = e.1
      · subst he
        simp [setChild, h.symm]
      · simp only [setChild, hlt, he, if_false, List.find?_cons, ih]

@[simp] theorem child?_setChild_self (s : String) (c t : PathTree) :
    (node (setChild s c t.children)).child? s = some c := by
  simp [child?, children, find?_setChild_self]

theorem child?_setChild_of_ne {r s : String} (h : r ≠ s) (c t : PathTree) :
    (node (setChild s c t.children)).child? r = t.child? r := by
  simp [child?, children, find?_setChild_of_ne h]

@[simp] theorem contains_nil (t : PathTree) : t.contains [] = true := rfl

theorem contains_empty {q : List String} : empty.contains q = true ↔ q = [] := by
  cases q with
  | nil => simp
  | cons s q => simp [contains, child?, children, empty]

theorem contains_cons {s : String} {q : List String} {t : PathTree} :
    t.contains (s :: q) = true ↔ ∃ c, t.child? s = some c ∧ c.contains q = true := by
  cases h : t.child? s with
  | none => simp [contains, h]
  | some c => simp [contains, h]

theorem contains_of_prefix {q r : List String} {t : PathTree} (h : t.contains q = true)
    (hr : r <+: q) : t.contains r = true := by
  induction q generalizing r t with
  | nil =>
    rw [List.prefix_nil.mp hr]
    rfl
  | cons s q ih =>
    obtain ⟨c, hc, hq⟩ := contains_cons.mp h
    rcases List.prefix_cons_iff.mp hr with rfl | ⟨r', rfl, hr'⟩
    · rfl
    · exact contains_cons.mpr ⟨c, hc, ih hq hr'⟩

/-- Adding a path adds it with its prefixes, and nothing else. -/
theorem contains_insert {p q : List String} {t : PathTree} :
    (t.insert p).2.contains q = true ↔ t.contains q = true ∨ q <+: p := by
  induction p generalizing q t with
  | nil =>
    rw [List.prefix_nil]
    refine ⟨.inl, fun h => h.elim id ?_⟩
    rintro rfl
    rfl
  | cons s p ih =>
    cases q with
    | nil => simp
    | cons r q =>
      rw [List.cons_prefix_cons, contains_cons, contains_cons]
      by_cases hr : r = s
      · subst hr
        simp only [insert, child?_setChild_self, Option.some.injEq, exists_eq_left', ih, true_and]
        cases t.child? r with
        | some c => simp
        | none =>
          simp only [Option.getD_none, contains_empty, reduceCtorEq, false_and, exists_false,
            false_or, or_iff_right_iff_imp]
          rintro rfl
          exact List.nil_prefix
      · simp [insert, child?_setChild_of_ne hr, hr]

theorem insert_fst_eq_true {p : List String} {t : PathTree} :
    (t.insert p).1 = true ↔ p ≠ [] ∧ t.contains p = false := by
  induction p generalizing t with
  | nil => simp [insert]
  | cons s p ih =>
    by_cases hp : p = []
    · subst hp
      cases h : t.child? s with
      | none => simp [insert, contains, h]
      | some c => simp [insert, contains, h]
    · simp only [insert, hp, if_false, ih, ne_eq, not_false_eq_true, reduceCtorEq, true_and]
      cases h : t.child? s with
      | some c => simp [contains, h]
      | none =>
        have hn : empty.contains p = false := by
          rw [Bool.eq_false_iff, ne_eq, contains_empty]
          exact hp
        simp [contains, h, hn]

end ScriptBindings.PathTree
