import Mathlib.Data.List.DropRight
import ScriptBindings.Blank

namespace ScriptBindings.Blank

/-- The text spells the words: blanks stand between them, and may stand around them. -/
inductive Spells : List (List Char) → List Char → Prop
  | nil {gap : List Char} (h : ∀ c ∈ gap, isBlank c = true) : Spells [] gap
  | cons {gap word rest : List Char} {ws : List (List Char)} (hgap : ∀ c ∈ gap, isBlank c = true)
      (hne : word ≠ []) (hword : ∀ c ∈ word, isBlank c = false)
      (hrest : ∀ c ∈ rest.head?, isBlank c = true) (h : Spells ws rest) :
      Spells (word :: ws) (gap ++ word ++ rest)

/-- A text without any character that is not blank. -/
def IsBlankText (s : String) : Prop := ∀ c ∈ s.toList, isBlank c = true

theorem isBlankText_eq_true {s : String} : isBlankText s = true ↔ IsBlankText s :=
  List.all_eq_true

variable {cs gap word rest : List Char} {ws : List (List Char)} {c : Char}

theorem words_ofList (cs : List Char) :
    words (String.ofList cs) = (cs.splitOnP isBlank).filter (· ≠ []) := by
  rw [words, String.toList_ofList]

theorem words_cons_blank (h : isBlank c = true) (cs : List Char) :
    words (String.ofList (c :: cs)) = words (String.ofList cs) := by
  rw [words_ofList, words_ofList, List.splitOnP_cons_eq_if_modifyHead, if_pos h]
  rfl

theorem words_gap (h : ∀ c ∈ gap, isBlank c = true) (cs : List Char) :
    words (String.ofList (gap ++ cs)) = words (String.ofList cs) := by
  induction gap with
  | nil => rfl
  | cons c gap ih =>
    rw [List.cons_append, words_cons_blank (h c List.mem_cons_self)]
    exact ih fun d hd => h d (List.mem_cons_of_mem c hd)

theorem words_word (hne : word ≠ []) (hword : ∀ c ∈ word, isBlank c = false)
    (hrest : ∀ c ∈ rest.head?, isBlank c = true) :
    words (String.ofList (word ++ rest)) = word :: words (String.ofList rest) := by
  cases rest with
  | nil =>
    rw [List.append_nil, words_ofList, List.splitOnP_eq_singleton hword]
    simp [hne, words]
  | cons c rest =>
    have hc : isBlank c = true := hrest c rfl
    rw [words_cons_blank hc, words_ofList,
      List.splitOnP_append_cons_of_forall_mem hword c hc, words_ofList]
    simp [hne]

theorem Spells.words_eq (h : Spells ws cs) : words (String.ofList cs) = ws := by
  induction h with
  | @nil gap h =>
    have hgap := words_gap h []
    rw [List.append_nil] at hgap
    exact hgap
  | cons hgap hne hword hrest _ ih =>
    rw [List.append_assoc, words_gap hgap, words_word hne hword hrest, ih]

theorem Spells.cons_blank (hc : isBlank c = true) (h : Spells ws cs) : Spells ws (c :: cs) := by
  cases h with
  | nil h => exact .nil (List.forall_mem_cons.mpr ⟨hc, h⟩)
  | cons hgap hne hword hrest h =>
    exact .cons (List.forall_mem_cons.mpr ⟨hc, hgap⟩) hne hword hrest h

theorem Spells.exists_cons (hc : isBlank c = false) (h : Spells ws cs) :
    ∃ vs, Spells vs (c :: cs) := by
  have hnone : ∀ d ∈ ([] : List Char), isBlank d = true := fun d hd => absurd hd List.not_mem_nil
  have hone : ∀ d ∈ [c], isBlank d = false := List.forall_mem_singleton.mpr hc
  cases h with
  | nil h =>
    exact ⟨_, .cons hnone (List.cons_ne_nil c []) hone
      (fun d hd => h d (List.mem_of_mem_head? hd)) (.nil h)⟩
  | @cons gap word rest ws hgap hne hword hrest h =>
    cases gap with
    | nil =>
      exact ⟨_, .cons hnone (List.cons_ne_nil c word) (List.forall_mem_cons.mpr ⟨hc, hword⟩) hrest
        h⟩
    | cons g gap =>
      refine ⟨_, .cons hnone (List.cons_ne_nil c []) hone ?_ (.cons hgap hne hword hrest h)⟩
      intro d hd
      cases hd
      exact hgap g List.mem_cons_self

theorem exists_spells (cs : List Char) : ∃ ws, Spells ws cs := by
  induction cs with
  | nil => exact ⟨[], .nil fun c hc => absurd hc List.not_mem_nil⟩
  | cons c cs ih =>
    obtain ⟨ws, h⟩ := ih
    cases hc : isBlank c with
    | true => exact ⟨ws, h.cons_blank hc⟩
    | false => exact h.exists_cons hc

theorem words_eq_iff {s : String} : words s = ws ↔ Spells ws s.toList := by
  constructor
  · rintro rfl
    obtain ⟨ws, h⟩ := exists_spells s.toList
    have hwords := h.words_eq
    rw [String.ofList_toList] at hwords
    rwa [hwords]
  · intro h
    have hwords := h.words_eq
    rwa [String.ofList_toList] at hwords

theorem spells_singleton (hne : word ≠ []) (hword : ∀ c ∈ word, isBlank c = false) :
    Spells [word] word := by
  have hnone : ∀ c ∈ ([] : List Char), isBlank c = true := fun c hc => absurd hc List.not_mem_nil
  have hend : ∀ c ∈ ([] : List Char).head?, isBlank c = true := fun c hc => nomatch hc
  have h := Spells.cons hnone hne hword hend (.nil hnone)
  rwa [List.nil_append, List.append_nil] at h

theorem trim_of_no_blanks (h : ∀ c ∈ cs, isBlank c = false) :
    trim (String.ofList cs) = String.ofList cs := by
  have hnot : ∀ c ∈ cs, ¬ isBlank c = true := fun c hc => Bool.eq_false_iff.mp (h c hc)
  have hfront : cs.dropWhile isBlank = cs := by
    cases cs with
    | nil => rfl
    | cons c cs => exact List.dropWhile_cons_of_neg (hnot c List.mem_cons_self)
  have hback : dropTail isBlank cs = cs :=
    List.rdropWhile_eq_self_iff.mpr fun hne => hnot _ (List.getLast_mem hne)
  rw [trim, String.toList_ofList, hfront, hback]

end ScriptBindings.Blank
