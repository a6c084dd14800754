import ScriptBindings.Blank
import ScriptBindings.Name.Identifier

namespace ScriptBindings.Identifier

/-- An identifier of the bound library: word characters, the first of them no digit. -/
def IsIdentifier (s : String) : Prop :=
  (s.toList.head?.any fun c => !c.isDigit) = true ∧ ∀ c ∈ s.toList, isWordChar c = true

-- Only the characters of the text are looked at, not all characters there are.
instance : DecidablePred IsIdentifier := fun s =>
  decidable_of_iff ((s.toList.head?.any fun c => !c.isDigit) && s.toList.all isWordChar)
    (by rw [Bool.and_eq_true, List.all_eq_true]; rfl)

theorem IsIdentifier.ne_empty {s : String} (h : IsIdentifier s) : s ≠ "" := by
  rintro rfl
  cases h.1

variable {c : Char}

theorem toNat_of_isUpper (h : c.isUpper = true) : 65 ≤ c.toNat ∧ c.toNat ≤ 90 :=
  of_decide_eq_true h

theorem toNat_of_isLower (h : c.isLower = true) : 97 ≤ c.toNat ∧ c.toNat ≤ 122 :=
  (Bool.and_eq_true_iff.mp h).imp of_decide_eq_true of_decide_eq_true

theorem toNat_of_isDigit (h : c.isDigit = true) : 48 ≤ c.toNat ∧ c.toNat ≤ 57 :=
  (Bool.and_eq_true_iff.mp h).imp of_decide_eq_true of_decide_eq_true

theorem toNat_of_isWordChar (h : isWordChar c = true) :
    (48 ≤ c.toNat ∧ c.toNat ≤ 57) ∨ (65 ≤ c.toNat ∧ c.toNat ≤ 122) := by
  rcases Bool.or_eq_true_iff.mp h with hletter | hunderscore
  · rcases Bool.or_eq_true_iff.mp hletter with halpha | hdigit
    · rcases Bool.or_eq_true_iff.mp halpha with hupper | hlower
      · have hrange := toNat_of_isUpper hupper
        omega
      · have hrange := toNat_of_isLower hlower
        omega
    · exact .inl (toNat_of_isDigit hdigit)
  · rw [beq_iff_eq.mp hunderscore]
    decide

theorem isBlank_of_isWordChar (h : isWordChar c = true) : Blank.isBlank c = false := by
  have hrange := toNat_of_isWordChar h
  simp only [Blank.isBlank, Bool.or_eq_false_iff, Bool.and_eq_false_iff, decide_eq_false_iff_not,
    beq_eq_false_iff_ne]
  omega

/-- A capital letter, and word characters behind it. -/
def IsCapitalised (s : String) : Prop :=
  s.toList.head?.any Char.isUpper = true ∧ ∀ c ∈ s.toList, isWordChar c = true

instance : DecidablePred IsCapitalised := fun s =>
  decidable_of_iff (s.toList.head?.any Char.isUpper && s.toList.all isWordChar)
    (by rw [Bool.and_eq_true, List.all_eq_true]; rfl)

variable {s : String}

theorem IsCapitalised.exists_cons (h : IsCapitalised s) :
    ∃ c cs, s.toList = c :: cs ∧ c.isUpper = true := by
  have hfirst := h.1
  cases hs : s.toList with
  | nil =>
    rw [hs] at hfirst
    cases hfirst
  | cons c cs =>
    rw [hs] at hfirst
    exact ⟨c, cs, rfl, hfirst⟩

theorem IsCapitalised.not_mem (h : IsCapitalised s) (hc : isWordChar c = false) :
    c ∉ s.toList := by
  intro hmem
  rw [h.2 c hmem] at hc
  cases hc

theorem toUpper_of_not_isLower (h : ¬ c.isLower = true) : c.toUpper = c :=
  dif_neg fun hlower => h (Bool.and_eq_true_iff.mpr (hlower.imp decide_eq_true decide_eq_true))

theorem toUpper_of_isUpper (h : c.isUpper = true) : c.toUpper = c := by
  apply toUpper_of_not_isLower
  intro hlower
  have hrange := toNat_of_isUpper h
  have hrange' := toNat_of_isLower hlower
  omega

theorem val_toUpper (h : c.isLower = true) : c.toUpper.val = c.val + ('A'.val - 'a'.val) := by
  have hlower : 'a'.val ≤ c.val ∧ c.val ≤ 'z'.val := toNat_of_isLower h
  delta Char.toUpper
  rw [dif_pos hlower]

theorem isUpper_toUpper (h : c.isLower = true) : c.toUpper.isUpper = true := by
  have hrange := toNat_of_isLower h
  refine decide_eq_true ?_
  change 65 ≤ c.toUpper.val.toNat ∧ c.toUpper.val.toNat ≤ 90
  rw [val_toUpper h, UInt32.toNat_add]
  -- The difference of the two letters is negative, and wraps around.
  change 65 ≤ (c.toNat + 4294967264) % 4294967296 ∧ (c.toNat + 4294967264) % 4294967296 ≤ 90
  omega

theorem isWordChar_toUpper (h : isWordChar c = true) : isWordChar c.toUpper = true := by
  by_cases hlower : c.isLower = true
  · have hletter : c.toUpper.isAlpha = true :=
      Bool.or_eq_true_iff.mpr (.inl (isUpper_toUpper hlower))
    exact Bool.or_eq_true_iff.mpr (.inl (Bool.or_eq_true_iff.mpr (.inl hletter)))
  · rw [toUpper_of_not_isLower hlower]
    exact h

theorem fragment_of_isCapitalised (h : IsCapitalised s) : fragment s = s := by
  obtain ⟨c, cs, hs, hc⟩ := h.exists_cons
  rw [fragment, clean, List.filter_eq_self.mpr h.2, hs, capitalize, toUpper_of_isUpper hc, ← hs,
    String.ofList_toList]

theorem isWordChar_of_mem_fragment {name : String} (h : c ∈ (fragment name).toList) :
    isWordChar c = true := by
  rw [fragment, String.toList_ofList, clean] at h
  have hkept : ∀ d ∈ name.toList.filter isWordChar, isWordChar d = true :=
    fun d hd => (List.mem_filter.mp hd).2
  cases hfilter : name.toList.filter isWordChar with
  | nil =>
    rw [hfilter] at h
    cases h
  | cons d ds =>
    rw [hfilter] at h hkept
    rcases List.mem_cons.mp h with rfl | hmem
    · exact isWordChar_toUpper (hkept d List.mem_cons_self)
    · exact hkept c (List.mem_cons_of_mem d hmem)

/-- Whatever the name, its fragment can follow a capitalised identifier. -/
theorem IsCapitalised.append_fragment (h : IsCapitalised s) (name : String) :
    IsCapitalised (s ++ fragment name) := by
  obtain ⟨c, cs, hs, hc⟩ := h.exists_cons
  constructor
  · rw [String.toList_append, hs]
    exact hc
  · intro d hd
    rw [String.toList_append] at hd
    rcases List.mem_append.mp hd with hd | hd
    · exact h.2 d hd
    · exact isWordChar_of_mem_fragment hd

section Append

variable {front back : List Char}

theorem length_capitalize (cs : List Char) : (capitalize cs).length = cs.length := by
  cases cs with
  | nil => rfl
  | cons c cs => rfl

theorem clean_append_of_no_words (h : ∀ c ∈ back, isWordChar c = false) (front : List Char) :
    clean (front ++ back) = clean front := by
  have hback : back.filter isWordChar = [] :=
    List.filter_eq_nil_iff.mpr fun c hc => Bool.eq_false_iff.mp (h c hc)
  rw [clean, List.filter_append, hback, List.append_nil, clean]

/-- A text in front of another adds its word characters, and so it changes what is left of the
other unless it has none. -/
theorem clean_append_eq_iff : clean (front ++ back) = clean back ↔ clean front = [] := by
  simp only [clean, List.filter_append]
  constructor
  · intro h
    have hlength := congrArg List.length h
    simp only [length_capitalize, List.length_append] at hlength
    rw [List.length_eq_zero_iff.mp (by omega : (front.filter isWordChar).length = 0)]
    rfl
  · intro h
    have hlength := congrArg List.length h
    rw [length_capitalize] at hlength
    rw [List.length_eq_zero_iff.mp hlength, List.nil_append]

end Append

end ScriptBindings.Identifier
