import ScriptBindings.Files.Tree

namespace ScriptBindings

namespace Path

/-- A name that stands for itself as a component of a path. -/
def IsName (s : String) : Prop := s ≠ "" ∧ s ≠ "." ∧ s ≠ ".." ∧ '/' ∉ s.toList

instance : DecidablePred IsName := fun s =>
  inferInstanceAs (Decidable (s ≠ "" ∧ s ≠ "." ∧ s ≠ ".." ∧ '/' ∉ s.toList))

theorem components_empty : components "" = [] := rfl

theorem components_append_slash (base rest : String) :
    components (base ++ "/" ++ rest) = components base ++ components rest := by
  have hslash : (base ++ "/" ++ rest).toList = base.toList ++ '/' :: rest.toList := by
    rw [String.toList_append, String.toList_append, List.append_assoc]
    rfl
  unfold components
  rw [hslash, List.splitOn_append_cons_self, List.filter_append, List.map_append]

theorem eq_append_slash {base : String} (h : needsSeparator base = false) (hne : base ≠ "") :
    ∃ front, base = front ++ "/" := by
  have hlist : base.toList ≠ [] := fun he => hne (String.toList_eq_nil_iff.mp he)
  have hlast : base.toList.getLast? = some '/' := by
    rw [needsSeparator, List.getLast?_eq_some_getLast hlist] at h
    rw [List.getLast?_eq_some_getLast hlist]
    simpa using h
  obtain ⟨front, hfront⟩ := List.getLast?_eq_some_iff.mp hlast
  refine ⟨String.ofList front, String.toList_inj.mp ?_⟩
  rw [String.toList_append, String.toList_ofList, hfront]
  rfl

theorem components_join {rest : String} (h : isAbsolute rest = false) (base : String) :
    components (join base rest) = components base ++ components rest := by
  unfold join
  rw [h, if_neg Bool.false_ne_true]
  split
  · exact components_append_slash base rest
  · rename_i hsep
    by_cases hne : base = ""
    · rw [hne, String.empty_append]
      rfl
    · obtain ⟨front, rfl⟩ := eq_append_slash (Bool.eq_false_iff.mpr hsep) hne
      have hfront := components_append_slash front ""
      rw [String.append_empty, components_empty, List.append_nil] at hfront
      rw [components_append_slash, hfront]

theorem isAbsolute_append {base : String} (h : base ≠ "") (rest : String) :
    isAbsolute (base ++ rest) = isAbsolute base := by
  unfold isAbsolute
  rw [String.toList_append]
  cases hbase : base.toList with
  | nil => exact absurd (String.toList_eq_nil_iff.mp hbase) h
  | cons c cs => rfl

theorem isAbsolute_append_of_not_mem {s ending : String} (hs : isAbsolute s = false)
    (he : '/' ∉ ending.toList) : isAbsolute (s ++ ending) = false := by
  by_cases hne : s = ""
  · rw [hne, String.empty_append]
    exact beq_eq_false_iff_ne.mpr fun h => he (List.mem_of_mem_head? h)
  · rw [isAbsolute_append hne, hs]

theorem isAbsolute_join {rest : String} (h : isAbsolute rest = false) (base : String) :
    isAbsolute (join base rest) = isAbsolute base := by
  unfold join
  rw [h, if_neg Bool.false_ne_true]
  by_cases hne : base = ""
  · have hsep : needsSeparator "" = false := rfl
    rw [hne, hsep, if_neg Bool.false_ne_true, String.empty_append, h]
    rfl
  · split
    · rw [String.append_assoc, isAbsolute_append hne]
    · exact isAbsolute_append hne rest

theorem needsSeparator_append {rest : String} (h : rest ≠ "") (base : String) :
    needsSeparator (base ++ rest) = needsSeparator rest := by
  have hne : rest.toList ≠ [] := fun he => h (String.toList_eq_nil_iff.mp he)
  rw [needsSeparator, needsSeparator, String.toList_append, List.getLast?_append,
    List.getLast?_eq_some_getLast hne]
  rfl

/-- What stands between a base and what is joined to it. -/
def separator (base : String) : String := if needsSeparator base then "/" else ""

theorem join_of_relative {rest : String} (h : isAbsolute rest = false) (base : String) :
    join base rest = base ++ separator base ++ rest := by
  unfold join separator
  rw [h, if_neg Bool.false_ne_true]
  split
  · rfl
  · rw [String.append_empty]

theorem separator_append_separator (base : String) : separator (base ++ separator base) = "" := by
  have hneeds : needsSeparator (base ++ separator base) = false := by
    unfold separator
    by_cases h : needsSeparator base
    · rw [if_pos h]
      exact needsSeparator_append (by decide) base
    · rw [if_neg h, String.append_empty]
      exact Bool.eq_false_iff.mpr h
  rw [separator, hneeds, if_neg Bool.false_ne_true]

/-- The parts of a path can be joined from the left or from the right. -/
theorem join_join {middle rest : String} (hm : isAbsolute middle = false)
    (hr : isAbsolute rest = false) (base : String) :
    join (join base middle) rest = join base (join middle rest) := by
  have hjoin : isAbsolute (join middle rest) = false := (isAbsolute_join hr middle).trans hm
  rw [join_of_relative hr, join_of_relative hm, join_of_relative hjoin, join_of_relative hr]
  by_cases hne : middle = ""
  · have hempty : separator "" = "" := rfl
    rw [hne, String.append_empty, separator_append_separator, hempty, String.append_empty,
      String.append_empty, String.empty_append]
  · have hseparator : separator (base ++ separator base ++ middle) = separator middle := by
      rw [separator, needsSeparator_append hne, separator]
    rw [hseparator]
    simp only [String.append_assoc]

theorem IsName.isAbsolute {s : String} (h : IsName s) : isAbsolute s = false := by
  have hhead : s.toList.head? ≠ some '/' := fun he => h.2.2.2 (List.mem_of_mem_head? he)
  exact beq_eq_false_iff_ne.mpr hhead

theorem IsName.components {s : String} (h : IsName s) : components s = [s] := by
  obtain ⟨hempty, hdot, _, hslash⟩ := h
  have hidle : isIdle s.toList = false := by
    have hnil : s.toList ≠ [] := fun he => hempty (String.toList_eq_nil_iff.mp he)
    have hpoint : s.toList ≠ ['.'] := fun he => hdot (String.toList_inj.mp he)
    simp [isIdle, hnil, hpoint]
  unfold Path.components
  rw [List.splitOn_eq_singleton hslash]
  simp [hidle]

theorem below_eq_some {base l names : List String} :
    below base l = some names ↔ l = base ++ names := by
  unfold below
  by_cases h : base <+: l
  · obtain ⟨rest, rfl⟩ := h
    simp
  · have hne : l ≠ base ++ names := fun he => h (he ▸ List.prefix_append base names)
    simp [List.isPrefixOf_iff_prefix, h, hne]

theorem head?_splitOn_join {s : String} (hs : '/' ∉ s.toList) {base : String} (hne : base ≠ "") :
    ((join base s).toList.splitOn '/').head? = (base.toList.splitOn '/').head? := by
  have habsolute : isAbsolute s = false :=
    beq_eq_false_iff_ne.mpr fun he => hs (List.mem_of_mem_head? he)
  have hfront (front rest : List Char) :
      ((front ++ '/' :: rest).splitOn '/').head? = (front.splitOn '/').head? := by
    obtain ⟨piece, pieces, hcut⟩ := List.exists_cons_of_ne_nil (List.splitOn_ne_nil '/' front)
    rw [List.splitOn_append_cons_self, hcut]
    rfl
  unfold join
  rw [habsolute, if_neg Bool.false_ne_true]
  split
  · rw [String.toList_append, String.toList_append, List.append_assoc]
    exact hfront base.toList s.toList
  · rename_i hsep
    obtain ⟨front, rfl⟩ := eq_append_slash (Bool.eq_false_iff.mpr hsep) hne
    rw [String.toList_append, String.toList_append, List.append_assoc]
    exact (hfront front.toList s.toList).trans (hfront front.toList []).symm

/-- A name that is joined to a path is the last of its parts. -/
theorem parts_join {s : String} (h : IsName s) (base : String) :
    parts (join base s) = parts base ++ [s] := by
  have hname : parts s = [s] := by
    unfold parts
    rw [h.isAbsolute, if_neg Bool.false_ne_true, List.splitOn_eq_singleton h.2.2.2, if_neg,
      h.components]
    intro hdot
    exact h.2.1 (String.toList_inj.mp (Option.some.inj hdot))
  by_cases hne : base = ""
  · subst hne
    have hjoin : join "" s = s := by
      rw [join_of_relative h.isAbsolute]
      exact String.empty_append
    rw [hjoin, hname]
    rfl
  · unfold parts
    rw [isAbsolute_join h.isAbsolute, head?_splitOn_join h.2.2.2 hne,
      components_join h.isAbsolute, h.components]
    split
    · rfl
    · split
      · rfl
      · rfl

theorem isName_append {s ending : String} (hs : '/' ∉ s.toList) (he : '/' ∉ ending.toList)
    (hlength : 3 ≤ ending.length) : IsName (s ++ ending) := by
  have hne (word : String) (hword : word.length < 3) : s ++ ending ≠ word := by
    intro h
    have hsum := congrArg String.length h
    rw [String.length_append] at hsum
    omega
  refine ⟨hne "" (by decide), hne "." (by decide), hne ".." (by decide), ?_⟩
  rw [String.toList_append, List.mem_append, not_or]
  exact ⟨hs, he⟩

theorem components_append_ne_nil {ending : String} (he : '/' ∉ ending.toList)
    (hlength : 3 ≤ ending.length) (s : String) : components (s ++ ending) ≠ [] := by
  have hname {front : String} (hfront : '/' ∉ front.toList) :
      components (front ++ ending) = [front ++ ending] :=
    (isName_append hfront he hlength).components
  by_cases hs : '/' ∈ s.toList
  · obtain ⟨front, back, hcut, hback⟩ := List.eq_append_cons_of_mem (List.mem_reverse.mpr hs)
    have htext : s = String.ofList back.reverse ++ "/" ++ String.ofList front.reverse := by
      have hlist := congrArg List.reverse hcut
      rw [List.reverse_reverse, List.reverse_append, List.reverse_cons] at hlist
      apply String.toList_inj.mp
      simpa using hlist
    have hfront : '/' ∉ (String.ofList front.reverse).toList := by simpa using hback
    rw [htext, String.append_assoc, components_append_slash, hname hfront]
    exact List.append_ne_nil_of_right_ne_nil _ (List.cons_ne_nil _ _)
  · rw [hname hs]
    exact List.cons_ne_nil _ _

theorem isValid_of_append {base rest : String} (h : isValid (base ++ rest)) : isValid base := by
  unfold isValid at h ⊢
  simp only [Bool.and_eq_true, decide_eq_true_eq, Bool.not_eq_true', List.contains_eq_mem,
    decide_eq_false_iff_not, String.utf8ByteSize_append, String.toList_append, List.mem_append,
    not_or] at h ⊢
  exact ⟨Nat.lt_of_le_of_lt (Nat.le_add_right _ _) h.1, h.2.1⟩

variable {names : List String}

theorem isAbsolute_foldl_join (h : ∀ s ∈ names, isAbsolute s = false) (base : String) :
    isAbsolute (names.foldl join base) = isAbsolute base := by
  induction names generalizing base with
  | nil => rfl
  | cons s names ih =>
    rw [List.foldl_cons, ih fun t ht => h t (List.mem_cons_of_mem s ht),
      isAbsolute_join (h s List.mem_cons_self)]

theorem join_foldl_join {first : String} (hfirst : isAbsolute first = false)
    (h : ∀ s ∈ names, isAbsolute s = false) (base : String) :
    join base (names.foldl join first) = names.foldl join (join base first) := by
  induction names generalizing first with
  | nil => rfl
  | cons s names ih =>
    have hs := h s List.mem_cons_self
    rw [List.foldl_cons, List.foldl_cons, join_join hfirst hs]
    exact ih ((isAbsolute_join hs first).trans hfirst) fun t ht => h t (List.mem_cons_of_mem s ht)

theorem components_foldl_join (h : ∀ s ∈ names, IsName s) (base : String) :
    components (names.foldl join base) = components base ++ names := by
  induction names generalizing base with
  | nil => exact (List.append_nil _).symm
  | cons s names ih =>
    have hs := h s List.mem_cons_self
    rw [List.foldl_cons, ih fun t ht => h t (List.mem_cons_of_mem s ht),
      components_join hs.isAbsolute, hs.components, List.append_assoc]
    rfl

theorem afterLastDot_of_not_mem {cs : List Char} (h : '.' ∉ cs) : afterLastDot cs = none := by
  induction cs with
  | nil => rfl
  | cons c cs ih =>
    rw [List.mem_cons, not_or] at h
    rw [afterLastDot, ih h.2, if_neg (Ne.symm h.1)]
    rfl

theorem afterLastDot_append {ending : List Char} (h : '.' ∉ ending) (front : List Char) :
    afterLastDot (front ++ '.' :: ending) = some ending := by
  induction front with
  | nil =>
    rw [List.nil_append, afterLastDot, afterLastDot_of_not_mem h]
    rfl
  | cons c front ih =>
    rw [List.cons_append, afterLastDot, ih]
    rfl

theorem extension?_append {s : String} (hs : s ≠ "") {ending : String}
    (h : '.' ∉ ending.toList) : extension? (s ++ "." ++ ending) = some ending := by
  have hlist : (s ++ "." ++ ending).toList = s.toList ++ '.' :: ending.toList := by
    rw [String.toList_append, String.toList_append, List.append_assoc]
    rfl
  rw [extension?, hlist]
  cases hchars : s.toList with
  | nil => exact absurd (String.toList_eq_nil_iff.mp hchars) hs
  | cons c cs =>
    rw [List.cons_append]
    simp only [afterLastDot_append h, Option.map_some, String.ofList_toList]

theorem eq_append_of_afterLastDot {cs ending : List Char} (h : afterLastDot cs = some ending) :
    ∃ front, cs = front ++ '.' :: ending := by
  induction cs with
  | nil => cases h
  | cons c cs ih =>
    rw [afterLastDot] at h
    cases hlater : afterLastDot cs with
    | some later =>
      rw [hlater, Option.some_or] at h
      obtain ⟨front, hfront⟩ := ih (hlater.trans h)
      exact ⟨c :: front, by rw [hfront, List.cons_append]⟩
    | none =>
      rw [hlater, Option.none_or] at h
      split at h
      · rename_i hdot
        cases h
        exact ⟨[], by rw [hdot, List.nil_append]⟩
      · cases h

theorem extension?_eq_some_iff {name ending : String} (he : '.' ∉ ending.toList) :
    extension? name = some ending ↔ ∃ stem ≠ "", name = stem ++ "." ++ ending := by
  constructor
  · intro h
    rw [extension?] at h
    split at h
    · cases h
    · rename_i c cs hname
      obtain ⟨chars, hlast, hchars⟩ := Option.map_eq_some_iff.mp h
      obtain ⟨front, hfront⟩ := eq_append_of_afterLastDot hlast
      refine ⟨String.ofList (c :: front), ?_, String.toList_inj.mp ?_⟩
      · intro hempty
        exact List.cons_ne_nil c front (String.ofList_eq_empty_iff.mp hempty)
      · rw [hname, hfront, ← hchars]
        simp
  · rintro ⟨stem, hstem, rfl⟩
    exact extension?_append hstem he

/-- Joined with slashes, names without slashes are still told apart. -/
theorem intercalate_injective {names names' : List String} (hne : names ≠ []) (hne' : names' ≠ [])
    (hn : ∀ s ∈ names, '/' ∉ s.toList) (hn' : ∀ s ∈ names', '/' ∉ s.toList)
    (h : "/".intercalate names = "/".intercalate names') : names = names' := by
  have hsplit {names : List String} (hne : names ≠ []) (hn : ∀ s ∈ names, '/' ∉ s.toList) :
      ("/".intercalate names).toList.splitOn '/' = names.map String.toList := by
    rw [String.toList_intercalate]
    refine List.splitOn_intercalate '/' ?_ (by simpa using hne)
    intro l hl
    obtain ⟨s, hs, rfl⟩ := List.mem_map.mp hl
    exact hn s hs
  have hlists := hsplit hne hn
  rw [h, hsplit hne' hn'] at hlists
  exact (List.map_inj_right fun s s' => String.toList_inj.mp).mp hlists.symm

end Path

theorem Location.foldl_step {names : List String} (h : ".." ∉ names) (l : Location) :
    names.foldl step l = l ++ names := by
  induction names generalizing l with
  | nil => exact (List.append_nil l).symm
  | cons s names ih =>
    rw [List.mem_cons, not_or] at h
    rw [List.foldl_cons, step, if_neg (Ne.symm h.1), ih h.2, List.append_assoc]
    rfl

theorem FileTree.locate_join {rest : String} (h : Path.isAbsolute rest = false) (t : FileTree)
    (base : String) :
    t.locate (Path.join base rest) =
      (Path.components rest).foldl Location.step (t.locate base) := by
  unfold locate start
  rw [Path.components_join h, Path.isAbsolute_join h, List.foldl_append]

end ScriptBindings
