import ScriptBindings.Proofs.FirstOccurrence
import ScriptBindings.Proofs.Index.TableOrder

namespace ScriptBindings.TableOrder

variable {tables scan ps : List (List String)} {p q t : List String} {d : Nat}

/-- The paths of one length, in their order. -/
def atDepth (d : Nat) (tables : List (List String)) : List (List String) :=
  tables.filter fun t => t.length = d

theorem mem_atDepth : t ∈ atDepth d tables ↔ t ∈ tables ∧ t.length = d := by
  rw [atDepth, List.mem_filter, decide_eq_true_eq]

theorem atDepth_cons (t : List String) (ts : List (List String)) :
    atDepth d (t :: ts) = if t.length = d then t :: atDepth d ts else atDepth d ts := by
  rw [atDepth, List.filter_cons]
  simp only [decide_eq_true_eq]
  rfl

theorem mem_iff_of_atDepth_eq {as bs : List (List String)} (h : ∀ d, atDepth d as = atDepth d bs) :
    t ∈ as ↔ t ∈ bs := by
  have hblock : t ∈ atDepth t.length as ↔ t ∈ atDepth t.length bs := by rw [h]
  simpa only [mem_atDepth, and_true] using hblock

/-- The paths of `tables` by increasing length, equally long ones in the order of `tables`. -/
structure IsScan (tables scan : List (List String)) : Prop where
  sorted : scan.Pairwise fun s t => s.length ≤ t.length
  atDepth_eq : ∀ d, atDepth d scan = atDepth d tables

theorem isScan_byDepth (tables : List (List String)) : IsScan tables (byDepth tables) where
  sorted := sorted_byDepth tables
  atDepth_eq d := by
    have hequal : (atDepth d tables).Pairwise fun s t => decide (s.length ≤ t.length) = true := by
      apply List.pairwise_of_forall_mem_list
      intro s hs t ht
      exact decide_eq_true (Nat.le_of_eq ((mem_atDepth.mp hs).2.trans (mem_atDepth.mp ht).2.symm))
    -- A stable sort keeps the order of paths that are in order already.
    have hkept : (atDepth d tables).Sublist (byDepth tables) :=
      List.sublist_mergeSort shorter_trans shorter_total hequal List.filter_sublist
    have hblock : (atDepth d tables).Sublist (atDepth d (byDepth tables)) := by
      have hfilter := hkept.filter fun t => t.length = d
      simpa only [atDepth, List.filter_filter, Bool.and_self] using hfilter
    have hperm : (atDepth d (byDepth tables)).Perm (atDepth d tables) :=
      (List.mergeSort_perm tables _).filter _
    exact (hblock.eq_of_length hperm.length_eq.symm).symm

/-- A list that is sorted by length is determined by its paths of each length. -/
theorem eq_of_atDepth_eq {as bs : List (List String)}
    (ha : as.Pairwise fun s t => s.length ≤ t.length)
    (hb : bs.Pairwise fun s t => s.length ≤ t.length)
    (h : ∀ d, atDepth d as = atDepth d bs) : as = bs := by
  induction as generalizing bs with
  | nil =>
    symm
    apply List.eq_nil_iff_forall_not_mem.mpr
    intro t ht
    exact List.not_mem_nil ((mem_iff_of_atDepth_eq h).mpr ht)
  | cons a as ih =>
    cases bs with
    | nil => exact absurd ((mem_iff_of_atDepth_eq h).mp List.mem_cons_self) List.not_mem_nil
    | cons b bs =>
      obtain ⟨hleast, has⟩ := List.pairwise_cons.mp ha
      obtain ⟨hleast', hbs⟩ := List.pairwise_cons.mp hb
      -- Both heads are of the least length, so both are the first path of that length.
      have hab : a.length ≤ b.length := by
        rcases List.mem_cons.mp ((mem_iff_of_atDepth_eq h).mpr List.mem_cons_self) with he | hb
        · exact Nat.le_of_eq (congrArg List.length he.symm)
        · exact hleast b hb
      have hba : b.length ≤ a.length := by
        rcases List.mem_cons.mp ((mem_iff_of_atDepth_eq h).mp List.mem_cons_self) with he | ha
        · exact Nat.le_of_eq (congrArg List.length he.symm)
        · exact hleast' a ha
      have hhead := h b.length
      rw [atDepth_cons, atDepth_cons, if_pos (Nat.le_antisymm hab hba), if_pos rfl] at hhead
      obtain ⟨rfl, _⟩ := List.cons.inj hhead
      rw [ih has hbs]
      intro d
      have hd := h d
      rw [atDepth_cons, atDepth_cons] at hd
      split at hd
      · exact (List.cons.inj hd).2
      · exact hd

theorem mem_ancestors : q ∈ ancestors t ↔ q ≠ [] ∧ q <+: t ∧ q ≠ t := by
  rw [ancestors, List.mem_map]
  constructor
  · rintro ⟨k, hk, rfl⟩
    have hk := List.mem_range'_1.mp hk
    have hlength : (t.take k).length = k := List.length_take_of_le (by omega)
    refine ⟨?_, List.take_prefix k t, ?_⟩
    · apply List.ne_nil_of_length_pos
      omega
    · intro h
      have ht := congrArg List.length h
      omega
  · rintro ⟨hne, hpre, hproper⟩
    have hpos := List.length_pos_of_ne_nil hne
    have hlt : q.length < t.length := by
      apply Nat.lt_of_le_of_ne hpre.length_le
      intro h
      exact hproper (hpre.eq_of_length h)
    exact ⟨q.length, List.mem_range'_1.mpr (by omega), (List.prefix_iff_eq_take.mp hpre).symm⟩

/-- Each path stands behind its nonempty prefixes. -/
inductive Ordered : List (List String) → Prop
  | nil : Ordered []
  | concat {ps : List (List String)} {p : List String} (h : Ordered ps)
      (hp : ∀ q, q <+: p → q = [] ∨ q = p ∨ q ∈ ps) : Ordered (ps ++ [p])

namespace Ordered

theorem mem_of_prefix (h : Ordered ps) (hp : p ∈ ps) (hq : q <+: p) (hne : q ≠ []) : q ∈ ps := by
  induction h with
  | nil => cases hp
  | @concat ps r h hr ih =>
    rw [List.mem_append, List.mem_singleton] at hp ⊢
    rcases hp with hp | rfl
    · exact .inl (ih hp)
    · rcases hr q hq with h | h | h
      · exact absurd h hne
      · exact .inr h
      · exact .inl h

theorem takes (h : Ordered ps) (t : List String) (n : Nat) :
    Ordered (ps ++ (List.range' 1 n).map t.take) := by
  induction n with
  | zero => simpa using h
  | succ n ih =>
    rw [List.range'_1_concat, List.map_append, ← List.append_assoc]
    apply ih.concat
    intro q hq
    have htake : q = t.take q.length :=
      List.prefix_iff_eq_take.mp (hq.trans (List.take_prefix _ t))
    have hlength : q.length ≤ 1 + n := Nat.le_trans hq.length_le (List.length_take_le _ t)
    rcases Nat.eq_zero_or_pos q.length with hzero | hpos
    · exact .inl (List.eq_nil_of_length_eq_zero hzero)
    rcases Nat.eq_or_lt_of_le hlength with hlast | hlt
    · exact .inr (.inl (hlast ▸ htake))
    · refine .inr (.inr (List.mem_append_right ps (List.mem_map.mpr ⟨q.length, ?_, htake.symm⟩)))
      exact List.mem_range'_1.mpr (by omega)

theorem withAncestors (h : Ordered ps) (t : List String) :
    Ordered (ps ++ withAncestors t) := by
  rw [TableOrder.withAncestors, ← List.append_assoc]
  apply (h.takes t _).concat
  intro q hq
  by_cases hne : q = []
  · exact .inl hne
  by_cases hproper : q = t
  · exact .inr (.inl hproper)
  · exact .inr (.inr (List.mem_append_right ps (mem_ancestors.mpr ⟨hne, hq, hproper⟩)))

theorem flatMap (scan : List (List String)) : Ordered (scan.flatMap TableOrder.withAncestors) := by
  induction scan using List.reverseRecOn with
  | nil => exact nil
  | append_singleton scan t ih =>
    rw [List.flatMap_append, List.flatMap_singleton]
    exact ih.withAncestors t

theorem tables_declareAll (h : Ordered ps) :
    (Declared.declareAll {} ps).tables = (ps.filter (· ≠ [])).eraseDups := by
  induction h with
  | nil => rfl
  | @concat ps p h hp ih =>
    rw [Declared.declareAll_append, List.filter_append]
    change ((Declared.declareAll {} ps).declare p).tables = _
    by_cases hne : p = []
    · subst hne
      rw [Declared.tables_declare_of_old rfl, ih]
      simp
    have hcontains : (Declared.declareAll {} ps).tree.contains p = true ↔ p ∈ ps := by
      rw [Declared.contains_declareAll]
      constructor
      · rintro (hempty | ⟨r, hr, hpr⟩)
        · exact absurd (PathTree.contains_empty.mp hempty) hne
        · exact h.mem_of_prefix hr hpr hne
      · intro hmem
        exact .inr ⟨p, hmem, List.prefix_refl p⟩
    have hfilter : [p].filter (· ≠ []) = [p] := by simp [hne]
    have hmem : p ∈ ps.filter (· ≠ []) ↔ p ∈ ps := by simp [hne]
    rw [hfilter, eraseDups_concat]
    simp only [hmem]
    by_cases hold : p ∈ ps
    · rw [Declared.tables_declare_of_old (hcontains.mpr hold), if_pos hold, ih]
    · rw [Declared.tables_declare_of_new hne (Bool.eq_false_iff.mpr (mt hcontains.mp hold)),
        if_neg hold, ih]

end Ordered

theorem atDepth_append (as bs : List (List String)) :
    atDepth d (as ++ bs) = atDepth d as ++ atDepth d bs :=
  List.filter_append ..

theorem atDepth_singleton (t : List String) : atDepth d [t] = if t.length = d then [t] else [] :=
  atDepth_cons t []

theorem atDepth_takes (d : Nat) (t : List String) {n : Nat} (hn : n ≤ t.length) :
    atDepth (d + 1) ((List.range' 1 n).map t.take) = if d < n then [t.take (d + 1)] else [] := by
  induction n with
  | zero => rfl
  | succ n ih =>
    have hlength : (t.take (1 + n)).length = 1 + n := List.length_take_of_le (by omega)
    rw [List.range'_1_concat, List.map_append, List.map_singleton, atDepth_append,
      atDepth_singleton, ih (Nat.le_of_succ_le hn), hlength]
    rcases Nat.lt_trichotomy d n with h | rfl | h
    · rw [if_pos h, if_neg (by omega), if_pos (by omega), List.append_nil]
    · rw [if_neg (Nat.lt_irrefl d), if_pos (Nat.add_comm 1 d), if_pos (Nat.lt_succ_self d),
        Nat.add_comm 1 d, List.nil_append]
    · rw [if_neg (by omega), if_neg (by omega), if_neg (by omega), List.append_nil]

theorem atDepth_withAncestors (d : Nat) (t : List String) :
    atDepth (d + 1) (withAncestors t) = if d < t.length then [t.take (d + 1)] else [] := by
  rw [withAncestors, ancestors, atDepth_append, atDepth_takes d t (Nat.sub_le _ _),
    atDepth_singleton]
  by_cases hlast : t.length = d + 1
  · rw [if_neg (by omega), if_pos hlast, if_pos (by omega), List.take_of_length_le (by omega),
      List.nil_append]
  · rw [if_neg hlast, List.append_nil]
    by_cases h : d < t.length - 1
    · rw [if_pos h, if_pos (by omega)]
    · rw [if_neg h, if_neg (by omega)]

theorem atDepth_flatMap (d : Nat) (scan : List (List String)) :
    atDepth (d + 1) (scan.flatMap withAncestors) =
      (scan.filter fun t => d < t.length).map (List.take (d + 1)) := by
  induction scan with
  | nil => rfl
  | cons t ts ih =>
    rw [List.flatMap_cons, atDepth_append, ih, atDepth_withAncestors, List.filter_cons]
    by_cases ht : d < t.length
    · simp [ht]
    · simp [ht]

/-- The ancestors of one length that the longer tables of a scan need, in its order. -/
def neededAt (d : Nat) (scan : List (List String)) : List (List String) :=
  (scan.filter fun t => d < t.length).map (List.take d)

theorem filter_lt_eq (h : scan.Pairwise fun s t => s.length ≤ t.length) :
    (scan.filter fun t => d < t.length) =
      atDepth (d + 1) scan ++ scan.filter fun t => d + 1 < t.length := by
  induction scan with
  | nil => rfl
  | cons t ts ih =>
    obtain ⟨hleast, hts⟩ := List.pairwise_cons.mp h
    rw [List.filter_cons, List.filter_cons, atDepth_cons, ih hts]
    rcases Nat.lt_trichotomy t.length (d + 1) with hlt | heq | hgt
    · simp [show ¬ d < t.length by omega, show ¬ t.length = d + 1 by omega,
        show ¬ d + 1 < t.length by omega]
    · simp [heq]
    · -- The rest of a sorted list has no path of the length any more.
      have hnone : atDepth (d + 1) ts = [] := by
        apply List.filter_eq_nil_iff.mpr
        intro u hu hd
        have hle := hleast u hu
        have hd := of_decide_eq_true hd
        omega
      simp [hnone, hgt, show d < t.length by omega, show ¬ t.length = d + 1 by omega]

theorem map_take_atDepth (d : Nat) (tables : List (List String)) :
    (atDepth d tables).map (List.take d) = atDepth d tables := by
  apply (List.map_congr_left _).trans (List.map_id _)
  intro t ht
  exact List.take_of_length_le (Nat.le_of_eq (mem_atDepth.mp ht).2)

/-- Of each length there are first the given tables, then the ancestors that are not given. -/
theorem atDepth_completed (d : Nat) (tables : List (List String)) :
    atDepth (d + 1) (completed tables) = (atDepth (d + 1) tables).eraseDups ++
      ((neededAt (d + 1) (byDepth tables)).filter (· ∉ tables)).eraseDups := by
  have hscan := isScan_byDepth tables
  have hdeclared : atDepth (d + 1) (completed tables) =
      (atDepth (d + 1) ((byDepth tables).flatMap withAncestors)).eraseDups := by
    rw [completed, (isScan_byDepth _).atDepth_eq, (Ordered.flatMap _).tables_declareAll, atDepth,
      filter_eraseDups, List.filter_filter, atDepth]
    congr 1
    apply List.filter_congr
    intro t _
    by_cases ht : t = []
    · simp [ht]
    · simp [ht]
  have hgiven : (neededAt (d + 1) (byDepth tables)).removeAll (atDepth (d + 1) tables) =
      (neededAt (d + 1) (byDepth tables)).filter (· ∉ tables) := by
    apply List.filter_congr
    intro p hp
    obtain ⟨t, ht, rfl⟩ := List.mem_map.mp hp
    have hlt := of_decide_eq_true (List.mem_filter.mp ht).2
    have hlength : (t.take (d + 1)).length = d + 1 := List.length_take_of_le (Nat.le_of_lt hlt)
    simp [mem_atDepth, hlength]
  rw [hdeclared, atDepth_flatMap, filter_lt_eq hscan.sorted, List.map_append, map_take_atDepth,
    hscan.atDepth_eq, List.eraseDups_append]
  change _ ++ ((neededAt (d + 1) (byDepth tables)).removeAll _).eraseDups = _
  rw [hgiven]

end ScriptBindings.TableOrder
