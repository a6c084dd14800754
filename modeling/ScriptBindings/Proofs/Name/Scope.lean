import ScriptBindings.Name.Scope

namespace ScriptBindings.Scope

def IsSegment (s : String) : Prop := s ≠ "" ∧ ':' ∉ s.toList

instance : DecidablePred IsSegment := fun s =>
  inferInstanceAs (Decidable (s ≠ "" ∧ ':' ∉ s.toList))

/-- A qualified name in canonical form. -/
def IsQualified (name : String) : Prop :=
  ∃ segments, (∀ s ∈ segments, IsSegment s) ∧ name = join segments

/-- `back` is what stands in the name behind its last separator, or all of it if it has none. -/
inductive IsLastPart (back : List Char) : List Char → Prop
  | whole (h : ¬ [':', ':'] <:+: back) : IsLastPart back back
  | behind (front : List Char) (h : ¬ [':', ':'] <:+: ':' :: back) :
      IsLastPart back (front ++ ':' :: ':' :: back)

/-- The pieces are what the leftmost separators of a name leave: before the separator that ends a
piece, no other one begins. -/
inductive IsCut : List Char → List (List Char) → Prop
  | whole {s : List Char} (h : ¬ [':', ':'] <:+: s) : IsCut s [s]
  | before {s cs : List Char} {ss : List (List Char)} (h : ¬ [':', ':'] <:+: s ++ [':'])
      (hcs : IsCut cs ss) : IsCut (s ++ ':' :: ':' :: cs) (s :: ss)

section Cut

variable {c : Char} {s cs : List Char} {ss ts : List (List Char)}

theorem prefix_cons_append_iff :
    [':', ':'] <+: c :: (s ++ ':' :: cs) ↔ [':', ':'] <+: c :: (s ++ [':']) := by
  cases s <;> simp

theorem not_infix_concat_of_not_mem (h : ':' ∉ s) : ¬ [':', ':'] <:+: s ++ [':'] := by
  intro hcolons
  have hcount := hcolons.sublist.count_le ':'
  simp [List.count_eq_zero_of_not_mem h] at hcount

theorem pieces_cons (h : ¬ [':', ':'] <+: c :: cs) : pieces (c :: cs) = consHead c (pieces cs) := by
  rw [pieces]
  intro back hc hcs
  apply h
  rw [hc, hcs]
  exact List.prefix_append [':', ':'] back

theorem pieces_of_not_infix (h : ¬ [':', ':'] <:+: s) : pieces s = [s] := by
  induction s with
  | nil => rfl
  | cons c s ih =>
    rw [List.infix_cons_iff, not_or] at h
    rw [pieces_cons h.1, ih h.2]
    rfl

theorem pieces_append (h : ¬ [':', ':'] <:+: s ++ [':']) (cs : List Char) :
    pieces (s ++ ':' :: ':' :: cs) = s :: pieces cs := by
  induction s with
  | nil => rfl
  | cons c s ih =>
    rw [List.cons_append, List.infix_cons_iff, not_or] at h
    have hstart : ¬ [':', ':'] <+: c :: (s ++ ':' :: ':' :: cs) := mt prefix_cons_append_iff.mp h.1
    rw [List.cons_append, pieces_cons hstart, ih h.2]
    rfl

theorem IsCut.consHead (h : IsCut cs ss) (hstart : ¬ [':', ':'] <+: c :: cs) :
    IsCut (c :: cs) (consHead c ss) := by
  cases h with
  | whole h =>
    apply IsCut.whole
    rw [List.infix_cons_iff, not_or]
    exact ⟨hstart, h⟩
  | @before s cs ss h hcs =>
    rw [← List.cons_append]
    apply IsCut.before _ hcs
    rw [List.cons_append, List.infix_cons_iff, not_or]
    exact ⟨mt prefix_cons_append_iff.mpr hstart, h⟩

theorem isCut_pieces (cs : List Char) : IsCut cs (pieces cs) := by
  fun_induction pieces cs with
  | case1 => exact .whole (by simp)
  | case2 cs ih => exact .before (s := []) (by simp [List.infix_cons_iff]) ih
  | case3 c cs hcolons ih =>
    apply ih.consHead
    intro hstart
    obtain ⟨back, heq⟩ := hstart
    obtain ⟨hc, hcs⟩ := List.cons.inj heq
    exact hcolons back hc.symm hcs.symm

theorem pieces_eq_iff : pieces cs = ss ↔ IsCut cs ss := by
  constructor
  · intro h
    rw [← h]
    exact isCut_pieces cs
  · intro h
    induction h with
    | whole h => exact pieces_of_not_infix h
    | before h _ ih => rw [pieces_append h, ih]

theorem isCut_intercalate_cons (h : ¬ [':', ':'] <:+: s ++ [':'])
    (hts : ts ≠ [] → IsCut ([':', ':'].intercalate ts) ts) :
    IsCut ([':', ':'].intercalate (s :: ts)) (s :: ts) := by
  cases ts with
  | nil =>
    rw [List.intercalate_singleton]
    apply IsCut.whole
    intro hcolons
    exact h (hcolons.trans (List.prefix_append s [':']).isInfix)
  | cons t ts =>
    rw [List.intercalate_cons_cons, List.append_assoc]
    exact .before h (hts (List.cons_ne_nil t ts))

/-- Leaving out pieces moves no separator, although others become neighbours: only the last piece
of a name can end in a colon. -/
theorem IsCut.sublist (h : IsCut cs ss) (hts : ts.Sublist ss) (hne : ts ≠ []) :
    IsCut ([':', ':'].intercalate ts) ts := by
  induction h generalizing ts with
  | whole h =>
    obtain rfl := hts.eq_of_length_le (List.length_pos_iff.mpr hne)
    rw [List.intercalate_singleton]
    exact .whole h
  | before h _ ih =>
    cases hts with
    | cons _ hts => exact ih hts hne
    | cons_cons _ hts => exact isCut_intercalate_cons h (ih hts)

theorem isCut_intercalate (h : ∀ s ∈ ss, ':' ∉ s) (hne : ss ≠ []) :
    IsCut ([':', ':'].intercalate ss) ss := by
  induction ss with
  | nil => exact absurd rfl hne
  | cons s ss ih =>
    have hs := not_infix_concat_of_not_mem (h s List.mem_cons_self)
    exact isCut_intercalate_cons hs (ih fun t ht => h t (List.mem_cons_of_mem s ht))

end Cut

theorem cutLast_cons_of_eq_some {cs front back : List Char} (c : Char)
    (h : cutLast cs = some (front, back)) : cutLast (c :: cs) = some (c :: front, back) := by
  unfold cutLast
  rw [h]

theorem cutLast_cons_of_eq_none {cs : List Char} (c : Char) (h : cutLast cs = none) :
    cutLast (c :: cs) = if [':', ':'] <+: c :: cs then some ([], cs.tail) else none := by
  unfold cutLast
  simp only [h]
  split
  · simp
  · rename_i hnot
    rw [if_neg]
    rintro ⟨back, heq⟩
    obtain ⟨rfl, rfl⟩ := List.cons.inj heq
    exact hnot back rfl rfl

theorem cutLast_eq_none_iff {cs : List Char} : cutLast cs = none ↔ ¬ [':', ':'] <:+: cs := by
  induction cs with
  | nil => simp [cutLast]
  | cons c cs ih =>
    rw [List.infix_cons_iff, not_or, ← ih]
    cases hcut : cutLast cs with
    | some parts => simp [cutLast_cons_of_eq_some c hcut]
    | none => simp [cutLast_cons_of_eq_none c hcut]

theorem not_infix_of_not_mem {cs : List Char} (h : ':' ∉ cs) : ¬ [':', ':'] <:+: ':' :: cs := by
  rw [List.infix_cons_iff, not_or]
  constructor
  · rintro ⟨back, heq⟩
    obtain ⟨_, rfl⟩ := List.cons.inj heq
    exact h List.mem_cons_self
  · intro hcolons
    exact h (hcolons.subset List.mem_cons_self)

theorem cutLast_of_not_mem {cs : List Char} (h : ':' ∉ cs) : cutLast cs = none :=
  cutLast_eq_none_iff.mpr fun hcolons => h (hcolons.subset List.mem_cons_self)

theorem cutLast_append {back : List Char} (h : ¬ [':', ':'] <:+: ':' :: back)
    (front : List Char) : cutLast (front ++ ':' :: ':' :: back) = some (front, back) := by
  induction front with
  | nil =>
    rw [List.nil_append, cutLast_cons_of_eq_none ':' (cutLast_eq_none_iff.mpr h),
      if_pos ⟨back, rfl⟩]
    rfl
  | cons c front ih => exact cutLast_cons_of_eq_some c ih

theorem eq_of_cutLast {cs front back : List Char} (h : cutLast cs = some (front, back)) :
    cs = front ++ ':' :: ':' :: back ∧ ¬ [':', ':'] <:+: ':' :: back := by
  induction cs generalizing front with
  | nil => cases h
  | cons c cs ih =>
    cases hcut : cutLast cs with
    | some parts =>
      rw [cutLast_cons_of_eq_some c hcut] at h
      obtain ⟨rfl, rfl⟩ := Prod.mk.inj (Option.some.inj h)
      obtain ⟨heq, hback⟩ := ih hcut
      exact ⟨congrArg (c :: ·) heq, hback⟩
    | none =>
      rw [cutLast_cons_of_eq_none c hcut] at h
      split at h
      · rename_i hstart
        obtain ⟨rest, heq⟩ := hstart
        obtain ⟨rfl, rfl⟩ := List.cons.inj heq
        cases h
        exact ⟨rfl, cutLast_eq_none_iff.mp hcut⟩
      · cases h

theorem lastOf_eq_iff {cs back : List Char} : lastOf cs = back ↔ IsLastPart back cs := by
  constructor
  · rintro rfl
    unfold lastOf
    split
    · rename_i hcut
      obtain ⟨rfl, hback⟩ := eq_of_cutLast hcut
      exact .behind _ hback
    · rename_i hcut
      exact .whole (cutLast_eq_none_iff.mp hcut)
  · intro h
    unfold lastOf
    cases h with
    | whole h => rw [cutLast_eq_none_iff.mpr h]
    | behind front h => rw [cutLast_append h]

section Append

variable {front back : List Char} {c : Char}

/-- A separator does not reach over a character that is no colon. -/
theorem infix_append_cons (hc : c ≠ ':') :
    [':', ':'] <:+: front ++ c :: back ↔ [':', ':'] <:+: front ∨ [':', ':'] <:+: back := by
  induction front with
  | nil => simp [List.infix_cons_iff, Ne.symm hc]
  | cons d front ih =>
    have hstart : [':', ':'] <+: d :: (front ++ c :: back) ↔ [':', ':'] <+: d :: front := by
      cases front with
      | nil => simp [Ne.symm hc]
      | cons => simp
    rw [List.cons_append, List.infix_cons_iff, ih, List.infix_cons_iff, hstart, or_assoc]

theorem infix_append_of_not_mem (h : ':' ∉ back) :
    [':', ':'] <:+: front ++ back ↔ [':', ':'] <:+: front := by
  cases back with
  | nil => rw [List.append_nil]
  | cons c back =>
    rw [List.mem_cons, not_or] at h
    rw [infix_append_cons (Ne.symm h.1), or_iff_left]
    exact fun hcolons => h.2 (hcolons.subset List.mem_cons_self)

theorem lastOf_append_of_infix (h : [':', ':'] <:+: back) (front : List Char) :
    lastOf (front ++ back) = lastOf back := by
  cases hcut : cutLast back with
  | none => exact absurd h (cutLast_eq_none_iff.mp hcut)
  | some parts =>
    obtain ⟨rfl, hlast⟩ := eq_of_cutLast hcut
    rw [← List.append_assoc, lastOf_eq_iff.mpr (.behind _ hlast),
      lastOf_eq_iff.mpr (.behind _ hlast)]

theorem lastOf_append_cons (hc : c ≠ ':') (h : ¬ [':', ':'] <:+: back) (front : List Char) :
    lastOf (front ++ c :: back) = lastOf front ++ c :: back := by
  rw [lastOf_eq_iff]
  have hpart : IsLastPart (lastOf front) front := lastOf_eq_iff.mp rfl
  generalize lastOf front = last at hpart
  -- The last part of the whole begins where that of `front` begins.
  cases hpart with
  | whole hlast =>
    exact .whole (by rw [infix_append_cons hc, not_or]; exact ⟨hlast, h⟩)
  | behind before hlast =>
    rw [List.append_assoc, List.cons_append, List.cons_append]
    apply IsLastPart.behind before
    rw [← List.cons_append, infix_append_cons hc, not_or]
    exact ⟨hlast, h⟩

theorem lastOf_append_of_not_mem (h : ':' ∉ back) (front : List Char) :
    lastOf (front ++ back) = lastOf front ++ back := by
  cases back with
  | nil => rw [List.append_nil, List.append_nil]
  | cons c back =>
    rw [List.mem_cons, not_or] at h
    exact lastOf_append_cons (Ne.symm h.1)
      (fun hcolons => h.2 (hcolons.subset List.mem_cons_self)) front

end Append

theorem templateHead_eq {name : String} {head args : List Char} (hhead : '<' ∉ head)
    (hname : name.toList = head ++ '<' :: args) : templateHead name = String.ofList head := by
  have hkept : ∀ c ∈ head, decide (c ≠ '<') = true :=
    fun c hc => decide_eq_true fun h => hhead (h ▸ hc)
  rw [templateHead, hname, List.takeWhile_append_of_pos hkept, List.takeWhile_cons_of_neg (by simp),
    List.append_nil]

theorem toList_join (ss : List String) :
    (join ss).toList = [':', ':'].intercalate (ss.map String.toList) :=
  String.toList_intercalate

theorem join_concat {front : List String} (h : front ≠ []) (s : String) :
    join (front ++ [s]) = join front ++ "::" ++ s := by
  rw [join, String.intercalate_append_of_ne_nil h (List.cons_ne_nil s []),
    String.intercalate_singleton]
  rfl

theorem map_toList_segments (name : String) :
    (segments name).map String.toList = (pieces name.toList).filter (· ≠ []) := by
  simp [segments]

theorem empty_not_mem_segments (name : String) : "" ∉ segments name := by
  intro hempty
  have hpiece := List.mem_map_of_mem (f := String.toList) hempty
  rw [map_toList_segments, List.mem_filter] at hpiece
  simp at hpiece

/-- Segments are read back from a name whose leftmost separators are those that join them. -/
theorem segments_join_of_isCut {ss : List String}
    (h : IsCut (join ss).toList (ss.map String.toList)) (hne : "" ∉ ss) :
    segments (join ss) = ss := by
  have hkept : ∀ s ∈ ss.map String.toList, decide (s ≠ []) = true := by
    intro s hs
    obtain ⟨t, ht, rfl⟩ := List.mem_map.mp hs
    apply decide_eq_true
    intro he
    rw [String.toList_eq_nil_iff.mp he] at ht
    exact hne ht
  rw [segments, pieces_eq_iff.mpr h, List.filter_eq_self.mpr hkept, List.map_map]
  simp

theorem segments_join {ss : List String} (h : ∀ s ∈ ss, IsSegment s) :
    segments (join ss) = ss := by
  cases ss with
  | nil => rfl
  | cons r ss =>
    apply segments_join_of_isCut
    · rw [toList_join]
      apply isCut_intercalate _ (by simp)
      intro s hs
      obtain ⟨t, ht, rfl⟩ := List.mem_map.mp hs
      exact (h t ht).2
    · intro hempty
      exact (h "" hempty).1 rfl

theorem segments_join_segments (name : String) :
    segments (join (segments name)) = segments name := by
  by_cases hne : segments name = []
  · rw [hne]
    rfl
  · apply segments_join_of_isCut _ (empty_not_mem_segments name)
    rw [toList_join, map_toList_segments]
    apply (isCut_pieces name.toList).sublist List.filter_sublist
    rw [← map_toList_segments]
    exact mt List.map_eq_nil_iff.mp hne

theorem parent_of_templateHead {name : String} {ss : List String} (h : ∀ s ∈ ss, IsSegment s)
    (hname : templateHead name = join ss) : parent name = join ss.dropLast := by
  rw [parent, hname]
  rcases List.eq_nil_or_concat ss with rfl | ⟨front, s, rfl⟩
  · rfl
  · rw [List.concat_eq_append] at h ⊢
    have hs := (h s (List.mem_append_right _ (List.mem_singleton_self s))).2
    rw [List.dropLast_concat]
    cases front with
    | nil =>
      rw [toList_join, List.nil_append, List.map_singleton, List.intercalate_singleton,
        cutLast_of_not_mem hs]
      rfl
    | cons r front =>
      have hlist : (join (r :: front ++ [s])).toList =
          (join (r :: front)).toList ++ ':' :: ':' :: s.toList := by
        rw [join_concat (List.cons_ne_nil r front), String.toList_append, String.toList_append,
          List.append_assoc]
        rfl
      rw [hlist, cutLast_append (not_infix_of_not_mem hs)]
      exact String.ofList_toList

theorem join_segments_parent {name : String} (h : IsQualified (templateHead name)) :
    join (segments (parent name)) = parent name := by
  obtain ⟨ss, hss, hname⟩ := h
  rw [parent_of_templateHead hss hname,
    segments_join fun s hs => hss s (List.dropLast_subset ss hs)]

end ScriptBindings.Scope
