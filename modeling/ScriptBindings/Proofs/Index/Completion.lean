import ScriptBindings.Proofs.Index.Depth

namespace ScriptBindings.TableOrder

variable {tables : List (List String)}

/-- The ancestors that a scan finds missing behind the paths in `seen`, each with the table that
needs it. -/
def missing (seen : List (List String)) :
    List (List String) → List (List String × List String)
  | [] => []
  | t :: ts => ((ancestors t).filter fun a => ∀ s ∈ seen, ¬ a <+: s).map (fun a => (a, t)) ++
      missing (seen ++ [t]) ts

theorem mem_missing {seen scan : List (List String)} {w : List String × List String} :
    w ∈ missing seen scan ↔ ∃ front back, scan = front ++ w.2 :: back ∧ w.1 ∈ ancestors w.2 ∧
      ∀ s ∈ seen ++ front, ¬ w.1 <+: s := by
  induction scan generalizing seen with
  | nil => simp [missing]
  | cons t ts ih =>
    rw [missing, List.mem_append, ih]
    constructor
    · rintro (h | ⟨front, back, rfl, hneeds, hfirst⟩)
      · obtain ⟨a, ha, rfl⟩ := List.mem_map.mp h
        obtain ⟨hneeds, hfirst⟩ := List.mem_filter.mp ha
        exact ⟨[], ts, rfl, hneeds, by simpa using hfirst⟩
      · exact ⟨t :: front, back, rfl, hneeds, by simpa using hfirst⟩
    · rintro ⟨front, back, hsplit, hneeds, hfirst⟩
      cases front with
      | nil =>
        obtain ⟨rfl, rfl⟩ := List.cons.inj hsplit
        have hnew : ∀ s ∈ seen, ¬ w.1 <+: s := by simpa using hfirst
        exact .inl (List.mem_map.mpr
          ⟨w.1, List.mem_filter.mpr ⟨hneeds, decide_eq_true hnew⟩, rfl⟩)
      | cons u front =>
        obtain ⟨rfl, rfl⟩ := List.cons.inj hsplit
        exact .inr ⟨front, back, rfl, hneeds, by simpa using hfirst⟩

theorem pairwise_ancestors (t : List String) :
    (ancestors t).Pairwise fun p q => p.length < q.length := by
  rw [ancestors, List.pairwise_map]
  apply List.Pairwise.imp_of_mem _ List.pairwise_lt_range'
  intro j k hj hk hjk
  have hj := List.mem_range'_1.mp hj
  have hk := List.mem_range'_1.mp hk
  rw [List.length_take_of_le (by omega), List.length_take_of_le (by omega)]
  exact hjk

theorem nodup_missing (seen scan : List (List String)) :
    ((missing seen scan).map Prod.fst).Nodup := by
  induction scan generalizing seen with
  | nil => exact List.nodup_nil
  | cons t ts ih =>
    have hfst : (fun w : List String × List String => w.1) ∘ (fun a => (a, t)) = id := rfl
    rw [missing, List.map_append, List.map_map, hfst, List.map_id, List.nodup_append]
    refine ⟨?_, ih _, ?_⟩
    · apply List.Nodup.filter
      apply (pairwise_ancestors t).imp
      intro p q hlt he
      exact Nat.lt_irrefl _ (he ▸ hlt)
    · rintro a ha _ hlater rfl
      obtain ⟨w, hw, rfl⟩ := List.mem_map.mp hlater
      obtain ⟨_, _, _, _, hfirst⟩ := mem_missing.mp hw
      have hpre := (mem_ancestors.mp (List.mem_filter.mp ha).1).2.1
      exact hfirst t (by simp) hpre

theorem events_addAncestors (t : List String) {as : List (List String)} {d : Declared}
    (hne : ∀ a ∈ as, a ≠ []) (hsorted : as.Pairwise fun p q => p.length < q.length) :
    (addAncestors t as d).events =
      (as.filter fun a => !d.tree.contains a).map fun a => .tableAdded a t := by
  induction as generalizing d with
  | nil => rfl
  | cons a as ih =>
    obtain ⟨ha, has⟩ := List.forall_mem_cons.mp hne
    obtain ⟨hlonger, hsorted⟩ := List.pairwise_cons.mp hsorted
    -- A declaration adds prefixes only, and the later ancestors are longer.
    have hrest : (as.filter fun b => !(d.declare a).tree.contains b) =
        as.filter fun b => !d.tree.contains b := by
      apply List.filter_congr
      intro b hb
      have hnot : ¬ b <+: a := fun h => Nat.not_le_of_lt (hlonger b hb) h.length_le
      rw [Bool.not_inj_iff, Bool.eq_iff_iff, Declared.contains_declare, or_iff_left hnot]
    have htail := ih (d := d.declare a) has hsorted
    rw [hrest] at htail
    cases hcontains : d.tree.contains a with
    | true =>
      have hold : (d.add a).1 = false := by
        rw [Bool.eq_false_iff]
        intro h
        have hnew := (PathTree.insert_fst_eq_true.mp h).2
        rw [hcontains] at hnew
        cases hnew
      rw [List.filter_cons_of_neg (by simp [hcontains]), ← htail]
      simp only [addAncestors, hold, Bool.false_eq_true, if_false]
      rfl
    | false =>
      have hnew : (d.add a).1 = true := PathTree.insert_fst_eq_true.mpr ⟨ha, hcontains⟩
      rw [List.filter_cons_of_pos (by simp [hcontains]), List.map_cons, ← htail]
      simp only [addAncestors, hnew, if_true]
      rfl

theorem events_addTables {seen scan : List (List String)} {d : Declared}
    (hd : ∀ q, d.tree.contains q = true ↔ q = [] ∨ ∃ s ∈ seen, q <+: s) :
    (addTables scan d).events = (missing seen scan).map fun w => .tableAdded w.1 w.2 := by
  induction scan generalizing seen d with
  | nil => rfl
  | cons t ts ih =>
    have hmissing : ((ancestors t).filter fun a => !d.tree.contains a) =
        (ancestors t).filter fun a => ∀ s ∈ seen, ¬ a <+: s := by
      apply List.filter_congr
      intro a ha
      have hne := (mem_ancestors.mp ha).1
      rw [Bool.eq_iff_iff, Bool.not_eq_true', ← Bool.not_eq_true, hd, decide_eq_true_eq]
      simp [hne]
    have hnext (q : List String) :
        (d.declareAll (withAncestors t)).tree.contains q = true ↔
          q = [] ∨ ∃ s ∈ seen ++ [t], q <+: s := by
      rw [Declared.contains_declareAll, hd, or_assoc]
      apply or_congr_right
      constructor
      · rintro (⟨s, hs, hq⟩ | ⟨p, hp, hq⟩)
        · exact ⟨s, List.mem_append_left [t] hs, hq⟩
        · exact ⟨t, by simp, hq.trans (prefix_of_mem_withAncestors hp)⟩
      · rintro ⟨s, hs, hq⟩
        rcases List.mem_append.mp hs with hs | hs
        · exact .inl ⟨s, hs, hq⟩
        · obtain rfl := List.mem_singleton.mp hs
          exact .inr ⟨s, by simp [withAncestors], hq⟩
    rw [addTables, Run.events_bind (outcome_addAncestors t _ d), missing, List.map_append,
      List.map_map, events_addAncestors t (fun a ha => (mem_ancestors.mp ha).1)
        (pairwise_ancestors t), hmissing]
    congr 1
    have hdeclared : ((d.declareAll (ancestors t)).add t).2 = d.declareAll (withAncestors t) := by
      rw [withAncestors, Declared.declareAll_append]
      rfl
    rw [hdeclared]
    exact ih hnext

theorem complete_eq (tables : List (List String)) :
    complete tables = ⟨(missing [] (byDepth tables)).map fun w => .tableAdded w.1 w.2,
      .ok (completed tables)⟩ := by
  have hempty (q : List String) :
      (Declared.tree {}).contains q = true ↔ q = [] ∨ ∃ s ∈ ([] : List (List String)), q <+: s := by
    change PathTree.empty.contains q = true ↔ _
    simp [PathTree.contains_empty]
  have hevents : (complete tables).events = _ :=
    Run.events_bind (outcome_addTables (byDepth tables) {})
  rw [events_addTables hempty] at hevents
  change Run.mk (complete tables).events (complete tables).outcome = _
  rw [hevents, outcome_complete]
  exact congrArg (Run.mk · _) (List.append_nil _)

theorem mem_missing_iff {a : List String} :
    a ∈ (missing [] (byDepth tables)).map Prod.fst ↔ a ∈ completed tables ∧ a ∉ tables := by
  rw [(isCompletion_completed tables).mem_iff]
  constructor
  · intro ha
    obtain ⟨w, hw, rfl⟩ := List.mem_map.mp ha
    obtain ⟨front, back, hsplit, hneeds, hfirst⟩ := mem_missing.mp hw
    obtain ⟨hne, hpre, hproper⟩ := mem_ancestors.mp hneeds
    have hsorted := sorted_byDepth tables
    have hmem (t : List String) : t ∈ tables ↔ t ∈ front ++ w.2 :: back := by
      rw [← hsplit, mem_byDepth]
    rw [hsplit] at hsorted
    refine ⟨⟨hne, w.2, (hmem w.2).mpr (by simp), hpre⟩, ?_⟩
    intro hgiven
    rcases List.mem_append.mp ((hmem w.1).mp hgiven) with hfront | hback
    · exact hfirst w.1 hfront (List.prefix_refl _)
    rcases List.mem_cons.mp hback with heq | hback
    · exact hproper heq
    · -- A given table would have been scanned before the longer one that needs it.
      have hle := (List.pairwise_cons.mp (List.pairwise_append.mp hsorted).2.1).1 w.1 hback
      exact hproper (hpre.eq_of_length (Nat.le_antisymm hpre.length_le hle))
  · rintro ⟨⟨hne, t, ht, hpre⟩, hnew⟩
    have hfound : ((byDepth tables).find? fun t => a <+: t).isSome = true := by
      rw [List.find?_isSome]
      exact ⟨t, mem_byDepth.mpr ht, decide_eq_true hpre⟩
    obtain ⟨u, hu⟩ := Option.isSome_iff_exists.mp hfound
    obtain ⟨hpre, front, back, hsplit, hfirst⟩ := List.find?_eq_some_iff_append.mp hu
    have hmem : u ∈ tables := mem_byDepth.mp (by rw [hsplit]; simp)
    have hproper : a ≠ u := by
      rintro rfl
      exact hnew hmem
    have hneeds : a ∈ ancestors u := mem_ancestors.mpr ⟨hne, of_decide_eq_true hpre, hproper⟩
    have hw : (a, u) ∈ missing [] (byDepth tables) :=
      mem_missing.mpr ⟨front, back, hsplit, hneeds, by simpa using hfirst⟩
    exact List.mem_map_of_mem hw

theorem find?_of_mem_missing {w : List String × List String}
    (hw : w ∈ missing [] (byDepth tables)) :
    (byDepth tables).find? (fun t => w.1 ∈ ancestors t) = some w.2 := by
  obtain ⟨front, back, hsplit, hneeds, hfirst⟩ := mem_missing.mp hw
  apply List.find?_eq_some_iff_append.mpr
  refine ⟨decide_eq_true hneeds, front, back, hsplit, ?_⟩
  intro t ht
  have hnot : w.1 ∉ ancestors t := fun h => hfirst t ht (mem_ancestors.mp h).2.1
  simp [hnot]

theorem completed_completed (tables : List (List String)) :
    completed (completed tables) = completed tables := by
  have hdone := isCompletion_completed tables
  have hagain := isCompletion_completed (completed tables)
  apply eq_of_atDepth_eq hagain.sorted hdone.sorted
  intro d
  cases d with
  | zero =>
    have hnone {bs cs : List (List String)} (h : IsCompletion bs cs) : atDepth 0 cs = [] := by
      apply List.eq_nil_iff_forall_not_mem.mpr
      intro t ht
      obtain ⟨hmem, hlength⟩ := mem_atDepth.mp ht
      exact ((h.mem_iff t).mp hmem).1 (List.eq_nil_of_length_eq_zero hlength)
    rw [hnone hagain, hnone hdone]
  | succ d =>
    have hnone : (neededAt (d + 1) (byDepth (completed tables))).filter (· ∉ completed tables) =
        [] := by
      apply List.filter_eq_nil_iff.mpr
      intro p hp
      obtain ⟨t, ht, rfl⟩ := List.mem_map.mp hp
      obtain ⟨ht, hlength⟩ := List.mem_filter.mp ht
      obtain ⟨hne, u, hu, hpre⟩ := (hdone.mem_iff t).mp (mem_byDepth.mp ht)
      have hmem : t.take (d + 1) ∈ completed tables := by
        apply (hdone.mem_iff _).mpr
        exact ⟨by simp [hne], u, hu, (List.take_prefix _ t).trans hpre⟩
      simp [hmem]
    have hnodup : (atDepth (d + 1) (completed tables)).Nodup := hdone.nodup.filter _
    rw [atDepth_completed, hnone, eraseDups_eq_self hnodup]
    exact List.append_nil _

theorem complete_completed (tables : List (List String)) :
    complete (completed tables) = ⟨[], .ok (completed tables)⟩ := by
  have hnone : missing [] (byDepth (completed tables)) = [] := by
    apply List.eq_nil_iff_forall_not_mem.mpr
    intro w hw
    obtain ⟨hdone, hnew⟩ := mem_missing_iff.mp (List.mem_map_of_mem hw)
    rw [completed_completed] at hdone
    exact hnew hdone
  rw [complete_eq, completed_completed, hnone]
  rfl

/-- Completion scans the tables by increasing length. It answers their nonempty prefixes, each once
and sorted by length; of one length, the given tables come in the order in which they occur first,
and behind them the others in the order in which the scan needs them first. Each added table is
reported once, with the first table of the scan that needs it. A completed list is left as it is,
and nothing is reported of it. -/
theorem complete_characterised (tables : List (List String)) :
    ∃ (scan done : List (List String)) (added : List (List String × List String)),
      IsScan tables scan ∧
      complete tables = ⟨added.map fun w => .tableAdded w.1 w.2, .ok done⟩ ∧
      IsCompletion tables done ∧
      (∀ d, atDepth (d + 1) done = (atDepth (d + 1) tables).eraseDups ++
        ((neededAt (d + 1) scan).filter (· ∉ tables)).eraseDups) ∧
      (added.map Prod.fst).Nodup ∧
      (∀ a, a ∈ added.map Prod.fst ↔ a ∈ done ∧ a ∉ tables) ∧
      (∀ w ∈ added, scan.find? (fun t => w.1 ∈ ancestors t) = some w.2) ∧
      complete done = ⟨[], .ok done⟩ := by
  refine ⟨byDepth tables, completed tables, missing [] (byDepth tables), isScan_byDepth tables,
    complete_eq tables, isCompletion_completed tables, ?_, nodup_missing [] _, ?_, ?_,
    complete_completed tables⟩
  · intro d
    exact atDepth_completed d tables
  · intro a
    exact mem_missing_iff
  · intro w hw
    exact find?_of_mem_missing hw

end ScriptBindings.TableOrder
