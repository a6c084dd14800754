import Mathlib.Data.List.Nodup
import Mathlib.Data.List.TakeDrop
import ScriptBindings.Index.TableOrder
import ScriptBindings.Proofs.Index.PathTree
import ScriptBindings.Proofs.Outcome

namespace ScriptBindings.TableOrder

/-- The tree of the declared tables holds the root and the tables that are listed. -/
structure Declared.Faithful (d : Declared) : Prop where
  contains_iff : ∀ q, d.tree.contains q = true ↔ q = [] ∨ q ∈ d.tables
  nodup : d.tables.Nodup
  nil_not_mem : [] ∉ d.tables

def Declared.declare (d : Declared) (path : List String) : Declared := (d.add path).2

def Declared.declareAll (d : Declared) (paths : List (List String)) : Declared :=
  paths.foldl Declared.declare d

/-- A table behind its ancestors, in the order in which all of them are declared. -/
def withAncestors (table : List String) : List (List String) := ancestors table ++ [table]

theorem Declared.declareAll_append (d : Declared) (ps qs : List (List String)) :
    d.declareAll (ps ++ qs) = (d.declareAll ps).declareAll qs :=
  List.foldl_append

theorem Declared.contains_declare {d : Declared} {p q : List String} :
    (d.declare p).tree.contains q = true ↔ d.tree.contains q = true ∨ q <+: p :=
  PathTree.contains_insert

theorem Declared.contains_declareAll {d : Declared} {ps : List (List String)} {q : List String} :
    (d.declareAll ps).tree.contains q = true ↔
      d.tree.contains q = true ∨ ∃ p ∈ ps, q <+: p := by
  induction ps generalizing d with
  | nil => simp [declareAll]
  | cons p ps ih =>
    change ((d.declare p).declareAll ps).tree.contains q = true ↔ _
    rw [ih, contains_declare, or_assoc]
    simp

theorem Declared.tables_declare_of_new {d : Declared} {p : List String} (hp : p ≠ [])
    (hn : d.tree.contains p = false) : (d.declare p).tables = d.tables ++ [p] := by
  have hi : (d.tree.insert p).1 = true := PathTree.insert_fst_eq_true.mpr ⟨hp, hn⟩
  simp [declare, add, hi]

theorem Declared.tables_declare_of_old {d : Declared} {p : List String}
    (h : d.tree.contains p = true) : (d.declare p).tables = d.tables := by
  have hi : ¬ (d.tree.insert p).1 = true := by
    rw [PathTree.insert_fst_eq_true, h]
    simp
  simp [declare, add, hi]

theorem Declared.Faithful.empty : Declared.Faithful {} where
  contains_iff q := by simp [PathTree.contains_empty]
  nodup := List.nodup_nil
  nil_not_mem := List.not_mem_nil

/-- A path adds at most itself once its parent is declared, though its insertion into the tree
adds every prefix. -/
theorem Declared.Faithful.declare {d : Declared} {p : List String} (hd : d.Faithful)
    (hp : d.tree.contains p.dropLast = true) : (d.declare p).Faithful := by
  have hc (q : List String) : (d.declare p).tree.contains q = true ↔
      d.tree.contains q = true ∨ q = p := by
    rw [contains_declare]
    constructor
    · rintro (h | h)
      · exact .inl h
      · rcases List.eq_nil_or_concat' p with rfl | ⟨front, s, rfl⟩
        · exact .inr (List.prefix_nil.mp h)
        · rcases List.prefix_concat_iff.mp h with h | h
          · exact .inr h
          · rw [List.dropLast_concat] at hp
            exact .inl (PathTree.contains_of_prefix hp h)
    · rintro (h | rfl)
      · exact .inl h
      · exact .inr (List.prefix_refl _)
  cases hn : d.tree.contains p with
  | true =>
    have ht := tables_declare_of_old hn
    refine ⟨fun q => ?_, ht ▸ hd.nodup, ht ▸ hd.nil_not_mem⟩
    rw [hc, ht, ← hd.contains_iff, or_iff_left_iff_imp]
    rintro rfl
    exact hn
  | false =>
    have hne : p ≠ [] := by
      rintro rfl
      cases hn
    have hm : p ∉ d.tables := by
      intro hm
      rw [(hd.contains_iff p).mpr (.inr hm)] at hn
      cases hn
    have ht := tables_declare_of_new hne hn
    refine ⟨fun q => ?_, ?_, ?_⟩
    · rw [hc, ht, hd.contains_iff, List.mem_append, List.mem_singleton, or_assoc]
    · rw [ht]
      exact List.nodup_append.mpr ⟨hd.nodup, List.nodup_singleton p,
        fun a ha b hb he => hm (List.mem_singleton.mp hb ▸ he ▸ ha)⟩
    · rw [ht, List.mem_append, List.mem_singleton]
      exact fun h => h.elim hd.nil_not_mem hne.symm

theorem Declared.Faithful.declareTakes {d : Declared} (hd : d.Faithful) (table : List String)
    (n : Nat) (hn : n ≤ table.length) :
    (d.declareAll ((List.range' 1 n).map table.take)).Faithful ∧
      (d.declareAll ((List.range' 1 n).map table.take)).tree.contains (table.take n) = true := by
  induction n with
  | zero => exact ⟨hd, rfl⟩
  | succ n ih =>
    obtain ⟨hf, hc⟩ := ih (Nat.le_of_succ_le hn)
    rw [List.range'_1_concat, List.map_append, Declared.declareAll_append]
    have hp : (table.take (1 + n)).dropLast = table.take n := by
      rw [Nat.add_comm, List.dropLast_take_eq_take_dropLast, Nat.add_sub_cancel,
        List.dropLast_eq_take, List.take_take, Nat.min_eq_left (by omega)]
    refine ⟨hf.declare (hp ▸ hc), ?_⟩
    rw [Nat.add_comm n 1]
    exact Declared.contains_declare.mpr (.inr (List.prefix_refl _))

theorem Declared.Faithful.declareTable {d : Declared} (hd : d.Faithful) (table : List String) :
    (d.declareAll (withAncestors table)).Faithful := by
  obtain ⟨hf, hc⟩ := hd.declareTakes table (table.length - 1) (Nat.sub_le _ _)
  rw [withAncestors, Declared.declareAll_append]
  refine hf.declare ?_
  rw [List.dropLast_eq_take]
  exact hc

theorem Declared.Faithful.declareTables {d : Declared} (hd : d.Faithful)
    (tables : List (List String)) : (d.declareAll (tables.flatMap withAncestors)).Faithful := by
  induction tables generalizing d with
  | nil => exact hd
  | cons t ts ih =>
    rw [List.flatMap_cons, Declared.declareAll_append]
    exact ih (hd.declareTable t)

theorem prefix_of_mem_withAncestors {p table : List String} (h : p ∈ withAncestors table) :
    p <+: table := by
  rcases List.mem_append.mp h with h | h
  · obtain ⟨n, _, rfl⟩ := List.mem_map.mp h
    exact List.take_prefix _ _
  · obtain rfl := List.mem_singleton.mp h
    exact List.prefix_refl _

theorem outcome_addAncestors (table : List String) (as : List (List String)) (d : Declared) :
    (addAncestors table as d).outcome = .ok (d.declareAll as) := by
  induction as generalizing d with
  | nil => rfl
  | cons a as ih =>
    cases h : (d.add a).1 with
    | true =>
      simp only [addAncestors, h, if_true, Run.outcome_report_bind]
      exact ih _
    | false =>
      simp only [addAncestors, h, Bool.false_eq_true, if_false]
      exact ih _

theorem outcome_addTables (tables : List (List String)) (d : Declared) :
    (addTables tables d).outcome = .ok (d.declareAll (tables.flatMap withAncestors)) := by
  induction tables generalizing d with
  | nil => rfl
  | cons t ts ih =>
    rw [addTables, Run.outcome_bind, outcome_addAncestors, List.flatMap_cons,
      Declared.declareAll_append, withAncestors, Declared.declareAll_append]
    exact ih _

/-- The tables that some paths need, in an order in which they can be created. -/
structure IsCompletion (tables completed : List (List String)) : Prop where
  mem_iff : ∀ q, q ∈ completed ↔ q ≠ [] ∧ ∃ t ∈ tables, q <+: t
  nodup : completed.Nodup
  sorted : completed.Pairwise fun s t => s.length ≤ t.length

theorem mem_byDepth {tables : List (List String)} {t : List String} :
    t ∈ byDepth tables ↔ t ∈ tables :=
  List.mem_mergeSort

theorem shorter_trans (s t u : List String) (hst : decide (s.length ≤ t.length) = true)
    (htu : decide (t.length ≤ u.length) = true) : decide (s.length ≤ u.length) = true :=
  decide_eq_true (Nat.le_trans (of_decide_eq_true hst) (of_decide_eq_true htu))

theorem shorter_total (s t : List String) :
    (decide (s.length ≤ t.length) || decide (t.length ≤ s.length)) = true := by
  rw [Bool.or_eq_true]
  exact (Nat.le_total s.length t.length).imp decide_eq_true decide_eq_true

theorem sorted_byDepth (tables : List (List String)) :
    (byDepth tables).Pairwise fun s t => s.length ≤ t.length :=
  (List.pairwise_mergeSort shorter_trans shorter_total tables).imp of_decide_eq_true

theorem mem_declareAll_iff (tables : List (List String)) (q : List String) :
    q ∈ (Declared.declareAll {} (tables.flatMap withAncestors)).tables ↔
      q ≠ [] ∧ ∃ t ∈ tables, q <+: t := by
  have hf := Declared.Faithful.empty.declareTables tables
  have hc := hf.contains_iff q
  rw [Declared.contains_declareAll] at hc
  have hn : q ∈ (Declared.declareAll {} (tables.flatMap withAncestors)).tables → q ≠ [] := by
    rintro h rfl
    exact hf.nil_not_mem h
  constructor
  · intro h
    refine ⟨hn h, ?_⟩
    rcases hc.mpr (.inr h) with h' | ⟨p, hp, hq⟩
    · exact absurd (PathTree.contains_empty.mp h') (hn h)
    · obtain ⟨t, ht, hp⟩ := List.mem_flatMap.mp hp
      exact ⟨t, ht, hq.trans (prefix_of_mem_withAncestors hp)⟩
  · rintro ⟨hne, t, ht, hq⟩
    have hm : t ∈ tables.flatMap withAncestors :=
      List.mem_flatMap.mpr ⟨t, ht, List.mem_append_right _ (List.mem_singleton_self t)⟩
    exact (hc.mp (.inr ⟨t, hm, hq⟩)).resolve_left hne

/-- The tables in the order of their creation. -/
def completed (tables : List (List String)) : List (List String) :=
  byDepth (Declared.declareAll {} ((byDepth tables).flatMap withAncestors)).tables

theorem outcome_complete (tables : List (List String)) :
    (complete tables).outcome = .ok (completed tables) := by
  rw [complete, Run.outcome_bind, outcome_addTables]
  rfl

theorem isCompletion_completed (tables : List (List String)) :
    IsCompletion tables (completed tables) where
  mem_iff q := by simp only [completed, mem_byDepth, mem_declareAll_iff]
  nodup := by
    have hf := Declared.Faithful.empty.declareTables (byDepth tables)
    exact (List.mergeSort_perm _ _).nodup_iff.mpr hf.nodup
  sorted := sorted_byDepth _

/-- Every table of a completion comes after its parent. -/
theorem IsCompletion.parent_before {tables front back : List (List String)} {t : List String}
    (h : IsCompletion tables (front ++ t :: back)) :
    t ≠ [] ∧ t ∉ front ∧ (t.dropLast = [] ∨ t.dropLast ∈ front) := by
  have hmem : t ∈ front ++ t :: back := List.mem_append_right _ List.mem_cons_self
  obtain ⟨hne, u, hu, ht⟩ := (h.mem_iff t).mp hmem
  have hlt : t.dropLast.length < t.length := by
    rw [List.length_dropLast]
    exact Nat.sub_lt (List.length_pos_of_ne_nil hne) Nat.one_pos
  refine ⟨hne, fun hf => ?_, or_iff_not_imp_left.mpr fun hd => ?_⟩
  · exact (List.nodup_append.mp h.nodup).2.2 t hf t List.mem_cons_self rfl
  · have hp : t.dropLast ∈ front ++ t :: back :=
      (h.mem_iff _).mpr ⟨hd, u, hu, (List.dropLast_prefix t).trans ht⟩
    rcases List.mem_append.mp hp with hp | hp
    · exact hp
    · have hs := List.pairwise_append.mp h.sorted
      rcases List.mem_cons.mp hp with hp | hp
      · rw [hp] at hlt
        exact absurd hlt (Nat.lt_irrefl _)
      · have hle := (List.pairwise_cons.mp hs.2.1).1 _ hp
        omega

end ScriptBindings.TableOrder
