import Mathlib.Data.List.Sort
import Mathlib.Data.String.Basic
import ScriptBindings.Proofs.Index.PathTree

namespace ScriptBindings.PathTree

/-- The children of every node stand in strict order of their names. -/
inductive Ordered : PathTree → Prop
  | of {cs : List (String × PathTree)} (hnames : cs.Pairwise fun a b => a.1 < b.1)
      (hchildren : ∀ e ∈ cs, Ordered e.2) : Ordered (.node cs)

variable {s : String} {c t t' : PathTree} {cs : List (String × PathTree)}

theorem mem_setChild {e : String × PathTree} (h : e ∈ setChild s c cs) : e = (s, c) ∨ e ∈ cs := by
  induction cs with
  | nil => exact .inl (List.mem_singleton.mp h)
  | cons d cs ih =>
    unfold setChild at h
    split at h
    · exact List.mem_cons.mp h
    · split at h
      · exact (List.mem_cons.mp h).imp_right (List.mem_cons_of_mem d)
      · rcases List.mem_cons.mp h with rfl | h
        · exact .inr List.mem_cons_self
        · exact (ih h).imp_right (List.mem_cons_of_mem d)

theorem pairwise_setChild (s : String) (c : PathTree) (h : cs.Pairwise fun a b => a.1 < b.1) :
    (setChild s c cs).Pairwise fun a b => a.1 < b.1 := by
  induction cs with
  | nil => exact List.pairwise_singleton _ _
  | cons d cs ih =>
    obtain ⟨hd, hcs⟩ := List.pairwise_cons.mp h
    rcases lt_trichotomy s d.1 with hlt | heq | hgt
    · rw [setChild, if_pos hlt]
      refine List.pairwise_cons.mpr ⟨fun e he => ?_, h⟩
      rcases List.mem_cons.mp he with rfl | he
      · exact hlt
      · exact hlt.trans (hd e he)
    · rw [setChild, if_neg heq.not_lt, if_pos heq]
      exact List.pairwise_cons.mpr ⟨fun e he => heq ▸ hd e he, hcs⟩
    · rw [setChild, if_neg hgt.not_gt, if_neg hgt.ne']
      refine List.pairwise_cons.mpr ⟨fun e he => ?_, ih hcs⟩
      rcases mem_setChild he with rfl | he
      · exact hgt
      · exact hd e he

theorem ordered_empty : Ordered empty :=
  .of .nil fun _ he => absurd he List.not_mem_nil

theorem mem_children_of_child? (h : t.child? s = some c) : (s, c) ∈ t.children := by
  obtain ⟨e, he, rfl⟩ := Option.map_eq_some_iff.mp h
  obtain rfl : e.1 = s := by simpa using List.find?_some he
  exact List.mem_of_find?_eq_some he

theorem Ordered.child (h : Ordered t) (hc : (s, c) ∈ t.children) : Ordered c := by
  cases h with
  | of _ hchildren => exact hchildren _ hc

theorem Ordered.insert (h : Ordered t) (p : List String) : Ordered (t.insert p).2 := by
  induction p generalizing t with
  | nil => exact h
  | cons s p ih =>
    have hbelow : Ordered ((t.child? s).getD empty) := by
      cases hs : t.child? s with
      | none => exact ordered_empty
      | some c => exact h.child (mem_children_of_child? hs)
    cases h with
    | of hnames hchildren =>
      refine .of (pairwise_setChild s _ hnames) fun e he => ?_
      rcases mem_setChild he with rfl | he
      · exact ih hbelow
      · exact hchildren e he

theorem child?_eq_some_iff (hnames : cs.Pairwise fun a b => a.1 < b.1) :
    (node cs).child? s = some c ↔ (s, c) ∈ cs := by
  refine ⟨mem_children_of_child?, fun hc => ?_⟩
  induction cs with
  | nil => cases hc
  | cons d cs ih =>
    obtain ⟨hd, hcs⟩ := List.pairwise_cons.mp hnames
    rcases List.mem_cons.mp hc with rfl | hc
    · simp [child?, children]
    · have hne : d.1 ≠ s := (hd _ hc).ne
      simpa [child?, children, hne] using ih hcs hc

theorem eq_of_child?_eq {cs' : List (String × PathTree)}
    (hnames : cs.Pairwise fun a b => a.1 < b.1) (hnames' : cs'.Pairwise fun a b => a.1 < b.1)
    (h : ∀ s, (node cs).child? s = (node cs').child? s) : cs = cs' := by
  have : Std.Irrefl fun a b : String × PathTree => a.1 < b.1 := ⟨fun a => lt_irrefl a.1⟩
  have : Std.Antisymm fun a b : String × PathTree => a.1 < b.1 :=
    ⟨fun a b hab hba => absurd hba hab.not_gt⟩
  apply hnames.eq_of_mem_iff hnames'
  rintro ⟨s, c⟩
  rw [← child?_eq_some_iff hnames, ← child?_eq_some_iff hnames', h]

/-- Ordered trees with the same paths are the same tree. -/
theorem Ordered.ext (h : Ordered t) (h' : Ordered t')
    (hpaths : ∀ q, t.contains q = true ↔ t'.contains q = true) : t = t' := by
  induction h generalizing t' with
  | @of cs hnames hchildren ih =>
    cases h' with
    | @of cs' hnames' hchildren' =>
      refine congrArg node (eq_of_child?_eq hnames hnames' fun s => ?_)
      cases hc : (node cs).child? s with
      | none =>
        cases hc' : (node cs').child? s with
        | none => rfl
        | some c' =>
          obtain ⟨c, hfound, _⟩ :=
            contains_cons.mp ((hpaths [s]).mpr (contains_cons.mpr ⟨c', hc', rfl⟩))
          rw [hc] at hfound
          cases hfound
      | some c =>
        obtain ⟨c', hc', _⟩ :=
          contains_cons.mp ((hpaths [s]).mp (contains_cons.mpr ⟨c, hc, rfl⟩))
        rw [hc']
        -- What the two children contain shows below their common name.
        have hbelow (q : List String) : c.contains q = true ↔ c'.contains q = true := by
          simpa [contains_cons, hc, hc'] using hpaths (s :: q)
        have hmem := mem_children_of_child? hc
        exact congrArg some (ih _ hmem (hchildren' _ (mem_children_of_child? hc')) hbelow)

/-- Adds paths one after the other, with the answers of the insertions. -/
def insertAll : List (List String) → PathTree → List Bool × PathTree
  | [], t => ([], t)
  | p :: ps, t =>
    let added := t.insert p
    let rest := insertAll ps added.2
    (added.1 :: rest.1, rest.2)

theorem insertAll_append (ps ps' : List (List String)) (t : PathTree) :
    insertAll (ps ++ ps') t =
      ((insertAll ps t).1 ++ (insertAll ps' (insertAll ps t).2).1,
        (insertAll ps' (insertAll ps t).2).2) := by
  induction ps generalizing t with
  | nil => rfl
  | cons p ps ih =>
    rw [List.cons_append, insertAll, ih]
    rfl

theorem length_insertAll (ps : List (List String)) (t : PathTree) :
    (insertAll ps t).1.length = ps.length := by
  induction ps generalizing t with
  | nil => rfl
  | cons p ps ih => exact congrArg (· + 1) (ih _)

theorem Ordered.insertAll (h : Ordered t) (ps : List (List String)) :
    Ordered (insertAll ps t).2 := by
  induction ps generalizing t with
  | nil => exact h
  | cons p ps ih => exact ih (h.insert p)

theorem contains_insertAll {ps : List (List String)} {q : List String} :
    (insertAll ps t).2.contains q = true ↔ t.contains q = true ∨ ∃ p ∈ ps, q <+: p := by
  induction ps generalizing t with
  | nil => simp [insertAll]
  | cons p ps ih =>
    rw [insertAll, ih, contains_insert, or_assoc]
    simp

theorem Ordered.insertAll_congr (h : Ordered t) {ps ps' : List (List String)}
    (hps : ∀ q, (t.contains q = true ∨ ∃ p ∈ ps, q <+: p) ↔
      t.contains q = true ∨ ∃ p ∈ ps', q <+: p) :
    (PathTree.insertAll ps t).2 = (PathTree.insertAll ps' t).2 := by
  apply (h.insertAll ps).ext (h.insertAll ps')
  intro q
  rw [contains_insertAll, contains_insertAll, hps]

/-- Whatever paths are inserted into the empty tree, it then contains the root and the prefixes of
these paths, and nothing else. Each insertion has told whether its path was new, which the root
never is. The same paths in another order leave the same tree, and so do further insertions of paths
that are there. -/
theorem insertAll_represents (ps : List (List String)) :
    (∀ q, (insertAll ps empty).2.contains q = true ↔ q = [] ∨ ∃ p ∈ ps, q <+: p) ∧
    (insertAll ps empty).1.length = ps.length ∧
    (∀ front p back, ps = front ++ p :: back →
      ((insertAll ps empty).1[front.length]? = some true ↔
        p ≠ [] ∧ (insertAll front empty).2.contains p = false)) ∧
    (∀ ps', ps'.Perm ps → (insertAll ps' empty).2 = (insertAll ps empty).2) ∧
    ∀ more, (∀ p ∈ more, (insertAll ps empty).2.contains p = true) →
      (insertAll (ps ++ more) empty).2 = (insertAll ps empty).2 := by
  refine ⟨fun q => ?_, length_insertAll ps empty, ?_, ?_, ?_⟩
  · rw [contains_insertAll, contains_empty]
  · rintro front p back rfl
    rw [insertAll_append, List.getElem?_append_right (length_insertAll front empty).le,
      length_insertAll, Nat.sub_self, insertAll, List.getElem?_cons_zero, Option.some.injEq]
    exact insert_fst_eq_true
  · intro ps' hperm
    exact ordered_empty.insertAll_congr fun q => by simp only [hperm.mem_iff]
  · intro more hmore
    refine ordered_empty.insertAll_congr fun q => ?_
    simp only [List.mem_append, or_and_right, exists_or]
    refine ⟨fun h => ?_, fun h => h.imp_right .inl⟩
    rcases h with h | h | ⟨p, hp, hq⟩
    · exact .inl h
    · exact .inr h
    · have hcontained := contains_of_prefix (hmore p hp) hq
      exact contains_insertAll.mp hcontained

/-- Two branches, and then a stem and the root, which are there already. -/
def branchSample : List (List String) := [["a", "b"], ["c"], ["a"], []]

theorem branchSample_represented :
    (insertAll branchSample empty).1 = [true, true, false, false] ∧
      (insertAll branchSample empty).2.contains ["a"] = true ∧
      (insertAll branchSample empty).2.contains ["b"] = false ∧
      (insertAll [["a", "b"]] empty).2.contains ["c"] = false ∧
      (insertAll branchSample.reverse empty).2 = (insertAll branchSample empty).2 ∧
      (insertAll (branchSample ++ [["a"], ["c"]]) empty).2 = (insertAll branchSample empty).2 := by
  obtain ⟨hcontains, _, hanswers, horder, hmore⟩ := insertAll_represents branchSample
  have hstem : (insertAll branchSample empty).2.contains ["a"] = true :=
    (hcontains ["a"]).mpr (.inr ⟨["a", "b"], by decide, by decide⟩)
  have hnew := (hanswers [["a", "b"]] ["c"] [["a"], []] rfl).mp rfl
  refine ⟨rfl, hstem, ?_, hnew.2, horder _ (List.reverse_perm _), hmore _ ?_⟩
  · rw [← Bool.not_eq_true, hcontains]
    decide
  · simp only [List.forall_mem_cons, List.not_mem_nil, false_imp_iff, implies_true, and_true]
    exact ⟨hstem, (hcontains ["c"]).mpr (.inr ⟨["c"], by decide, by decide⟩)⟩

end ScriptBindings.PathTree
