import Mathlib.Data.List.Nodup
import ScriptBindings.Proofs.Files.Path
import ScriptBindings.Proofs.Files.Writing

namespace ScriptBindings

namespace Location

theorem before_total (l k : Location) : (before l k || before k l) = true := by
  induction l generalizing k with
  | nil => rfl
  | cons a l ih =>
    cases k with
    | nil => rfl
    | cons b k =>
      by_cases hab : a = b
      · simpa [before, hab] using ih k
      · have horder : a < b ∨ b < a := by
          by_contra hneither
          rw [not_or, String.not_lt, String.not_lt] at hneither
          exact hab (String.le_antisymm hneither.2 hneither.1)
        simpa [before, hab, Ne.symm hab] using horder

theorem before_trans {l k j : Location} (h : before l k = true) (h' : before k j = true) :
    before l j = true := by
  induction l generalizing k j with
  | nil => rfl
  | cons a l ih =>
    obtain _ | ⟨b, k⟩ := k
    · cases h
    obtain _ | ⟨c, j⟩ := j
    · cases h'
    by_cases hab : a = b
    · subst hab
      by_cases hac : a = c
      · subst hac
        simp only [before, if_true] at h h' ⊢
        exact ih h h'
      · simpa [before, hac] using h'
    · by_cases hbc : b = c
      · subst hbc
        simpa [before, hab] using h
      · simp only [before, hab, hbc, if_false, decide_eq_true_eq] at h h'
        have hac : a < c := String.lt_trans h h'
        have hne : a ≠ c := fun he => String.lt_irrefl c (he ▸ hac)
        simpa [before, hne] using hac

theorem before_antisymm {l k : Location} (h : before l k = true) (h' : before k l = true) :
    l = k := by
  induction l generalizing k with
  | nil =>
    cases k with
    | nil => rfl
    | cons b k => cases h'
  | cons a l ih =>
    obtain _ | ⟨b, k⟩ := k
    · cases h
    by_cases hab : a = b
    · subst hab
      simp only [before, if_true] at h h'
      rw [ih h h']
    · simp only [before, hab, Ne.symm hab, if_false, decide_eq_true_eq] at h h'
      exact absurd h' (String.lt_asymm h)

theorem pairwise_mergeSort (ls : List Location) :
    (ls.mergeSort before).Pairwise fun l k => before l k = true := by
  have htrans (l k j : Location) (h : before l k = true) (h' : before k j = true) :
      before l j = true := before_trans h h'
  exact List.pairwise_mergeSort htrans before_total ls

theorem filter_mergeSort (p : Location → Bool) (ls : List Location) :
    (ls.mergeSort before).filter p = (ls.filter p).mergeSort before := by
  apply List.Perm.eq_of_pairwise (fun _ _ _ _ => before_antisymm)
    ((pairwise_mergeSort ls).filter p) (pairwise_mergeSort (ls.filter p))
  have hall := (List.mergeSort_perm ls before).filter p
  exact hall.trans (List.mergeSort_perm (ls.filter p) before).symm

end Location

namespace FileTree

variable {t t' : FileTree} {path : String}

/-- The names that lead from a location to the files below it, as far as they satisfy `p`. -/
def selectBelow (t : FileTree) (p : List String → Bool) (l : Location) : List (List String) :=
  (t.files.keys.filterMap (Path.below l)).filter p

theorem walk_eq_ok_iff {visits : List Visit} : t.walk path = .ok visits ↔
    ((t.directories.filterMap (Path.below (t.locate path))).all fun names =>
      Path.isValid (names.foldl Path.join path)) ∧
    visits = ((t.entriesBelow (t.locate path)).mergeSort fun v v' =>
      Location.before v.names v'.names).map (Visit.under (Path.parts path)) := by
  simp only [walk]
  split
  · rename_i hvalid
    rw [Except.ok.injEq, and_iff_right hvalid]
    exact eq_comm
  · rename_i hlong
    exact iff_of_false (fun h => nomatch h) (fun h => hlong h.1)

theorem exists_walk_iff : (∃ visits, t.walk path = .ok visits) ↔
    (t.directories.filterMap (Path.below (t.locate path))).all fun names =>
      Path.isValid (names.foldl Path.join path) := by
  simp only [walk_eq_ok_iff, exists_and_left, exists_eq, and_true]

theorem pairwise_sortedVisits (vs : List Visit) :
    (vs.mergeSort fun v v' => Location.before v.names v'.names).Pairwise fun v v' =>
      Location.before v.names v'.names = true := by
  apply List.pairwise_mergeSort
  · intro u v w huv hvw
    exact Location.before_trans huv hvw
  · intro v v'
    exact Location.before_total v.names v'.names

theorem regular_entriesBelow (t : FileTree) (l : Location) :
    ((t.entriesBelow l).filter Visit.isRegular).map Visit.names =
      t.files.keys.filterMap (Path.below l) := by
  have hdirectories (ls : List (List String)) :
      (ls.map fun names => Visit.mk names false).filter Visit.isRegular = [] := by
    simp [List.filter_eq_nil_iff]
  have hfiles (ls : List (List String)) :
      ((ls.map fun names => Visit.mk names true).filter Visit.isRegular).map Visit.names = ls := by
    rw [List.filter_eq_self.mpr (by simp), List.map_map]
    exact List.map_id ls
  rw [entriesBelow, List.filter_append, hdirectories, List.nil_append, hfiles]

/-- The files that a walk visits are in the order of the names that lead to them. -/
theorem filter_regular_walk (t : FileTree) (p : List String → Bool) (l : Location) :
    ((((t.entriesBelow l).mergeSort fun v v' => Location.before v.names v'.names).filter
        Visit.isRegular).map Visit.names).filter p =
      (t.selectBelow p l).mergeSort Location.before := by
  rw [selectBelow, ← Location.filter_mergeSort]
  congr 1
  apply List.Perm.eq_of_pairwise (fun _ _ _ _ => Location.before_antisymm) _
    (Location.pairwise_mergeSort _)
  · rw [← regular_entriesBelow]
    have hperm := List.mergeSort_perm (t.entriesBelow l) fun v v' =>
      Location.before v.names v'.names
    exact ((hperm.filter _).map _).trans (List.mergeSort_perm _ _).symm
  · exact List.pairwise_map.mpr ((pairwise_sortedVisits _).filter _)

theorem selectBelow_insert {p : List String → Bool} {directory l : Location} {text : String}
    (hfiles : t'.files = t.files.insert l text)
    (hp : ∀ names, l = directory ++ names → p names = false) :
    t'.selectBelow p directory = t.selectBelow p directory := by
  unfold selectBelow
  rw [hfiles, Dictionary.keys_insert]
  split
  · rfl
  · rw [List.filterMap_append, List.filter_append, List.append_right_eq_self]
    cases hbelow : Path.below directory l with
    | none => simp [hbelow]
    | some names => simp [hbelow, hp names (Path.below_eq_some.mp hbelow)]

theorem mem_selectBelow {p : List String → Bool} {directory : Location} {names : List String} :
    names ∈ t.selectBelow p directory ↔ directory ++ names ∈ t.files.keys ∧ p names = true := by
  simp only [selectBelow, List.mem_filter, List.mem_filterMap, Path.below_eq_some]
  constructor
  · rintro ⟨⟨l, hl, rfl⟩, hp⟩
    exact ⟨hl, hp⟩
  · rintro ⟨hl, hp⟩
    exact ⟨⟨_, hl, rfl⟩, hp⟩

theorem nodup_selectBelow (t : FileTree) (p : List String → Bool) (l : Location) :
    (t.selectBelow p l).Nodup := by
  apply List.Nodup.filter p
  apply t.files.nodup.filterMap
  intro k k' names hk hk'
  rw [Path.below_eq_some.mp hk, Path.below_eq_some.mp hk']

theorem Grows.exists? (h : t.Grows t') (hfiles : t.files.keys ⊆ t'.files.keys)
    (hpath : t.exists? path) : t'.exists? path := by
  rw [FileTree.exists?, Bool.and_eq_true, Bool.or_eq_true] at hpath ⊢
  rw [h.locate_eq]
  refine ⟨h.reaches hpath.1, hpath.2.imp h.isDirectory fun hfile => ?_⟩
  exact decide_eq_true (hfiles (of_decide_eq_true hfile))

theorem Grows.exists_walk (h : t.Grows t') (hlist : ∃ visits, t'.walk path = .ok visits) :
    ∃ visits, t.walk path = .ok visits := by
  rw [exists_walk_iff, List.all_eq_true] at hlist ⊢
  rw [h.locate_eq] at hlist
  intro names hnames
  obtain ⟨l, hl, hbelow⟩ := List.mem_filterMap.mp hnames
  exact hlist names (List.mem_filterMap.mpr ⟨l, h.directories_subset hl, hbelow⟩)

end FileTree

end ScriptBindings
