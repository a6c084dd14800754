import ScriptBindings.Proofs.Files.Writing

namespace ScriptBindings.FileTree

variable {t t' : FileTree} {l : Location} {ls : List Location} {path other text : String}

theorem Grows.newDirectories_eq (h : t.Grows t') (path : String) :
    t'.newDirectories path = t.newDirectories path := by
  rw [newDirectories, newDirectories, visited, visited, h.start_eq]

theorem addDirectories_of_forall (h : ∀ l ∈ ls, t.isDirectory l) :
    addDirectories ls t = (.ok (), t) := by
  induction ls with
  | nil => rfl
  | cons l ls ih =>
    rw [addDirectories, if_pos (h l List.mem_cons_self)]
    exact ih fun k hk => h k (List.mem_cons_of_mem l hk)

theorem isDirectory_of_addDirectories (h : addDirectories ls t = (.ok (), t')) :
    ∀ l ∈ ls, t'.isDirectory l := by
  induction ls generalizing t with
  | nil => exact fun l hl => absurd hl List.not_mem_nil
  | cons l ls ih =>
    have hall {t₁ : FileTree} (hl : t₁.isDirectory l) (h : addDirectories ls t₁ = (.ok (), t')) :
        ∀ k ∈ l :: ls, t'.isDirectory k := by
      have hgrows := (addDirectories_grows ls t₁).1
      rw [h] at hgrows
      exact List.forall_mem_cons.mpr ⟨hgrows.isDirectory hl, ih h⟩
    obtain ⟨hl, heq⟩ | ⟨e, heq⟩ | ⟨_, heq⟩ := addDirectories_cons l ls t
    · exact hall hl (heq ▸ h)
    · rw [heq] at h
      cases (Prod.ext_iff.mp h).1
    · refine hall (isDirectory_iff.mpr (.inr ?_)) (heq ▸ h)
      exact List.mem_append_right _ (List.mem_singleton_self l)

theorem not_isDirectory_addDirectories (hfile : t.isFile l) (hl : ¬ t.isDirectory l)
    (ls : List Location) : ¬ (addDirectories ls t).2.isDirectory l := by
  induction ls generalizing t with
  | nil => exact hl
  | cons k ls ih =>
    obtain ⟨_, heq⟩ | ⟨e, heq⟩ | ⟨hk, heq⟩ := addDirectories_cons k ls t
    · rw [heq]
      exact ih hfile hl
    · rwa [heq]
    · rw [heq]
      refine ih hfile fun hadded => ?_
      rw [isDirectory_iff, List.mem_append, List.mem_singleton, ← or_assoc,
        ← isDirectory_iff] at hadded
      rcases hadded with hold | rfl
      · exact hl hold
      · exact hk hfile

theorem makeDirectories_eq_ok : t.makeDirectories path = (.ok (), t') ↔
    Path.isValid path ∧ addDirectories (t.newDirectories path) t = (.ok (), t') ∧
      t'.isDirectory (t'.locate path) := by
  unfold makeDirectories
  by_cases hpath : Path.isValid path
  · rw [if_pos hpath]
    cases hadded : addDirectories (t.newDirectories path) t with
    | mk outcome t₁ =>
      cases outcome with
      | ok _ =>
        by_cases hl : t₁.isDirectory (t₁.locate path)
        · simp only [hl, if_true, hpath, true_and, Prod.mk.injEq]
          exact ⟨fun h => ⟨h, h ▸ hl⟩, fun h => h.1⟩
        · simp only [hl, if_false, hpath, true_and, Prod.mk.injEq, reduceCtorEq, false_and,
            false_iff, not_and]
          rintro rfl
          exact hl
      | error e => simp
  · simp [hpath]

/-- A file is at the path, and all that it takes to replace it. -/
structure Rewritable (t : FileTree) (path : String) : Prop where
  isValid_parent : Path.isValid (Path.parent path)
  isDirectory_new : ∀ l ∈ t.newDirectories (Path.parent path), t.isDirectory l
  isDirectory_parent : t.isDirectory (t.locate (Path.parent path))
  reaches : t.reaches path
  isValid_location : (t.locate path).isValid
  isFile : t.isFile (t.locate path)
  not_isDirectory : ¬ t.isDirectory (t.locate path)

/-- Nothing but the text is replaced. -/
theorem Rewritable.ends_save (h : t.Rewritable path) (text : String) :
    (storage.save path text).Ends t (.ok ())
      { t with files := t.files.insert (t.locate path) text } := by
  have hmake : t.makeDirectories (Path.parent path) = (.ok (), t) :=
    makeDirectories_eq_ok.mpr
      ⟨h.isValid_parent, addDirectories_of_forall h.isDirectory_new, h.isDirectory_parent⟩
  refine ends_save_ok.mpr ⟨t, hmake, write_eq_ok.mpr ?_⟩
  exact ⟨h.reaches, h.not_isDirectory, h.isValid_location, rfl⟩

theorem rewritable_of_save (h : (storage.save path text).Ends t (.ok ()) t') :
    t'.Rewritable path := by
  obtain ⟨t₁, hmake, hwrite⟩ := ends_save_ok.mp h
  obtain ⟨hvalid, hadded, hparent⟩ := makeDirectories_eq_ok.mp hmake
  obtain ⟨hreaches, hnew, hlocation, rfl⟩ := write_eq_ok.mp hwrite
  have hmade := (makeDirectories_grows (Path.parent path) t).1
  rw [hmake] at hmade
  have hwritten : t₁.Grows { t₁ with files := t₁.files.insert (t₁.locate path) text } :=
    ⟨rfl, List.Subset.refl _⟩
  refine ⟨hvalid, ?_, hparent, hwritten.reaches hreaches, hlocation, ?_, hnew⟩
  · rw [(hmade.trans hwritten).newDirectories_eq]
    exact fun l hl => hwritten.isDirectory (isDirectory_of_addDirectories hadded l hl)
  · exact decide_eq_true (Dictionary.mem_keys_put.mpr (.inl rfl))

theorem isFile_of_save (hfile : t.isFile l) (hl : ¬ t.isDirectory l)
    (h : (storage.save other text).Ends t (.ok ()) t') : t'.isFile l ∧ ¬ t'.isDirectory l := by
  obtain ⟨t₁, hmake, hwrite⟩ := ends_save_ok.mp h
  obtain ⟨_, hadded, _⟩ := makeDirectories_eq_ok.mp hmake
  have hfiles := (addDirectories_grows (t.newDirectories (Path.parent other)) t).2
  have hkept := not_isDirectory_addDirectories hfile hl (t.newDirectories (Path.parent other))
  rw [hadded] at hfiles hkept
  obtain ⟨_, _, _, rfl⟩ := write_eq_ok.mp hwrite
  refine ⟨decide_eq_true (Dictionary.mem_keys_put.mpr (.inr ?_)), hkept⟩
  exact hfiles ▸ of_decide_eq_true hfile

theorem Rewritable.of_save (h : t.Rewritable path)
    (hsave : (storage.save other text).Ends t (.ok ()) t') : t'.Rewritable path := by
  have hgrows := (Written.of_save hsave).grows
  obtain ⟨hfile, hnew⟩ := isFile_of_save h.isFile h.not_isDirectory hsave
  rw [← hgrows.locate_eq] at hfile hnew
  refine ⟨h.isValid_parent, ?_, ?_, hgrows.reaches h.reaches, ?_, hfile, hnew⟩
  · rw [hgrows.newDirectories_eq]
    exact fun l hl => hgrows.isDirectory (h.isDirectory_new l hl)
  · rw [hgrows.locate_eq]
    exact hgrows.isDirectory h.isDirectory_parent
  · rw [hgrows.locate_eq]
    exact h.isValid_location

variable {files : List (String × String)}

theorem Rewritable.of_saves (h : t.Rewritable path) (hsaves : Saves files t t') :
    t'.Rewritable path := by
  induction hsaves with
  | nil => exact h
  | cons hsave _ ih => exact ih (h.of_save hsave)

theorem Saves.rewritable (h : Saves files t t') : ∀ f ∈ files, t'.Rewritable f.1 := by
  induction h with
  | nil => exact fun f hf => absurd hf List.not_mem_nil
  | cons hsave hrest ih =>
    exact List.forall_mem_cons.mpr ⟨(rewritable_of_save hsave).of_saves hrest, ih⟩

theorem saves_of_rewritable (h : ∀ f ∈ files, t.Rewritable f.1) :
    Saves files t
      { t with files := t.files.insertAll (files.map fun f => (t.locate f.1, f.2)) } := by
  induction files generalizing t with
  | nil => exact .nil
  | cons f files ih =>
    have hsave := (h f List.mem_cons_self).ends_save f.2
    exact .cons hsave (ih fun g hg => (h g (List.mem_cons_of_mem f hg)).of_save hsave)

theorem Saves.keys_eq (h : ∀ f ∈ files, t.Rewritable f.1) (hsaves : Saves files t t') :
    t'.files.keys = t.files.keys := by
  rw [hsaves.written.files_eq]
  refine Dictionary.keys_insertAll fun e he => ?_
  obtain ⟨f, hf, rfl⟩ := List.mem_map.mp he
  exact of_decide_eq_true (h f hf).isFile

/-- Files that have been written in turn can be written in turn again, without any change. -/
theorem Saves.again (h : Saves files t t') : Saves files t' t' := by
  have hsaves := saves_of_rewritable h.rewritable
  have hfiles : t'.files.insertAll (files.map fun f => (t'.locate f.1, f.2)) = t'.files := by
    simp only [h.written.grows.locate_eq]
    rw [h.written.files_eq, Dictionary.insertAll_insertAll]
  rwa [hfiles] at hsaves

end ScriptBindings.FileTree
