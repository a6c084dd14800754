import ScriptBindings.Files.Storage
import ScriptBindings.Proofs.Dictionary
import ScriptBindings.Proofs.Task

namespace ScriptBindings

theorem Storage.ends_attempt_ok {σ α : Type} {path : String} {x : StateM σ (Except String α)}
    {s s' : σ} {a : α} : (Storage.attempt path x).Ends s (.ok a) s' ↔ x s = (.ok a, s') := by
  change ((x s).1.mapError (BindError.file path) = .ok a ∧ (x s).2 = s') ↔ _
  rw [Prod.ext_iff]
  apply and_congr_left
  intro _
  cases (x s).1 with
  | ok b => simp [Except.mapError]
  | error e => simp [Except.mapError]

namespace FileTree

variable {t t₁ t' : FileTree} {path text : String}

theorem isDirectory_iff {l : Location} : t.isDirectory l ↔ l = [] ∨ l ∈ t.directories := by
  rw [isDirectory, Bool.or_eq_true, decide_eq_true_iff, decide_eq_true_iff]

theorem reaches_iff :
    t.reaches path ↔ Path.isValid path ∧ ∀ l ∈ t.passed path, t.isDirectory l := by
  rw [reaches, Bool.and_eq_true, List.all_eq_true]

/-- Paths lead where they did, and every directory is still there. -/
structure Grows (t t' : FileTree) : Prop where
  workingDirectory_eq : t'.workingDirectory = t.workingDirectory
  directories_subset : t.directories ⊆ t'.directories

theorem Grows.refl (t : FileTree) : t.Grows t := ⟨rfl, List.Subset.refl _⟩

theorem Grows.trans (h : t.Grows t₁) (h' : t₁.Grows t') : t.Grows t' :=
  ⟨h'.workingDirectory_eq.trans h.workingDirectory_eq,
    List.Subset.trans h.directories_subset h'.directories_subset⟩

theorem Grows.start_eq (h : t.Grows t') (path : String) : t'.start path = t.start path := by
  rw [start, start, h.workingDirectory_eq]

theorem Grows.locate_eq (h : t.Grows t') (path : String) : t'.locate path = t.locate path := by
  rw [locate, locate, h.start_eq]

theorem Grows.passed_eq (h : t.Grows t') (path : String) : t'.passed path = t.passed path := by
  rw [passed, passed, visited, visited, h.start_eq]

theorem Grows.isDirectory (h : t.Grows t') {l : Location} (hl : t.isDirectory l) :
    t'.isDirectory l :=
  isDirectory_iff.mpr ((isDirectory_iff.mp hl).imp_right (h.directories_subset ·))

theorem Grows.reaches (h : t.Grows t') (hp : t.reaches path) : t'.reaches path := by
  obtain ⟨hpath, hpassed⟩ := reaches_iff.mp hp
  refine reaches_iff.mpr ⟨hpath, fun l hl => h.isDirectory (hpassed l ?_)⟩
  rwa [← h.passed_eq]

theorem read_eq_ok :
    t.read path = .ok text ↔ t.reaches path ∧ t.files.get? (t.locate path) = some text := by
  unfold read
  by_cases h : t.reaches path
  · rw [if_pos h]
    cases t.files.get? (t.locate path) with
    | some found => simp [h]
    | none => simp
  · simp [h]

theorem grows_directories_concat (t : FileTree) (l : Location) :
    t.Grows { t with directories := t.directories ++ [l] } :=
  ⟨rfl, List.subset_append_left _ _⟩

theorem addDirectories_cons (l : Location) (ls : List Location) (t : FileTree) :
    (t.isDirectory l ∧ addDirectories (l :: ls) t = addDirectories ls t) ∨
      (∃ e, addDirectories (l :: ls) t = (.error e, t)) ∨
      (¬ t.isFile l ∧ addDirectories (l :: ls) t =
        addDirectories ls { t with directories := t.directories ++ [l] }) := by
  rw [addDirectories]
  split
  · exact .inl ⟨‹_›, rfl⟩
  split
  · exact .inr (.inl ⟨_, rfl⟩)
  · rename_i hfile
    split
    · exact .inr (.inr ⟨hfile, rfl⟩)
    · exact .inr (.inl ⟨_, rfl⟩)

/-- Directories are added without a change to any file, even where not all can be added. -/
theorem addDirectories_grows (ls : List Location) (t : FileTree) :
    t.Grows (addDirectories ls t).2 ∧ (addDirectories ls t).2.files = t.files := by
  induction ls generalizing t with
  | nil => exact ⟨.refl t, rfl⟩
  | cons l ls ih =>
    obtain ⟨_, heq⟩ | ⟨e, heq⟩ | ⟨_, heq⟩ := addDirectories_cons l ls t
    · rw [heq]
      exact ih t
    · rw [heq]
      exact ⟨.refl t, rfl⟩
    · rw [heq]
      obtain ⟨hgrows, hfiles⟩ := ih { t with directories := t.directories ++ [l] }
      exact ⟨(grows_directories_concat t l).trans hgrows, hfiles⟩

theorem snd_makeDirectories (path : String) (t : FileTree) : (t.makeDirectories path).2 =
    if Path.isValid path then (addDirectories (t.newDirectories path) t).2 else t := by
  unfold makeDirectories
  split
  · cases addDirectories (t.newDirectories path) t with
    | mk outcome t₁ =>
      cases outcome with
      | ok _ => rfl
      | error e => rfl
  · rfl

theorem makeDirectories_grows (path : String) (t : FileTree) :
    t.Grows (t.makeDirectories path).2 ∧ (t.makeDirectories path).2.files = t.files := by
  rw [snd_makeDirectories]
  split
  · exact addDirectories_grows (t.newDirectories path) t
  · exact ⟨.refl t, rfl⟩

theorem write_eq_ok : t.write path text = (.ok (), t') ↔
    t.reaches path ∧ ¬ t.isDirectory (t.locate path) ∧ (t.locate path).isValid ∧
      t' = { t with files := t.files.insert (t.locate path) text } := by
  unfold write
  by_cases hr : t.reaches path
  · by_cases hd : t.isDirectory (t.locate path)
    · simp [hr, hd]
    · by_cases hv : (t.locate path).isValid
      · simp [hr, hd, hv, eq_comm]
      · simp [hr, hd, hv]
  · simp [hr]

theorem eq_of_write_eq_error {e : String} (h : t.write path text = (.error e, t')) : t' = t := by
  unfold write at h
  by_cases hr : t.reaches path
  · by_cases hd : t.isDirectory (t.locate path)
    · simp_all
    · by_cases hv : (t.locate path).isValid
      · simp [hr, hd, hv] at h
      · simp_all
  · simp_all

/-- How a tree relates to one into which some texts have been written, each at its path. -/
structure Written (files : List (String × String)) (t t' : FileTree) : Prop where
  grows : t.Grows t'
  reaches : ∀ f ∈ files, t'.reaches f.1
  files_eq : t'.files = t.files.insertAll (files.map fun f => (t.locate f.1, f.2))

/-- Files at one location have one text. -/
def Agree (t : FileTree) (files : List (String × String)) : Prop :=
  ∀ f ∈ files, ∀ g ∈ files, t.locate f.1 = t.locate g.1 → f.2 = g.2

variable {files more : List (String × String)}

theorem Written.nil (t : FileTree) : Written [] t t :=
  ⟨.refl t, fun _ h => absurd h List.not_mem_nil, rfl⟩

theorem Written.append (h : Written files t t₁) (h' : Written more t₁ t') :
    Written (files ++ more) t t' := by
  refine ⟨h.grows.trans h'.grows, ?_, ?_⟩
  · intro f hf
    rcases List.mem_append.mp hf with hf | hf
    · exact h'.grows.reaches (h.reaches f hf)
    · exact h'.reaches f hf
  · rw [h'.files_eq, h.files_eq, List.map_append, Dictionary.insertAll_append]
    simp only [h.grows.locate_eq]

theorem Written.read_last (h : Written (files ++ [(path, text)]) t t') :
    t'.read path = .ok text := by
  refine read_eq_ok.mpr ⟨h.reaches (path, text) (by simp), ?_⟩
  rw [h.grows.locate_eq, h.files_eq, List.map_append]
  exact Dictionary.get?_insertAll_concat _ _ _ _

theorem Written.read_iff (h : Written files t t') :
    (∀ f ∈ files, t'.read f.1 = .ok f.2) ↔ t.Agree files := by
  have hread : (∀ f ∈ files, t'.read f.1 = .ok f.2) ↔
      ∀ f ∈ files, t'.files.get? (t.locate f.1) = some f.2 := by
    apply forall₂_congr
    intro f hf
    rw [read_eq_ok, h.grows.locate_eq]
    exact and_iff_right (h.reaches f hf)
  have hall := t.files.get?_insertAll_iff (files.map fun f => (t.locate f.1, f.2))
  rw [hread, h.files_eq]
  simpa only [List.forall_mem_map, Agree] using hall

theorem storage_makeDirectories (path : String) (t : FileTree) :
    storage.makeDirectories path t = t.makeDirectories path := rfl

theorem storage_write (path text : String) (t : FileTree) :
    storage.write path text t = t.write path text := rfl

theorem ends_save_ok : (storage.save path text).Ends t (.ok ()) t' ↔
    ∃ t₁, t.makeDirectories (Path.parent path) = (.ok (), t₁) ∧
      t₁.write path text = (.ok (), t') := by
  simp only [Storage.save, Task.ends_bind_ok, Storage.ends_attempt_ok, storage_makeDirectories,
    storage_write]
  constructor
  · rintro ⟨_, t₁, hmake, hwrite⟩
    exact ⟨t₁, hmake, hwrite⟩
  · rintro ⟨t₁, hmake, hwrite⟩
    exact ⟨(), t₁, hmake, hwrite⟩

/-- Whether a file can be written does not depend on its text. -/
theorem exists_ends_save (other : String) (h : (storage.save path text).Ends t (.ok ()) t') :
    ∃ t'', (storage.save path other).Ends t (.ok ()) t'' := by
  obtain ⟨t₁, hmake, hwrite⟩ := ends_save_ok.mp h
  obtain ⟨hreaches, hnew, hvalid, _⟩ := write_eq_ok.mp hwrite
  exact ⟨_, ends_save_ok.mpr ⟨t₁, hmake, write_eq_ok.mpr ⟨hreaches, hnew, hvalid, rfl⟩⟩⟩

theorem Written.of_save (h : (storage.save path text).Ends t (.ok ()) t') :
    Written [(path, text)] t t' := by
  obtain ⟨t₁, hmake, hwrite⟩ := ends_save_ok.mp h
  obtain ⟨hgrows, hfiles⟩ := makeDirectories_grows (Path.parent path) t
  rw [hmake] at hgrows hfiles
  obtain ⟨hreaches, _, _, rfl⟩ := write_eq_ok.mp hwrite
  have hgrows' : t₁.Grows { t₁ with files := t₁.files.insert (t₁.locate path) text } :=
    ⟨rfl, List.Subset.refl _⟩
  refine ⟨hgrows.trans hgrows', ?_, ?_⟩
  · intro f hf
    obtain rfl := List.mem_singleton.mp hf
    exact hgrows'.reaches hreaches
  · change t₁.files.insert (t₁.locate path) text = _
    rw [hfiles, hgrows.locate_eq]
    rfl

theorem files_of_save (h : (storage.save path text).Ends t (.ok ()) t') :
    t'.files = t.files.insert (t.locate path) text :=
  (Written.of_save h).files_eq

/-- From the first tree all files are written in turn, in directories that are created if necessary,
and the second tree is left. -/
inductive Saves : List (String × String) → FileTree → FileTree → Prop
  | nil {t : FileTree} : Saves [] t t
  | cons {path text : String} {files : List (String × String)} {t t₁ t' : FileTree}
    (h : (storage.save path text).Ends t (.ok ()) t₁) (hfiles : Saves files t₁ t') :
    Saves ((path, text) :: files) t t'

theorem saves_singleton :
    Saves [(path, text)] t t' ↔ (storage.save path text).Ends t (.ok ()) t' := by
  constructor
  · intro h
    cases h with
    | cons hsave hnil =>
      cases hnil
      exact hsave
  · exact fun hsave => .cons hsave .nil

theorem saves_append_iff :
    Saves (files ++ more) t t' ↔ ∃ t₁, Saves files t t₁ ∧ Saves more t₁ t' := by
  constructor
  · intro h
    induction files generalizing t with
    | nil => exact ⟨t, .nil, h⟩
    | cons f files ih =>
      cases h with
      | cons hsave hrest =>
        obtain ⟨t₂, hfiles, hmore⟩ := ih hrest
        exact ⟨t₂, .cons hsave hfiles, hmore⟩
  · rintro ⟨t₁, hfiles, hmore⟩
    induction hfiles with
    | nil => exact hmore
    | cons hsave _ ih => exact .cons hsave (ih hmore)

theorem Saves.written (h : Saves files t t') : Written files t t' := by
  induction h with
  | nil => exact .nil _
  | cons hsave _ ih => exact .append (.of_save hsave) ih

end FileTree

end ScriptBindings
