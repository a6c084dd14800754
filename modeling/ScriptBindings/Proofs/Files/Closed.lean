import ScriptBindings.Proofs.Files.Path
import ScriptBindings.Proofs.Files.Writing

namespace ScriptBindings

namespace Location

theorem trail_append (l : Location) (names more : List String) :
    trail l (names ++ more) = trail l names ++ trail (names.foldl step l) more := by
  induction names generalizing l with
  | nil => rfl
  | cons name names ih => exact congrArg (step l name :: ·) (ih (step l name))

theorem trail_ne_nil {l : Location} {names : List String} (h : names ≠ []) :
    trail l names ≠ [] := by
  cases names with
  | nil => exact absurd rfl h
  | cons name names => exact List.cons_ne_nil _ _

theorem dropLast_trail (l : Location) (names : List String) :
    (trail l names).dropLast = trail l names.dropLast := by
  cases names using List.reverseRecOn with
  | nil => rfl
  | append_singleton names name =>
    rw [trail_append, List.dropLast_concat]
    exact List.dropLast_concat

theorem prefix_of_mem_trail {l k : Location} {names : List String} (h : ".." ∉ names)
    (hk : k ∈ trail l names) : k <+: l ++ names := by
  induction names generalizing l with
  | nil => cases hk
  | cons name names ih =>
    rw [List.mem_cons, not_or] at h
    have hdown : step l name = l ++ [name] := if_neg (Ne.symm h.1)
    rw [trail, hdown, List.mem_cons] at hk
    rw [List.append_cons]
    rcases hk with rfl | hk
    · exact List.prefix_append _ _
    · exact ih h.2 hk

theorem foldl_step_mem (l : Location) (names : List String) :
    names.foldl step l ∈ l :: trail l names := by
  induction names generalizing l with
  | nil => exact List.mem_singleton_self l
  | cons name names ih => exact List.mem_cons_of_mem l (ih (step l name))

theorem foldl_step_mem_trail (l : Location) {names : List String} (h : names ≠ []) :
    names.foldl step l ∈ trail l names := by
  cases names with
  | nil => exact absurd rfl h
  | cons name names => exact foldl_step_mem (step l name) names

end Location

namespace FileTree

variable {t t' : FileTree} {l k : Location} {path rest text : String}

theorem trail_subset_passed {front back : List String}
    (h : Path.components path = front ++ back) (hback : back ≠ []) :
    Location.trail (t.start path) front ⊆ t.passed path := by
  unfold passed visited
  rw [h, Location.trail_append, List.dropLast_append_of_ne_nil (Location.trail_ne_nil hback)]
  split
  · exact List.subset_append_left _ _
  · exact List.subset_append_left _ _

theorem isDirectory_foldl_step {names : List String} (hl : t.isDirectory l)
    (h : ∀ k ∈ Location.trail l names, t.isDirectory k) :
    t.isDirectory (names.foldl Location.step l) := by
  rcases List.mem_cons.mp (Location.foldl_step_mem l names) with hk | hk
  · rwa [hk]
  · exact h _ hk

theorem exists?_of_isDirectory (hpath : Path.isValid path)
    (hvisited : ∀ l ∈ t.visited path, t.isDirectory l) (hlocated : t.isDirectory (t.locate path)) :
    t.exists? path := by
  have hpassed : t.passed path ⊆ t.visited path := by
    unfold passed
    split
    · exact List.Subset.refl _
    · exact List.dropLast_subset _
  have hreaches := reaches_iff.mpr ⟨hpath, fun l hl => hvisited l (hpassed hl)⟩
  rw [exists?, hreaches, hlocated]
  rfl

theorem visited_of_reaches_join (hrelative : Path.isAbsolute rest = false)
    (hne : Path.components rest ≠ []) (hreaches : t.reaches (Path.join path rest)) :
    Path.isValid path ∧ ∀ l ∈ t.visited path, t.isDirectory l := by
  obtain ⟨hpath, hpassed⟩ := reaches_iff.mp hreaches
  refine ⟨?_, fun l hl => hpassed l ?_⟩
  · rw [Path.join_of_relative hrelative, String.append_assoc] at hpath
    exact Path.isValid_of_append hpath
  · refine trail_subset_passed (Path.components_join hrelative path) hne ?_
    rwa [start, Path.isAbsolute_join hrelative]

/-- A path that leads on from a base shows that the base is there, if the base has a name in it. -/
theorem exists?_of_reaches_join (hpath : Path.components path ≠ [])
    (hrelative : Path.isAbsolute rest = false) (hne : Path.components rest ≠ [])
    (hreaches : t.reaches (Path.join path rest)) : t.exists? path := by
  obtain ⟨hvalid, hvisited⟩ := visited_of_reaches_join hrelative hne hreaches
  exact exists?_of_isDirectory hvalid hvisited
    (hvisited _ (Location.foldl_step_mem_trail (t.start path) hpath))

/-- Directories and files lie in directories, and relative paths start in one. -/
structure IsClosed (t : FileTree) : Prop where
  directories : ∀ l ∈ t.directories, t.isDirectory l.dropLast
  files : ∀ l ∈ t.files.keys, t.isDirectory l.dropLast
  workingDirectory : t.isDirectory t.workingDirectory

instance : DecidablePred IsClosed := fun t =>
  decidable_of_iff ((∀ l ∈ t.directories, t.isDirectory l.dropLast) ∧
    (∀ l ∈ t.files.keys, t.isDirectory l.dropLast) ∧ t.isDirectory t.workingDirectory)
    ⟨fun h => ⟨h.1, h.2.1, h.2.2⟩, fun h => ⟨h.directories, h.files, h.workingDirectory⟩⟩

namespace IsClosed

theorem isDirectory_dropLast (h : t.IsClosed) (hl : t.isDirectory l) :
    t.isDirectory l.dropLast := by
  rcases isDirectory_iff.mp hl with rfl | hl
  · exact hl
  · exact h.directories l hl

theorem isDirectory_of_prefix (h : t.IsClosed) (hl : t.isDirectory l) (hk : k <+: l) :
    t.isDirectory k := by
  obtain ⟨rest, rfl⟩ := hk
  induction rest using List.reverseRecOn with
  | nil => rwa [List.append_nil] at hl
  | append_singleton rest name ih =>
    have hfront := h.isDirectory_dropLast hl
    rw [← List.append_assoc, List.dropLast_concat] at hfront
    exact ih hfront

theorem isDirectory_start (h : t.IsClosed) (path : String) : t.isDirectory (t.start path) := by
  unfold start
  split
  · rfl
  · exact h.workingDirectory

theorem isDirectory_step (h : t.IsClosed) (hl : t.isDirectory l) (name : String) :
    t.isDirectory (Location.step l name).dropLast := by
  unfold Location.step
  split
  · exact h.isDirectory_dropLast (h.isDirectory_dropLast hl)
  · rwa [List.dropLast_concat]

theorem addDirectories (h : t.IsClosed) (hl : t.isDirectory l) (names : List String) :
    (addDirectories (Location.trail l names) t).2.IsClosed := by
  induction names generalizing l t with
  | nil => exact h
  | cons name names ih =>
    -- The next place lies in a directory, so that a directory can be added there.
    have hstep := h.isDirectory_step hl name
    rw [Location.trail]
    generalize Location.step l name = l' at hstep ⊢
    obtain ⟨hl', heq⟩ | ⟨e, heq⟩ | ⟨_, heq⟩ :=
      addDirectories_cons l' (Location.trail l' names) t
    · rw [heq]
      exact ih h hl'
    · rwa [heq]
    · rw [heq]
      have hgrows := grows_directories_concat t l'
      refine ih ⟨fun k hk => ?_, fun k hk => ?_, ?_⟩ ?_
      · rcases List.mem_append.mp hk with hk | hk
        · exact hgrows.isDirectory (h.directories k hk)
        · obtain rfl := List.mem_singleton.mp hk
          exact hgrows.isDirectory hstep
      · exact hgrows.isDirectory (h.files k hk)
      · exact hgrows.isDirectory h.workingDirectory
      · exact isDirectory_iff.mpr (.inr (List.mem_append_right _ (List.mem_singleton_self l')))

theorem makeDirectories (h : t.IsClosed) (path : String) : (t.makeDirectories path).2.IsClosed := by
  rw [snd_makeDirectories]
  split
  · unfold newDirectories visited
    rw [Location.dropLast_trail]
    split
    · exact h.addDirectories (h.isDirectory_start path) _
    · exact h.addDirectories (h.isDirectory_start path) _
  · exact h

theorem isDirectory_dropLast_locate (h : t.IsClosed) (hreaches : t.reaches path)
    (hnew : ¬ t.isDirectory (t.locate path)) : t.isDirectory (t.locate path).dropLast := by
  have hstart := h.isDirectory_start path
  unfold locate at hnew ⊢
  rcases List.eq_nil_or_concat (Path.components path) with hnil | ⟨names, name, hnames⟩
  · rw [hnil] at hnew
    exact absurd hstart hnew
  · rw [List.concat_eq_append] at hnames
    rw [hnames, List.foldl_append]
    refine h.isDirectory_step ?_ name
    refine isDirectory_foldl_step hstart fun l hl => ?_
    have hpassed := trail_subset_passed (t := t) hnames (List.cons_ne_nil name [])
    exact (reaches_iff.mp hreaches).2 l (hpassed hl)

theorem exists?_of_visited (h : t.IsClosed) (hpath : Path.isValid path)
    (hvisited : ∀ l ∈ t.visited path, t.isDirectory l) : t.exists? path :=
  exists?_of_isDirectory hpath hvisited
    (isDirectory_foldl_step (h.isDirectory_start path) hvisited)

/-- A directory that lies above another one is there for every path that leads straight down to it
from a directory on its way. -/
theorem exists?_of_prefix (h : t.IsClosed) {front back : List String} (hpath : Path.isValid path)
    (hnames : Path.components path = front ++ back)
    (hfront : ∀ k ∈ Location.trail (t.start path) front, t.isDirectory k) (hback : ".." ∉ back)
    (hl : t.isDirectory l) (habove : t.locate path <+: l) : t.exists? path := by
  refine h.exists?_of_visited hpath fun k hk => ?_
  rw [locate, hnames, List.foldl_append, Location.foldl_step hback] at habove
  rw [visited, hnames, Location.trail_append] at hk
  rcases List.mem_append.mp hk with hk | hk
  · exact hfront k hk
  · exact h.isDirectory_of_prefix hl ((Location.prefix_of_mem_trail hback hk).trans habove)

theorem write (h : t.IsClosed) (hwrite : t.write path text = (.ok (), t')) : t'.IsClosed := by
  obtain ⟨hreaches, hnew, _, rfl⟩ := write_eq_ok.mp hwrite
  refine ⟨h.directories, fun k hk => ?_, h.workingDirectory⟩
  rcases Dictionary.mem_keys_put.mp hk with rfl | hk
  · exact h.isDirectory_dropLast_locate hreaches hnew
  · exact h.files k hk

theorem save (h : t.IsClosed) (hsave : (storage.save path text).Ends t (.ok ()) t') :
    t'.IsClosed := by
  obtain ⟨t₁, hmake, hwrite⟩ := ends_save_ok.mp hsave
  have hmade := h.makeDirectories (Path.parent path)
  rw [hmake] at hmade
  exact hmade.write hwrite

theorem saves {files : List (String × String)} (h : t.IsClosed) (hsaves : Saves files t t') :
    t'.IsClosed := by
  induction hsaves with
  | nil => exact h
  | cons hsave _ ih => exact ih (h.save hsave)

end IsClosed

end FileTree

end ScriptBindings
