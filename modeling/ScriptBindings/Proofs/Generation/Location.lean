import ScriptBindings.Proofs.Files.Path
import ScriptBindings.Proofs.Generation.Success
import ScriptBindings.Proofs.Plan.Units

namespace ScriptBindings

namespace BindingUnit

/-- The segments of the unit are names of directories, and its namespace fits on one line. -/
def IsPlain (u : BindingUnit) : Prop :=
  (∀ s ∈ u.segments, Path.IsName s) ∧ '\n' ∉ u.scope.toList

instance : DecidablePred IsPlain := fun u =>
  inferInstanceAs (Decidable ((∀ s ∈ u.segments, Path.IsName s) ∧ '\n' ∉ u.scope.toList))

theorem toList_headerText (adapter : Adapter) (scope : String) (objects : List String) :
    ∃ rest, (headerText adapter scope objects).toList =
      ("#pragma once\n\n" ++ adapter.stateDeclaration ++ "\n" ++ "namespace ").toList ++
        (scope.toList ++ ("::Bindings\n".toList ++ rest)) := by
  let loaders := block (objects.map fun o => Loader.signature adapter o ++ ";")
  have htext : headerText adapter scope objects = "#pragma once\n\n" ++ adapter.stateDeclaration ++
      "\n" ++ bindingsScope scope ++ loaders := rfl
  refine ⟨loaders.toList, ?_⟩
  rw [htext, bindingsScope]
  simp only [String.toList_append, List.append_assoc]

/-- A header names its namespace on a line of its own. -/
theorem scope_eq_of_headerText_eq {adapter : Adapter} {scope scope' : String}
    {objects objects' : List String} (hs : '\n' ∉ scope.toList) (hs' : '\n' ∉ scope'.toList)
    (h : headerText adapter scope objects = headerText adapter scope' objects') :
    scope = scope' := by
  have hline {name : String} (hname : '\n' ∉ name.toList) (rest : List Char) :
      (name.toList ++ ("::Bindings\n".toList ++ rest)).takeWhile (· ≠ '\n') =
        name.toList ++ "::Bindings".toList := by
    rw [List.takeWhile_append_of_pos fun c hc => decide_eq_true (ne_of_mem_of_not_mem hc hname)]
    rfl
  obtain ⟨rest, hrest⟩ := toList_headerText adapter scope objects
  obtain ⟨rest', hrest'⟩ := toList_headerText adapter scope' objects'
  have hlines := List.append_cancel_left (hrest.symm.trans ((congrArg _ h).trans hrest'))
  have hfirst := congrArg (List.takeWhile (· ≠ '\n')) hlines
  rw [hline hs, hline hs'] at hfirst
  exact String.toList_inj.mp (List.append_cancel_right hfirst)

variable {segments : List String} {ending : String}

theorem isName_stem_append (hs : ∀ s ∈ segments, Path.IsName s) (he : '/' ∉ ending.toList)
    (hlength : 3 ≤ ending.length) : Path.IsName (stem segments ++ ending) := by
  refine Path.isName_append ?_ he hlength
  unfold stem
  cases segments using List.reverseRecOn with
  | nil => decide
  | append_singleton front s =>
    rw [List.getLastD_concat]
    exact (hs s (by simp)).2.2.2

theorem components_filePath (hs : ∀ s ∈ segments, Path.IsName s) (he : '/' ∉ ending.toList)
    (hlength : 3 ≤ ending.length) :
    Path.components (filePath segments ending) =
      directory :: segments ++ [stem segments ++ ending] := by
  have hname := isName_stem_append hs he hlength
  have hdirectory : Path.IsName directory := by decide
  rw [filePath, Path.components_join hname.isAbsolute, Path.components_foldl_join hs,
    hdirectory.components, hname.components]
  rfl

theorem locate_filePath (t : FileTree) (root : String) (hs : ∀ s ∈ segments, Path.IsName s)
    (he : '/' ∉ ending.toList) (hlength : 3 ≤ ending.length) :
    t.locate (Path.join root (filePath segments ending)) =
      t.locate root ++ (directory :: segments ++ [stem segments ++ ending]) := by
  have hname := isName_stem_append hs he hlength
  have hdirectory : Path.IsName directory := by decide
  have habsolute : Path.isAbsolute (filePath segments ending) = false := by
    rw [filePath, Path.isAbsolute_join hname.isAbsolute,
      Path.isAbsolute_foldl_join fun s hmem => (hs s hmem).isAbsolute, hdirectory.isAbsolute]
  rw [FileTree.locate_join habsolute, components_filePath hs he hlength]
  apply Location.foldl_step
  rw [List.cons_append, List.mem_cons, List.mem_append, List.mem_singleton]
  rintro (h | hmem | h)
  · exact hdirectory.2.2.1 h.symm
  · exact (hs ".." hmem).2.2.1 rfl
  · exact hname.2.2.1 h.symm

theorem IsPlain.locate_header {u : BindingUnit} (h : u.IsPlain) (t : FileTree) (root : String) :
    t.locate (Path.join root u.headerPath) =
      t.locate root ++ (directory :: u.segments ++ [stem u.segments ++ ".hpp"]) :=
  locate_filePath t root h.1 (by decide) (by decide)

theorem IsPlain.locate_source {u : BindingUnit} (h : u.IsPlain) (t : FileTree) (root : String) :
    t.locate (Path.join root u.sourcePath) =
      t.locate root ++ (directory :: u.segments ++ [stem u.segments ++ ".cpp"]) :=
  locate_filePath t root h.1 (by decide) (by decide)

end BindingUnit

theorem FileTree.locate_indexIn (t : FileTree) (root : String) :
    t.locate (Configuration.indexIn root) =
      t.locate root ++ [BindingUnit.directory, Configuration.indexFile] := by
  have hdirectory : Path.IsName BindingUnit.directory := by decide
  have hindex : Path.IsName Configuration.indexFile := by decide
  rw [Configuration.indexIn, locate_join hindex.isAbsolute, locate_join hdirectory.isAbsolute,
    hindex.components, hdirectory.components, ← List.foldl_append]
  exact Location.foldl_step (by decide) _

namespace BindingUnit

variable {units : List BindingUnit} {t : FileTree} {includeRoot sourceRoot : String}

theorem segments_eq_of_location {l : Location} {segments segments' : List String}
    {name name' : String}
    (h : l ++ (directory :: segments ++ [name]) = l ++ (directory :: segments' ++ [name'])) :
    segments = segments' := by
  have hnames := (List.append_inj' (List.append_cancel_left h) rfl).1
  exact (List.cons.inj hnames).2

theorem location_ne_of_endings {l l' names names' : Location} (name name' : String) :
    l ++ (names ++ [name ++ ".hpp"]) ≠ l' ++ (names' ++ [name' ++ ".cpp"]) := by
  intro h
  rw [← List.append_assoc, ← List.append_assoc] at h
  have hname := congrArg String.toList (List.singleton_inj.mp (List.append_inj' h rfl).2)
  rw [String.toList_append, String.toList_append] at hname
  have hending := (List.append_inj' hname (by decide)).2
  revert hending
  decide

theorem IsPlain.segments_eq_of_header {u v : BindingUnit} (hu : u.IsPlain) (hv : v.IsPlain)
    (h : t.locate (Path.join includeRoot u.headerPath) =
      t.locate (Path.join includeRoot v.headerPath)) : u.segments = v.segments := by
  rw [hu.locate_header, hv.locate_header] at h
  exact segments_eq_of_location h

theorem IsPlain.segments_eq_of_source {u v : BindingUnit} (hu : u.IsPlain) (hv : v.IsPlain)
    (h : t.locate (Path.join sourceRoot u.sourcePath) =
      t.locate (Path.join sourceRoot v.sourcePath)) : u.segments = v.segments := by
  rw [hu.locate_source, hv.locate_source] at h
  exact segments_eq_of_location h

theorem IsPlain.header_ne_source {u v : BindingUnit} (hu : u.IsPlain) (hv : v.IsPlain) :
    t.locate (Path.join includeRoot u.headerPath) ≠
      t.locate (Path.join sourceRoot v.sourcePath) := by
  rw [hu.locate_header, hv.locate_source]
  exact location_ne_of_endings _ _

theorem IsPlain.header_ne_index {u : BindingUnit} (hu : u.IsPlain) :
    t.locate (Path.join includeRoot u.headerPath) ≠
      t.locate (Configuration.indexIn sourceRoot) := by
  have hindex : [directory, Configuration.indexFile] = [directory] ++ ["index" ++ ".cpp"] := rfl
  rw [hu.locate_header, FileTree.locate_indexIn, hindex]
  exact location_ne_of_endings _ _

theorem IsPlain.source_ne_index {u : BindingUnit} (hu : u.IsPlain) :
    t.locate (Path.join sourceRoot u.sourcePath) ≠
      t.locate (Configuration.indexIn sourceRoot) := by
  intro h
  rw [hu.locate_source, FileTree.locate_indexIn] at h
  have hsegments := @segments_eq_of_location _ u.segments [] _ _ h
  rw [hsegments] at h
  have hnames := List.append_cancel_left h
  revert hnames
  decide

theorem mem_filesOf {f : String × String} {index : String} :
    f ∈ filesOf includeRoot sourceRoot units index ↔
      (∃ u ∈ units, f = (Path.join includeRoot u.headerPath, u.header)) ∨
      (∃ u ∈ units, f = (Path.join sourceRoot u.sourcePath, u.source)) ∨
      f = (Configuration.indexIn sourceRoot, index) := by
  simp only [filesOf, files, List.mem_append, List.mem_flatMap, List.mem_cons, List.not_mem_nil,
    or_false, and_or_left, exists_or, or_assoc]

/-- Among the files of plain units and the index, those of units with the same segments share a
location, and no others. -/
theorem agree_filesOf_iff {adapter : Adapter} {index : String} (hplain : ∀ u ∈ units, u.IsPlain)
    (hscopes : (units.map scope).Nodup)
    (hheaders : ∀ u ∈ units, u.header = headerText adapter u.scope u.objects) :
    t.Agree (filesOf includeRoot sourceRoot units index) ↔ (units.map segments).Nodup := by
  have hunits : units.Nodup := hscopes.of_map scope
  rw [List.nodup_map_iff_inj_on hunits]
  constructor
  · intro hagree u hu v hv hsegments
    have hheader := hagree _ (mem_filesOf.mpr (.inl ⟨u, hu, rfl⟩)) _
      (mem_filesOf.mpr (.inl ⟨v, hv, rfl⟩))
    rw [(hplain u hu).locate_header, (hplain v hv).locate_header, hsegments, hheaders u hu,
      hheaders v hv] at hheader
    exact List.inj_on_of_nodup_map hscopes hu hv
      (scope_eq_of_headerText_eq (hplain u hu).2 (hplain v hv).2 (hheader rfl))
  · intro hinj f hf g hg hlocation
    rcases mem_filesOf.mp hf with ⟨u, hu, rfl⟩ | ⟨u, hu, rfl⟩ | rfl
    · rcases mem_filesOf.mp hg with ⟨v, hv, rfl⟩ | ⟨v, hv, rfl⟩ | rfl
      · have huv := (hplain u hu).segments_eq_of_header (hplain v hv) hlocation
        rw [hinj u hu v hv huv]
      · exact absurd hlocation ((hplain u hu).header_ne_source (hplain v hv))
      · exact absurd hlocation (hplain u hu).header_ne_index
    · rcases mem_filesOf.mp hg with ⟨v, hv, rfl⟩ | ⟨v, hv, rfl⟩ | rfl
      · exact absurd hlocation.symm ((hplain v hv).header_ne_source (hplain u hu))
      · have huv := (hplain u hu).segments_eq_of_source (hplain v hv) hlocation
        rw [hinj u hu v hv huv]
      · exact absurd hlocation (hplain u hu).source_ne_index
    · rcases mem_filesOf.mp hg with ⟨v, hv, rfl⟩ | ⟨v, hv, rfl⟩ | rfl
      · exact absurd hlocation.symm (hplain v hv).header_ne_index
      · exact absurd hlocation.symm (hplain v hv).source_ne_index
      · rfl

end BindingUnit

end ScriptBindings
