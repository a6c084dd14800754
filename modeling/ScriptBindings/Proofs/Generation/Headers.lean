import ScriptBindings.Proofs.Generation.Repetition
import ScriptBindings.Proofs.Name.Identifier

namespace ScriptBindings

namespace Identifier

variable {s : String}

theorem IsIdentifier.isSegment (h : IsIdentifier s) : Scope.IsSegment s :=
  ⟨h.ne_empty, fun hcolon => absurd (h.2 ':' hcolon) (by decide)⟩

theorem IsIdentifier.isName (h : IsIdentifier s) : Path.IsName s := by
  have hdot : '.' ∉ s.toList := fun hdot => absurd (h.2 '.' hdot) (by decide)
  refine ⟨h.ne_empty, ?_, ?_, fun hslash => absurd (h.2 '/' hslash) (by decide)⟩
  · rintro rfl
    exact hdot (by decide)
  · rintro rfl
    exact hdot (by decide)

end Identifier

open Identifier (IsIdentifier)

/-- A namespace named by one identifier or by several. -/
def Scope.IsNamespace (scope : String) : Prop :=
  ∃ ss ≠ [], (∀ s ∈ ss, IsIdentifier s) ∧ scope = join ss

theorem Scope.IsNamespace.segments {scope : String} (h : IsNamespace scope) :
    segments scope ≠ [] ∧ ∀ s ∈ segments scope, IsIdentifier s := by
  obtain ⟨ss, hne, hss, rfl⟩ := h
  rw [segments_join fun s hs => (hss s hs).isSegment]
  exact ⟨hne, hss⟩

theorem Database.segments_of_mem_plan {adapter : Adapter} {db : Database}
    {units : List BindingUnit} (h : (db.plan adapter).outcome = .ok units)
    (hkeys : ∀ key ∈ db.keys, Scope.IsNamespace (Scope.parent key)) {u : BindingUnit}
    (hu : u ∈ units) : u.segments ≠ [] ∧ ∀ s ∈ u.segments, IsIdentifier s := by
  obtain ⟨scope, b, hb, _, hne, _, rfl⟩ := unit_of_mem_plan h hu
  obtain ⟨l, hl⟩ := List.exists_mem_of_ne_nil _ hne
  obtain ⟨⟨key, hkey, hparent⟩, _⟩ := bindsIn_of_mem_group hb hl
  rw [BindingUnit.ofSet_segments, ← hparent]
  exact (hkeys key hkey).segments

namespace FileTree

/-- No name on the way to a file has a slash in it, as in any real tree. -/
def IsNamed (t : FileTree) : Prop := ∀ l ∈ t.files.keys, ∀ name ∈ l, '/' ∉ name.toList

instance : DecidablePred IsNamed := fun t =>
  inferInstanceAs (Decidable (∀ l ∈ t.files.keys, ∀ name ∈ l, '/' ∉ name.toList))

end FileTree

namespace BindingUnit

variable {u : BindingUnit} {t : FileTree} {root : String}

/-- The names that lead to the header of a unit from the directory of all headers. -/
def headerNames (u : BindingUnit) : List String := u.segments ++ [stem u.segments ++ ".hpp"]

theorem headerInclude_eq (u : BindingUnit) :
    u.headerInclude = Generator.headerInclude u.headerNames := by
  rw [headerInclude, includeOf, Generator.headerInclude, Generator.includeText, headerNames, ← List.cons_append,
    String.intercalate_append_of_ne_nil (List.cons_ne_nil _ _) (List.cons_ne_nil _ _),
    String.intercalate_singleton, String.append_assoc]

/-- The segments of the unit can be names of directories and files. -/
def IsNamed (u : BindingUnit) : Prop := u.segments ≠ [] ∧ ∀ s ∈ u.segments, Path.IsName s

/-- The header path of a unit, in its parts, is the path by which the unit is included. -/
theorem IsNamed.intercalate_headerPath (h : u.IsNamed) :
    "/".intercalate (Path.components u.headerPath) = u.headerInclude := by
  rw [headerInclude_eq, headerPath, components_filePath h.2 (by decide) (by decide)]
  rfl

theorem IsNamed.locate_header (h : u.IsNamed) : t.locate (Path.join root u.headerPath) =
    t.locate (Path.join root directory) ++ u.headerNames := by
  have hdirectory : Path.IsName directory := by decide
  have hlocate : t.locate (Path.join root directory) = t.locate root ++ [directory] := by
    rw [FileTree.locate_join hdirectory.isAbsolute, hdirectory.components]
    rfl
  rw [headerPath, locate_filePath t root h.2 (by decide) (by decide), hlocate, List.append_assoc]
  rfl

theorem IsNamed.stem_ne_empty (h : u.IsNamed) : stem u.segments ≠ "" := by
  obtain ⟨front, last, hlast⟩ := (List.eq_nil_or_concat u.segments).resolve_left h.1
  rw [List.concat_eq_append] at hlast
  rw [stem, hlast, List.getLastD_concat]
  exact (h.2 last (hlast ▸ List.mem_append_right front (List.mem_singleton_self last))).1

theorem IsNamed.extension?_stem (h : u.IsNamed) (ending : String) (he : '.' ∉ ending.toList) :
    Path.extension? (stem u.segments ++ ("." ++ ending)) = some ending := by
  rw [← String.append_assoc]
  exact Path.extension?_append h.stem_ne_empty he

theorem IsNamed.extension?_header (h : u.IsNamed) :
    Path.extension? (stem u.segments ++ ".hpp") = some "hpp" :=
  h.extension?_stem "hpp" (by decide)

theorem IsNamed.extension?_source (h : u.IsNamed) :
    Path.extension? (stem u.segments ++ ".cpp") = some "cpp" :=
  h.extension?_stem "cpp" (by decide)

theorem IsNamed.slash_not_mem (h : u.IsNamed) : ∀ s ∈ u.headerNames, '/' ∉ s.toList := by
  refine List.forall_mem_append.mpr ⟨fun s hs => (h.2 s hs).2.2.2, ?_⟩
  exact List.forall_mem_singleton.mpr (isName_stem_append h.2 (by decide) (by decide)).2.2.2

end BindingUnit

namespace Generator

open FileTree

variable {c : Configuration} {adapter : Adapter} {db : Database} {units : List BindingUnit}
  {t t₁ t' : FileTree} {includeRoot sourceRoot : String}

theorem mem_locations {l : Location} :
    l ∈ ((units.flatMap (BindingUnit.files includeRoot sourceRoot)).map
        fun f => (t.locate f.1, f.2)).map Prod.fst ↔
      (∃ u ∈ units, l = t.locate (Path.join includeRoot u.headerPath)) ∨
        ∃ u ∈ units, l = t.locate (Path.join sourceRoot u.sourcePath) := by
  simp only [List.map_map, List.mem_map, List.mem_flatMap, BindingUnit.files, List.mem_cons,
    List.not_mem_nil, or_false, Function.comp_apply]
  constructor
  · rintro ⟨f, ⟨u, hu, hf | hf⟩, heq⟩
    · rw [hf] at heq
      exact .inl ⟨u, hu, heq.symm⟩
    · rw [hf] at heq
      exact .inr ⟨u, hu, heq.symm⟩
  · rintro (⟨u, hu, heq⟩ | ⟨u, hu, heq⟩)
    · exact ⟨_, ⟨u, hu, .inl rfl⟩, heq.symm⟩
    · exact ⟨_, ⟨u, hu, .inr rfl⟩, heq.symm⟩

/-- The headers after the units have been written: those of the units, and those that were there. -/
theorem mem_headers_iff
    (h : Written (units.flatMap (BindingUnit.files includeRoot sourceRoot)) t t₁)
    (hnamed : ∀ u ∈ units, u.IsNamed) {directory : String}
    (hdirectory : directory = Path.join includeRoot BindingUnit.directory) (names : List String) :
    names ∈ t₁.selectBelow isHeader (t₁.locate directory) ↔
      (∃ u ∈ units, names = u.headerNames) ∨
        t.locate directory ++ names ∈ t.files.keys ∧ isHeader names = true := by
  subst hdirectory
  rw [mem_selectBelow, h.grows.locate_eq, h.files_eq, Dictionary.mem_keys_insertAll, or_and_right,
    mem_locations]
  refine or_congr_left ⟨?_, ?_⟩
  · rintro ⟨⟨u, hu, heq⟩ | ⟨u, hu, heq⟩, hheader⟩
    · rw [(hnamed u hu).locate_header] at heq
      exact ⟨u, hu, List.append_cancel_left heq⟩
    · -- A source is no header, even where the roots of headers and sources are the same.
      rw [BindingUnit.sourcePath, BindingUnit.locate_filePath t sourceRoot (hnamed u hu).2
        (by decide) (by decide), ← List.append_assoc] at heq
      have hsource := (hnamed u hu).extension?_source
      rw [isHeader_eq_false heq.symm (by rw [hsource]; decide)] at hheader
      cases hheader
  · rintro ⟨u, hu, rfl⟩
    refine ⟨.inl ⟨u, hu, (hnamed u hu).locate_header.symm⟩, ?_⟩
    rw [isHeader, BindingUnit.headerNames, List.getLast?_concat, Option.bind_some,
      (hnamed u hu).extension?_header]
    decide

theorem headerInclude_injective {names names' : List String} (hn : ∀ s ∈ names, '/' ∉ s.toList)
    (hn' : ∀ s ∈ names', '/' ∉ s.toList) (h : headerInclude names = headerInclude names') :
    names = names' := by
  have hdirectory : '/' ∉ BindingUnit.directory.toList := by decide
  have hall := Path.intercalate_injective (List.cons_ne_nil _ _) (List.cons_ne_nil _ _)
    (List.forall_mem_cons.mpr ⟨hdirectory, hn⟩) (List.forall_mem_cons.mpr ⟨hdirectory, hn'⟩) h
  exact (List.cons.inj hall).2

theorem nodup_map_headerInclude {files : List (List String)} (hfiles : files.Nodup)
    (h : ∀ names ∈ files, ∀ s ∈ names, '/' ∉ s.toList) : (files.map headerInclude).Nodup := by
  apply hfiles.map_on
  intro names hnames names' hnames' heq
  exact headerInclude_injective (h names hnames) (h names' hnames') heq

theorem nodup_headersIn {directory : String}
    (h : ∀ names ∈ t.selectBelow isHeader (t.locate directory), ∀ s ∈ names, '/' ∉ s.toList) :
    (headersIn t directory).Nodup := by
  unfold headersIn
  split
  · have hperm := List.mergeSort_perm (t.selectBelow isHeader (t.locate directory)) Location.before
    apply nodup_map_headerInclude (hperm.nodup_iff.mpr (nodup_selectBelow t isHeader _))
    intro names hnames
    exact h names (hperm.mem_iff.mp hnames)
  · exact List.nodup_nil

theorem mem_headersIn {directory header : String} : header ∈ headersIn t directory ↔
    t.exists? directory ∧
      ∃ names ∈ t.selectBelow isHeader (t.locate directory), header = headerInclude names := by
  unfold headersIn
  split
  · rename_i hexists
    simp only [hexists, true_and, List.mem_map, List.mem_mergeSort, eq_comm]
  · rename_i hexists
    simp [hexists]

/-- Where every entity lies in a namespace of identifiers, the index of a successful generation
includes the header of every unit once, by the path under which the unit includes it, and otherwise
only headers that were in the header directory before. -/
theorem generate_includes_headers {report : Report} (hnames : t.IsNamed)
    (hkeys : ∀ key ∈ db.keys, Scope.IsNamespace (Scope.parent key))
    (h : ((onTree c adapter).generate db).Ends t (.ok report) t') :
    ∃ units files t₁ directory headers path text, ∃ index : BindingIndex,
      (db.plan adapter).outcome = .ok units ∧
      ((onTree c adapter).writeUnits units).Ends t (.ok files) t₁ ∧
      c.headerDirectory = .ok directory ∧
      (onTree c adapter).discoverHeaders.Ends t₁ (.ok headers) t₁ ∧
      ((onTree c adapter).writeIndex units).Ends t₁ (.ok path) t' ∧
      index = (BindingIndex.ofIncludes headers).addUnits units ∧
      (index.text adapter c.indexScope c.treeName).outcome = .ok text ∧
      t'.read path = .ok text ∧
      (∀ u ∈ units, index.includes.count u.headerInclude = 1 ∧
        "/".intercalate (Path.components u.headerPath) = u.headerInclude) ∧
      ∀ header ∈ index.includes, (∃ u ∈ units, header = u.headerInclude) ∨
        ∃ names, isHeader names = true ∧ t.locate directory ++ names ∈ t.files.keys ∧
          header = headerInclude names := by
  obtain ⟨units, files, t₁, path, hplan, hunits, hindex, _⟩ := ends_generate_ok.mp h
  obtain ⟨headers, text, hfound, hpath, htext, hsave⟩ := ends_writeIndex_ok.mp hindex
  obtain ⟨includeRoot, sourceRoot, hi, hs, rfl⟩ := Configuration.roots_of_indexPath hpath
  have hdirectory := Configuration.headerDirectory_of_includeRoot hi
  have hwritten := ((ends_writeUnits_ok hi hs).mp hunits).2.written
  have hlast : Written ([] ++ [(Configuration.indexIn sourceRoot, text)]) t₁ t' := .of_save hsave
  have hnamed : ∀ u ∈ units, u.IsNamed := by
    intro u hu
    obtain ⟨hne, hs⟩ := Database.segments_of_mem_plan hplan hkeys hu
    exact ⟨hne, fun s hmem => (hs s hmem).isName⟩
  have hmem := mem_headers_iff hwritten hnamed rfl
  have hslash : ∀ names ∈ t₁.selectBelow isHeader
      (t₁.locate (Path.join includeRoot BindingUnit.directory)), ∀ s ∈ names, '/' ∉ s.toList := by
    intro names hbelow s hsmem
    rcases (hmem _).mp hbelow with ⟨u, hu, rfl⟩ | ⟨hfile, _⟩
    · exact (hnamed u hu).slash_not_mem s hsmem
    · exact hnames _ hfile s (List.mem_append_right _ hsmem)
  have hincludes : ((BindingIndex.ofIncludes headers).addUnits units).includes =
      headersIn t₁ (Path.join includeRoot BindingUnit.directory) := by
    rw [BindingIndex.addUnits_eq _ fun u hu => Database.objects_ne_nil hplan hu]
    exact ((ends_discoverHeaders_iff hdirectory).mp hfound).1
  refine ⟨units, files, t₁, _, headers, _, text, _, hplan, hunits, hdirectory, hfound, hindex, rfl,
    htext, hlast.read_last, ?_, ?_⟩
  · rw [hincludes]
    refine fun u hu => ⟨?_, (hnamed u hu).intercalate_headerPath⟩
    refine List.count_eq_one_of_mem (nodup_headersIn hslash) (mem_headersIn.mpr ⟨?_, ?_⟩)
    · exact exists?_headerDirectory hwritten hu fun s hs => ((hnamed u hu).2 s hs).isAbsolute
    · exact ⟨_, (hmem _).mpr (.inl ⟨u, hu, rfl⟩), u.headerInclude_eq⟩
  · rw [hincludes]
    intro header hheader
    obtain ⟨_, names, hbelow, rfl⟩ := mem_headersIn.mp hheader
    rcases (hmem _).mp hbelow with ⟨u, hu, rfl⟩ | ⟨hfile, hname⟩
    · exact .inl ⟨u, hu, u.headerInclude_eq.symm⟩
    · exact .inr ⟨names, hname, hfile, rfl⟩

/-- A header of an earlier run among the headers, and a file that is none. -/
def staleSample : FileTree where
  directories := [["out"], ["out", "include"], ["out", "include", "Core"],
    ["out", "include", "Core", "Bindings"]]
  files := .ofEntries [(["out", "include", "Core", "Bindings", "old.hpp"], ""),
    (["out", "include", "Core", "Bindings", "notes.txt"], "")]

theorem nestedSample_namespaces :
    ∀ key ∈ Database.nestedSample.keys, Scope.IsNamespace (Scope.parent key) := by
  have hkeys : Database.nestedSample.keys =
      ["a::b::Box<c::D>", "a::f", "a::g", "a::b::limit"] := rfl
  have houter : Scope.IsNamespace "a" := ⟨["a"], by decide, by decide, rfl⟩
  have hinner : Scope.IsNamespace "a::b" := ⟨["a", "b"], by decide, by decide, rfl⟩
  rw [hkeys]
  simp only [List.forall_mem_cons, List.not_mem_nil, false_imp_iff, implies_true, and_true]
  exact ⟨hinner, houter, houter, hinner⟩

theorem staleSample_includes :
    ∃ report t' text, ∃ index : BindingIndex,
      ((onTree (.writingTo "out") .sol3).generate Database.nestedSample).Ends staleSample
        (.ok report) t' ∧
      t'.read "out/src/Core/Bindings/index.cpp" = .ok text ∧
      (index.text .sol3 "obe::Bindings" "ObEngine").outcome = .ok text ∧
      index.includes.count "Bindings/a/a.hpp" = 1 ∧ index.includes.count "Bindings/a/b/b.hpp" = 1 ∧
      ∀ header ∈ index.includes,
        header ∈ ["Bindings/a/a.hpp", "Bindings/a/b/b.hpp", "Bindings/old.hpp"] := by
  have hrehearsal : ∃ t', ((onTree (.writingTo "out") .sol3).rehearse Database.nestedSample).Ends
      staleSample (.ok ()) t' := ⟨_, by decide +kernel, rfl⟩
  obtain ⟨report, t', h⟩ := exists_ends_generate_iff.mpr hrehearsal
  obtain ⟨units, _, _, directory, _, path, text, index, hplan, _, hdirectory, _, hindex, _, htext,
    hread, hunits, hothers⟩ :=
    generate_includes_headers (by decide +kernel) nestedSample_namespaces h
  obtain ⟨_, _, _, hpath, _⟩ := ends_writeIndex_ok.mp hindex
  cases hdirectory
  cases hpath
  have hincludes : units.map BindingUnit.headerInclude =
      ["Bindings/a/a.hpp", "Bindings/a/b/b.hpp"] := by
    rw [Database.eq_getD_of_plan hplan]
    decide +kernel
  have hcount : ∀ header ∈ ["Bindings/a/a.hpp", "Bindings/a/b/b.hpp"],
      index.includes.count header = 1 := by
    rw [← hincludes]
    exact List.forall_mem_map.mpr fun u hu => (hunits u hu).1
  have hstale : ∀ l ∈ staleSample.files.keys, ∀ names,
      staleSample.locate "out/include/Core/Bindings" ++ names = l → isHeader names = true →
        headerInclude names = "Bindings/old.hpp" := by
    have hlocate : staleSample.locate "out/include/Core/Bindings" =
        ["out", "include", "Core"] ++ ["Bindings"] := by decide +kernel
    have hkeys : staleSample.files.keys = [["out", "include", "Core"] ++ ["Bindings", "old.hpp"],
        ["out", "include", "Core"] ++ ["Bindings", "notes.txt"]] := by decide +kernel
    rw [hkeys, hlocate]
    simp only [List.forall_mem_cons, List.not_mem_nil, false_imp_iff, implies_true, and_true,
      List.append_assoc, List.append_cancel_left_eq, List.singleton_append, List.cons.injEq,
      true_and]
    refine ⟨?_, ?_⟩
    · rintro _ rfl _
      rfl
    · rintro _ rfl hheader
      revert hheader
      decide
  refine ⟨report, t', text, index, h, hread, htext, hcount _ (by decide), hcount _ (by decide), ?_⟩
  intro header hheader
  rcases hothers header hheader with ⟨u, hu, rfl⟩ | ⟨names, hname, hfile, rfl⟩
  · have hmem := List.mem_map_of_mem (f := BindingUnit.headerInclude) hu
    rw [hincludes] at hmem
    exact List.mem_append_left ["Bindings/old.hpp"] hmem
  · rw [hstale _ hfile names rfl hname]
    decide

end Generator

end ScriptBindings
