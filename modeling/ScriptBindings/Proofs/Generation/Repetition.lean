import ScriptBindings.Proofs.Files.Closed
import ScriptBindings.Proofs.Files.Listing
import ScriptBindings.Proofs.Files.Rewriting
import ScriptBindings.Proofs.Generation.Interruption

namespace ScriptBindings

namespace BindingUnit

theorem isAbsolute_stem {segments : List String} (h : ∀ s ∈ segments, Path.isAbsolute s = false) :
    Path.isAbsolute (stem segments) = false := by
  cases segments using List.reverseRecOn with
  | nil => rfl
  | append_singleton front s =>
    rw [stem, List.getLastD_concat]
    exact h s (List.mem_append_right front (List.mem_singleton_self s))

theorem exists_filePath_eq_join {segments : List String} {ending : String}
    (hs : ∀ s ∈ segments, Path.isAbsolute s = false) (he : '/' ∉ ending.toList)
    (hlength : 3 ≤ ending.length) :
    ∃ rest, filePath segments ending = Path.join directory rest ∧ Path.isAbsolute rest = false ∧
      Path.components rest ≠ [] := by
  have hfile := Path.isAbsolute_append_of_not_mem (isAbsolute_stem hs) he
  have hname := Path.components_append_ne_nil he hlength (stem segments)
  unfold filePath
  generalize stem segments ++ ending = file at hfile hname ⊢
  cases segments with
  | nil => exact ⟨file, rfl, hfile, hname⟩
  | cons s ss =>
    obtain ⟨hfirst, hmore⟩ := List.forall_mem_cons.mp hs
    have hfront : Path.isAbsolute (ss.foldl Path.join s) = false :=
      (Path.isAbsolute_foldl_join hmore s).trans hfirst
    refine ⟨Path.join (ss.foldl Path.join s) file, ?_, ?_, ?_⟩
    · rw [List.foldl_cons, ← Path.join_foldl_join hfirst hmore, Path.join_join hfront hfile]
    · exact (Path.isAbsolute_join hfile _).trans hfront
    · rw [Path.components_join hfile]
      exact List.append_ne_nil_of_right_ne_nil _ hname

end BindingUnit

namespace Generator

open FileTree

/-- What shows the directory of the headers to a generation before it writes the index: its path
leads straight down to it from directories that are there, or it is there itself, or a unit is
written below it. -/
inductive Settled (t : FileTree) (units : List BindingUnit) (directory : String) : Prop
  | straight (front back : List String) (hnames : Path.components directory = front ++ back)
    (hfront : ∀ l ∈ Location.trail (t.start directory) front, t.isDirectory l) (hback : ".." ∉ back)
  | present (h : t.exists? directory)
  | entered (u : BindingUnit) (hu : u ∈ units) (h : ∀ s ∈ u.segments, Path.isAbsolute s = false)

variable {c : Configuration} {adapter : Adapter} {db : Database} {units : List BindingUnit}
  {t t₁ t' : FileTree} {includeRoot sourceRoot : String}

theorem exists?_headerDirectory
    (hwritten : Written (units.flatMap (BindingUnit.files includeRoot sourceRoot)) t t₁)
    {u : BindingUnit} (hu : u ∈ units) (hs : ∀ s ∈ u.segments, Path.isAbsolute s = false) :
    t₁.exists? (Path.join includeRoot BindingUnit.directory) := by
  obtain ⟨rest, hpath, hrelative, hne⟩ :=
    BindingUnit.exists_filePath_eq_join hs (by decide : '/' ∉ ".hpp".toList) (by decide)
  have hfile : (Path.join includeRoot u.headerPath, u.header) ∈
      units.flatMap (BindingUnit.files includeRoot sourceRoot) :=
    List.mem_flatMap.mpr ⟨u, hu, List.mem_cons_self⟩
  have hreaches := hwritten.reaches _ hfile
  have hdirectory : Path.IsName BindingUnit.directory := by decide
  rw [BindingUnit.headerPath, hpath, ← Path.join_join hdirectory.isAbsolute hrelative] at hreaches
  refine exists?_of_reaches_join ?_ hrelative hne hreaches
  rw [Path.components_join hdirectory.isAbsolute, hdirectory.components]
  exact List.append_ne_nil_of_right_ne_nil _ (List.cons_ne_nil _ _)

/-- A directory that is not seen then holds no headers. -/
theorem Settled.selectBelow_eq_nil {directory : String} (h : Settled t units directory)
    (hclosed : t.IsClosed) (hdirectory : directory = Path.join includeRoot BindingUnit.directory)
    (hunits : Saves (units.flatMap (BindingUnit.files includeRoot sourceRoot)) t t₁)
    (hvalid : Path.isValid directory) (hnone : ¬ t₁.exists? directory) :
    t₁.selectBelow isHeader (t₁.locate directory) = [] := by
  have hclosed₁ := hclosed.saves hunits
  have hwritten := hunits.written
  cases h with
  | straight front back hnames hfront hback =>
    have hfront₁ : ∀ l ∈ Location.trail (t₁.start directory) front, t₁.isDirectory l := by
      rw [hwritten.grows.start_eq]
      exact fun l hl => hwritten.grows.isDirectory (hfront l hl)
    apply List.eq_nil_iff_forall_not_mem.mpr
    intro names hmem
    apply hnone
    obtain ⟨hfile, hheader⟩ := mem_selectBelow.mp hmem
    have hne : names ≠ [] := by
      rintro rfl
      cases hheader
    have hparent := hclosed₁.files _ hfile
    rw [List.dropLast_append_of_ne_nil hne] at hparent
    exact hclosed₁.exists?_of_prefix hvalid hnames hfront₁ hback hparent (List.prefix_append _ _)
  | present hexists =>
    apply absurd (hwritten.grows.exists? _ hexists) hnone
    intro l hl
    rw [hwritten.files_eq]
    exact Dictionary.mem_keys_insertAll.mpr (.inr hl)
  | entered u hu hsegments =>
    rw [hdirectory] at hnone
    exact absurd (exists?_headerDirectory hwritten hu hsegments) hnone

theorem isHeader_eq_false {l directory names : Location} {name : String}
    (h : l ++ [name] = directory ++ names) (hname : Path.extension? name ≠ some "hpp") :
    isHeader names = false := by
  cases names using List.reverseRecOn with
  | nil => rfl
  | append_singleton front last =>
    have hlast := congrArg List.getLast? h
    rw [List.getLast?_concat, List.getLast?_append] at hlast
    obtain rfl : name = last := by simpa using hlast
    rw [isHeader, List.getLast?_concat]
    exact beq_eq_false_iff_ne.mpr hname

theorem isHeader_index_eq_false {l directory names : Location}
    (h : l ++ [BindingUnit.directory, Configuration.indexFile] = directory ++ names) :
    isHeader names = false := by
  rw [List.append_cons] at h
  exact isHeader_eq_false h (by decide)

/-- The include paths of the headers that a tree shows in a directory. -/
def headersIn (t : FileTree) (directory : String) : List String :=
  if t.exists? directory then
    ((t.selectBelow isHeader (t.locate directory)).mergeSort Location.before).map headerInclude
  else []

theorem filterMap_walk {visits : List Visit}
    (h : t.walk (Path.join includeRoot BindingUnit.directory) = .ok visits) :
    visits.filterMap (headerOf includeRoot) =
      ((t.selectBelow isHeader (t.locate (Path.join includeRoot BindingUnit.directory))).mergeSort
        Location.before).map headerInclude := by
  obtain ⟨_, rfl⟩ := walk_eq_ok_iff.mp h
  rw [filterMap_headerOf, filter_regular_walk]

theorem ends_discoverHeaders_iff {directory : String} {headers : List String}
    (hdirectory : c.headerDirectory = .ok directory) :
    (onTree c adapter).discoverHeaders.Ends t (.ok headers) t ↔
      headers = headersIn t directory ∧
        (t.exists? directory → ∃ visits, t.walk directory = .ok visits) := by
  obtain ⟨includeRoot, hi, rfl⟩ := Configuration.exists_includeRoot hdirectory
  rw [ends_discoverHeaders_ok, headersIn, hdirectory, hi]
  by_cases hexists : t.exists? (Path.join includeRoot BindingUnit.directory)
  · simp only [hexists, if_true, true_and, true_imp_iff, Except.ok.injEq, exists_and_left,
      exists_eq_left']
    constructor
    · rintro ⟨visits, hvisits, rfl⟩
      rw [filterMap_walk hvisits]
      exact ⟨rfl, visits, hvisits⟩
    · rintro ⟨rfl, visits, hvisits⟩
      rw [← filterMap_walk hvisits]
      exact ⟨visits, hvisits, rfl⟩
  · simp [hexists]

/-- A larger tree with the same headers shows the same, if there are none where it shows more. -/
theorem headersIn_eq_of_grows {directory : String} (hgrows : t.Grows t')
    (hkeys : t.files.keys ⊆ t'.files.keys)
    (hnames : t'.selectBelow isHeader (t.locate directory) =
      t.selectBelow isHeader (t.locate directory))
    (hnone : t'.exists? directory → ¬ t.exists? directory →
      t.selectBelow isHeader (t.locate directory) = []) :
    headersIn t' directory = headersIn t directory := by
  rw [headersIn, headersIn, hgrows.locate_eq, hnames]
  by_cases hbefore : t.exists? directory
  · rw [if_pos hbefore, if_pos (hgrows.exists? hkeys hbefore)]
  · rw [if_neg hbefore]
    split
    · rename_i hexists
      rw [hnone hexists hbefore, List.mergeSort_nil, List.map_nil]
    · rfl

/-- A generation that has succeeded succeeds again with the same report, and changes nothing, if it
has seen the directory of the headers and that directory can be listed. -/
theorem generate_again {report : Report} (hclosed : t.IsClosed)
    (hsettled : ∀ units directory, (db.plan adapter).outcome = .ok units →
      c.headerDirectory = .ok directory → Settled t units directory)
    (h : ((onTree c adapter).generate db).Ends t (.ok report) t')
    (hlist : ∀ directory, c.headerDirectory = .ok directory → t'.exists? directory →
      ∃ visits, t'.walk directory = .ok visits) :
    ((onTree c adapter).generate db).Ends t' (.ok report) t' := by
  obtain ⟨units, includeRoot, sourceRoot, t₁, headers, index, hplan, hi, hs, hunits, hfound, htext,
    hindex, rfl⟩ := ends_generate_saves.mp h
  -- The second run passes through a tree `t₂` that differs from `t'` in texts of files at most.
  have hagain := (saves_append_iff.mpr ⟨t₁, hunits, saves_singleton.mpr hindex⟩).again
  obtain ⟨t₂, hunits₂, hlast⟩ := saves_append_iff.mp hagain
  have hindex₂ := saves_singleton.mp hlast
  have hgrows := (Written.of_save hindex).grows
  have hgrows₂ := hunits₂.written.grows
  have hback := (Written.of_save hindex₂).grows
  have hkeys₂ := hunits₂.keys_eq fun f hf => (hunits.rewritable f hf).of_save hindex
  have hfiles := files_of_save hindex
  have hkeys : t₁.files.keys ⊆ t₂.files.keys := by
    rw [hkeys₂, hfiles]
    exact fun l hl => Dictionary.mem_keys_put.mpr (.inr hl)
  refine ends_generate_saves.mpr ⟨units, includeRoot, sourceRoot, t₂, headers, index, hplan, hi, hs,
    hunits₂, ?_, htext, hindex₂, rfl⟩
  have hdirectory := Configuration.headerDirectory_of_includeRoot hi
  rw [ends_discoverHeaders_iff hdirectory] at hfound ⊢
  have hexists (h : t₂.exists? (Path.join includeRoot BindingUnit.directory)) :
      t'.exists? (Path.join includeRoot BindingUnit.directory) :=
    hback.exists? (hkeys₂ ▸ List.Subset.refl _) h
  -- The index that the first run has added is no header, and no other file is new.
  refine ⟨hfound.1.trans (headersIn_eq_of_grows (hgrows.trans hgrows₂) hkeys ?_ ?_).symm, ?_⟩
  · rw [selectBelow, hkeys₂]
    apply selectBelow_insert hfiles
    intro names hnames
    rw [locate_indexIn] at hnames
    exact isHeader_index_eq_false hnames
  · intro h
    have hreaches := (Bool.and_eq_true_iff.mp (hexists h)).1
    exact (hsettled units _ hplan hdirectory).selectBelow_eq_nil hclosed rfl hunits
      (reaches_iff.mp hreaches).1
  · exact fun h => hback.exists_walk (hlist _ hdirectory (hexists h))

/-- A module whose path to the headers turns back from a directory in which nothing is written. -/
def detour : Configuration where
  outputRoot := some "out"
  moduleName := "../build/../gen"

/-- A header of an earlier run. -/
def detourSample : FileTree where
  directories := [["out"], ["out", "include"], ["out", "gen"], ["out", "gen", "Bindings"]]
  files := .ofEntries [(["out", "gen", "Bindings", "old.hpp"], "")]

theorem isClosed_detourSample : detourSample.IsClosed := by decide +kernel

theorem detourSample_repeated :
    ∃ report t', ((onTree detour .sol3).generate loneSample).Ends detourSample (.ok report) t' ∧
      ((onTree detour .sol3).generate loneSample).Ends t' (.ok report) t' := by
  have hplan : (loneSample.plan .sol3).outcome = .ok _ := rfl
  have h : ((onTree detour .sol3).generate loneSample).Ends detourSample
      (.ok ⟨1, 1, ["out/include/../build/../gen/Bindings/a/a.hpp",
        "out/src/../build/../gen/Bindings/a/a.cpp",
        "out/src/../build/../gen/Bindings/index.cpp"]⟩) _ := ⟨by decide +kernel, rfl⟩
  refine ⟨_, _, h, generate_again isClosed_detourSample ?_ h ?_⟩
  · intro units directory hunits _
    cases hplan.symm.trans hunits
    exact .entered _ List.mem_cons_self (by decide)
  · intro directory hdirectory _
    cases hdirectory
    exact exists_walk_iff.mpr (by decide +kernel)

/-- What a generation without units leaves of `detourSample`: an index without the header. -/
def bareSample : FileTree where
  directories := detourSample.directories ++ [["out", "src"], ["out", "build"]]
  files := detourSample.files.insert ["out", "gen", "Bindings", "index.cpp"]
    ("#include <sol/sol.hpp>\nnamespace obe::Bindings \x7b\n" ++
      "void IndexAllBindings(sol::state_view state)\n\x7b\n" ++
      "BindingTree BindTree(\"ObEngine\");\nBindTree(state);\n\x7d\n\x7d\n")

/-- Without a unit on the way, only writing the index creates the directory from which the path
turns back, so that the first run does not see the header that the second one includes. -/
theorem detourSample_changes :
    ∃ report t', detourSample.IsClosed ∧
      ((onTree detour .sol3).generate {}).Ends detourSample (.ok report) bareSample ∧
      ((onTree detour .sol3).generate {}).Ends bareSample (.ok report) t' ∧
      t'.read "out/src/../build/../gen/Bindings/index.cpp" ≠
        bareSample.read "out/src/../build/../gen/Bindings/index.cpp" := by
  let path := "out/src/../build/../gen/Bindings/index.cpp"
  have hplan : (({} : Database).plan .sol3).outcome = .ok [] := rfl
  have hdirectory : detour.headerDirectory = .ok "out/include/../build/../gen/Bindings" := rfl
  have hfirst : ((onTree detour .sol3).generate {}).Ends detourSample (.ok ⟨0, 0, [path]⟩)
      bareSample := ⟨by decide +kernel, by decide +kernel⟩
  have hsecond : ((onTree detour .sol3).generate {}).Ends bareSample (.ok ⟨0, 0, [path]⟩) _ :=
    ⟨by decide +kernel, rfl⟩
  have hexists : bareSample.exists? "out/include/../build/../gen/Bindings" := by decide +kernel
  have hnames : bareSample.selectBelow isHeader
      (bareSample.locate "out/include/../build/../gen/Bindings") = [["old.hpp"]] := by
    decide +kernel
  have hheaders : headersIn bareSample "out/include/../build/../gen/Bindings" =
      ["Bindings/old.hpp"] := by
    rw [headersIn, if_pos hexists, hnames, List.mergeSort_singleton]
    rfl
  have hother : (((BindingIndex.ofIncludes ["Bindings/old.hpp"]).addUnits []).text .sol3
      detour.indexScope detour.treeName).outcome.toOption ≠ (bareSample.read path).toOption := by
    decide +kernel
  refine ⟨_, _, isClosed_detourSample, hfirst, hsecond, fun hsame => ?_⟩
  obtain ⟨units, _, sourceRoot, t₁, headers, index, hunits, _, hs, hnone, hfound, htext, hsave,
    _⟩ := ends_generate_saves.mp hsecond
  cases hplan.symm.trans hunits
  cases hs
  cases hnone
  obtain ⟨rfl, _⟩ := (ends_discoverHeaders_iff hdirectory).mp hfound
  have hwritten : Written ([] ++ [(path, index)]) bareSample _ := .of_save hsave
  rw [hheaders] at htext
  rw [htext, ← hsame, hwritten.read_last] at hother
  exact hother rfl

end Generator

end ScriptBindings
