import ScriptBindings.Proofs.ByteOrder
import ScriptBindings.Proofs.Files.Walk
import ScriptBindings.Proofs.Generation.Headers

namespace ScriptBindings.Generator

section Headers

variable {names : List String} {es : Entries}

theorem isHeader_iff : isHeader names = true ↔
    ∃ front stem, stem ≠ "" ∧ names = front ++ [stem ++ ".hpp"] := by
  have hhpp : '.' ∉ "hpp".toList := by decide
  have hending (stem : String) : stem ++ "." ++ "hpp" = stem ++ ".hpp" := String.append_assoc
  constructor
  · intro h
    obtain ⟨name, hname, hextension⟩ := Option.bind_eq_some_iff.mp (eq_of_beq h)
    obtain ⟨front, hfront⟩ := List.getLast?_eq_some_iff.mp hname
    obtain ⟨stem, hstem, rfl⟩ := (Path.extension?_eq_some_iff hhpp).mp hextension
    exact ⟨front, stem, hstem, by rw [hfront, hending]⟩
  · rintro ⟨front, stem, hstem, rfl⟩
    rw [isHeader, List.getLast?_concat, Option.bind_some, ← hending, beq_iff_eq]
    exact (Path.extension?_eq_some_iff hhpp).mpr ⟨stem, hstem, rfl⟩

/-- The names that lead to the headers, from the directory above. -/
def headerPaths (es : Entries) : List (List String) :=
  (es.files.filter isHeader).map (BindingUnit.directory :: ·)

theorem mem_headerPaths {path : List String} : path ∈ headerPaths es ↔
    ∃ front stem, stem ≠ "" ∧ es.Leads (front ++ [stem ++ ".hpp"]) true ∧
      path = BindingUnit.directory :: front ++ [stem ++ ".hpp"] := by
  simp only [headerPaths, List.mem_map, List.mem_filter, Entries.mem_files, isHeader_iff]
  constructor
  · rintro ⟨names, ⟨hleads, front, stem, hstem, rfl⟩, rfl⟩
    exact ⟨front, stem, hstem, hleads, rfl⟩
  · rintro ⟨front, stem, hstem, hleads, rfl⟩
    exact ⟨_, ⟨hleads, front, stem, hstem, rfl⟩, rfl⟩

theorem pairwise_headerPaths (hes : es.IsProper) : (headerPaths es).Pairwise (· < ·) := by
  apply List.pairwise_map.mpr
  apply (hes.pairwise_files.filter isHeader).imp
  intro names names' h
  exact List.cons_lt_cons_iff.mpr (.inr ⟨rfl, h⟩)

theorem map_intercalate_headerPaths (es : Entries) :
    (headerPaths es).map "/".intercalate = (es.files.filter isHeader).map headerInclude := by
  rw [headerPaths, List.map_map]
  rfl

theorem nodup_headerPaths (hes : es.IsProper) :
    ((headerPaths es).map "/".intercalate).Nodup := by
  rw [map_intercalate_headerPaths]
  apply nodup_map_headerInclude (hes.pairwise_files.nodup.filter isHeader)
  intro names hnames
  exact (Entries.mem_files.mp (List.mem_of_mem_filter hnames)).slash_not_mem hes

end Headers

section Discovery

variable {σ : Type} {g : Generator (StateM σ)} {includeRoot directory : String} {s : σ}
  {es : Entries}

theorem discoverHeaders_missing (hroot : g.configuration.includeRoot = .ok includeRoot)
    (hdirectory : g.configuration.headerDirectory = .ok directory)
    (h : g.storage.exists? directory s = (false, s)) : g.discoverHeaders.Ends s (.ok []) s := by
  have hfound : (Task.act (g.storage.exists? directory)).Ends s (.ok false) s := by
    rw [Task.ends_act, h]
    exact ⟨rfl, rfl⟩
  rw [discoverHeaders, Task.ends_ofRun_bind_of_ok hroot, Task.ends_ofRun_bind_of_ok hdirectory,
    Task.ends_bind_of_ok hfound]
  exact Task.ends_pure.mpr ⟨rfl, rfl⟩

theorem discoverHeaders_shown (hroot : g.configuration.includeRoot = .ok includeRoot)
    (hdirectory : g.configuration.headerDirectory = .ok directory)
    (h : g.storage.Shows s directory es) :
    g.discoverHeaders.Ends s (.ok ((headerPaths es).map "/".intercalate)) s := by
  have hjoin : directory = Path.join includeRoot BindingUnit.directory := Except.ok.inj
    (hdirectory.symm.trans (Configuration.headerDirectory_of_includeRoot hroot))
  have hfound : (Task.act (g.storage.exists? directory)).Ends s (.ok true) s := by
    rw [Task.ends_act, h.exists_eq]
    exact ⟨rfl, rfl⟩
  have hwalked : (Storage.attempt directory (g.storage.walk directory)).Ends s (.ok _) s :=
    Storage.ends_attempt_ok.mpr h.walk_eq
  rw [discoverHeaders, Task.ends_ofRun_bind_of_ok hroot, Task.ends_ofRun_bind_of_ok hdirectory,
    Task.ends_bind_of_ok hfound, if_pos rfl, Task.ends_bind_of_ok hwalked, hjoin,
    filterMap_headerOf, map_intercalate_headerPaths]
  exact Task.ends_pure.mpr ⟨rfl, rfl⟩

/-- The headers that are found are those of the directory, by their paths from the include root.
Whoever enumerates the entries of the directory in another order finds the same. -/
theorem discoverHeaders_lists (hroot : g.configuration.includeRoot = .ok includeRoot)
    (hdirectory : g.configuration.headerDirectory = .ok directory) (s : σ) :
    (g.storage.exists? directory s = (false, s) → g.discoverHeaders.Ends s (.ok []) s) ∧
    (∀ names, Path.parts includeRoot ++ BindingUnit.directory :: names =
      Path.parts directory ++ names) ∧
    ∀ es : Entries, es.IsProper → g.storage.Shows s directory es →
      ∃ paths : List (List String),
        g.discoverHeaders.Ends s (.ok (paths.map "/".intercalate)) s ∧
        paths.Pairwise (fun path path' => path.map bytes < path'.map bytes) ∧
        (paths.map "/".intercalate).Nodup ∧
        (∀ path, path ∈ paths ↔ ∃ front stem, stem ≠ "" ∧
          es.Leads (front ++ [stem ++ ".hpp"]) true ∧
          path = BindingUnit.directory :: front ++ [stem ++ ".hpp"]) ∧
        (∀ names, es.Leads names false → BindingUnit.directory :: names ∉ paths) ∧
        ∀ s' es', es.Reordered es' → g.storage.Shows s' directory es' →
          g.discoverHeaders.Ends s' (.ok (paths.map "/".intercalate)) s' := by
  refine ⟨discoverHeaders_missing hroot hdirectory, fun names => ?_, fun es hes hshows => ?_⟩
  · cases hdirectory.symm.trans (Configuration.headerDirectory_of_includeRoot hroot)
    rw [Path.parts_join (by decide), List.append_assoc]
    rfl
  refine ⟨headerPaths es, discoverHeaders_shown hroot hdirectory hshows,
    (pairwise_headerPaths hes).imp map_bytes_lt, nodup_headerPaths hes, fun path => mem_headerPaths,
    ?_, ?_⟩
  · intro names hleads hmem
    obtain ⟨front, stem, _, hfile, hnames⟩ := mem_headerPaths.mp hmem
    obtain rfl : names = front ++ [stem ++ ".hpp"] := (List.cons.inj hnames).2
    exact Bool.false_ne_true (hes.eq_of_leads hleads hfile)
  · intro s' es' hreordered hshows'
    have hsame : headerPaths es' = headerPaths es := by
      rw [headerPaths, hreordered.files_eq hes, headerPaths]
    rw [← hsame]
    exact discoverHeaders_shown hroot hdirectory hshows'

/-- Directories whose order is not that of the paths below them, one that is named like a header,
and a file that is nothing but an ending. -/
def plusSample : FileTree where
  directories := [["out"], ["out", "include"], ["out", "include", "Core"],
    ["out", "include", "Core", "Bindings"], ["out", "include", "Core", "Bindings", "a+"],
    ["out", "include", "Core", "Bindings", "a"], ["out", "include", "Core", "Bindings", "z.hpp"]]
  files := .ofEntries [(["out", "include", "Core", "Bindings", "b.hpp"], ""),
    (["out", "include", "Core", "Bindings", "a+", "c.hpp"], ""),
    (["out", "include", "Core", "Bindings", "a", "x.hpp"], ""),
    (["out", "include", "Core", "Bindings", "a", ".hpp"], "")]

def plusEntries : Entries :=
  .directory "z.hpp" .nil (.directory "a+" (.file "c.hpp" true .nil) (.file "b.hpp" true
    (.directory "a" (.file "x.hpp" true (.file ".hpp" true .nil)) .nil)))

theorem plusSample_shows :
    FileTree.storage.Shows plusSample "out/include/Core/Bindings" plusEntries :=
  FileTree.storage_shows (by decide +kernel) (FileTree.exists_walk_iff.mpr (by decide +kernel))
    (by decide) (by decide +kernel)

/-- The directory `a` comes before `a+`, though the paths compare the other way. -/
theorem plusSample_discovered :
    (onTree (.writingTo "out") .sol3).discoverHeaders.Ends .empty (.ok []) .empty ∧
    (onTree (.writingTo "out") .sol3).discoverHeaders.Ends plusSample
      (.ok ["Bindings/a/x.hpp", "Bindings/a+/c.hpp", "Bindings/b.hpp"]) plusSample := by
  have hroot : (Configuration.writingTo "out").includeRoot = .ok "out/include/Core" := by
    decide +kernel
  have hdirectory : (Configuration.writingTo "out").headerDirectory =
      .ok "out/include/Core/Bindings" := by decide +kernel
  obtain ⟨hmissing, _⟩ := discoverHeaders_lists (g := onTree (.writingTo "out") .sol3) hroot
    hdirectory FileTree.empty
  obtain ⟨_, _, hlists⟩ := discoverHeaders_lists (g := onTree (.writingTo "out") .sol3) hroot
    hdirectory plusSample
  obtain ⟨paths, hends, hsorted, _, hpaths, _, _⟩ :=
    hlists plusEntries (by decide) plusSample_shows
  refine ⟨hmissing (Prod.ext (by decide +kernel) rfl), ?_⟩
  have hsame : paths = headerPaths plusEntries :=
    (hsorted.imp map_bytes_lt_iff.mp).eq_of_mem_iff (pairwise_headerPaths (by decide)) fun path =>
      (hpaths path).trans mem_headerPaths.symm
  have htexts : paths.map "/".intercalate =
      ["Bindings/a/x.hpp", "Bindings/a+/c.hpp", "Bindings/b.hpp"] := by
    rw [hsame]
    decide +kernel
  rw [htexts] at hends
  exact hends

end Discovery

end ScriptBindings.Generator
