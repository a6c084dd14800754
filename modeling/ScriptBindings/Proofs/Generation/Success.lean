import ScriptBindings.Generation
import ScriptBindings.Proofs.Files.Path
import ScriptBindings.Proofs.Files.Writing
import ScriptBindings.Proofs.Index.Execution

namespace ScriptBindings

/-- The files of a unit with their texts, in the order in which they are written. -/
def BindingUnit.files (includeRoot sourceRoot : String) (u : BindingUnit) :
    List (String × String) :=
  [(Path.join includeRoot u.headerPath, u.header), (Path.join sourceRoot u.sourcePath, u.source)]

/-- The path of the index below the root of the sources. -/
def Configuration.indexIn (sourceRoot : String) : String :=
  Path.join (Path.join sourceRoot BindingUnit.directory) indexFile

/-- All files of a generation: those of the units in turn, and the index at the end. -/
def BindingUnit.filesOf (includeRoot sourceRoot : String) (units : List BindingUnit)
    (index : String) : List (String × String) :=
  units.flatMap (files includeRoot sourceRoot) ++ [(Configuration.indexIn sourceRoot, index)]

theorem Configuration.roots_of_indexPath {c : Configuration} {path : String}
    (h : c.indexPath = .ok path) :
    ∃ includeRoot sourceRoot, c.includeRoot = .ok includeRoot ∧ c.sourceRoot = .ok sourceRoot ∧
      path = indexIn sourceRoot := by
  unfold indexPath sourceRoot at h
  unfold includeRoot sourceRoot
  cases hroot : c.root with
  | ok root =>
    rw [hroot] at h
    exact ⟨_, _, rfl, rfl, (Except.ok.inj h).symm⟩
  | error e =>
    rw [hroot] at h
    cases h

theorem Configuration.indexPath_of_sourceRoot {c : Configuration} {sourceRoot : String}
    (h : c.sourceRoot = .ok sourceRoot) : c.indexPath = .ok (indexIn sourceRoot) := by
  rw [indexPath, h]
  rfl

theorem Configuration.headerDirectory_of_includeRoot {c : Configuration} {includeRoot : String}
    (h : c.includeRoot = .ok includeRoot) :
    c.headerDirectory = .ok (Path.join includeRoot BindingUnit.directory) := by
  rw [headerDirectory, h]
  rfl

theorem Configuration.exists_includeRoot {c : Configuration} {directory : String}
    (h : c.headerDirectory = .ok directory) :
    ∃ includeRoot, c.includeRoot = .ok includeRoot ∧
      directory = Path.join includeRoot BindingUnit.directory := by
  rw [headerDirectory] at h
  cases hi : c.includeRoot with
  | ok includeRoot =>
    rw [hi] at h
    exact ⟨includeRoot, rfl, (Except.ok.inj h).symm⟩
  | error e =>
    rw [hi] at h
    cases h

namespace Generator

open FileTree

section Visits

/-- The include path of what some names lead to from the header directory. -/
def headerInclude (names : List String) : String :=
  includeText (BindingUnit.directory :: names)

theorem isHeader_append (front names : List String) :
    isHeader (front ++ BindingUnit.directory :: names) = isHeader names := by
  have hdirectory : Path.extension? BindingUnit.directory = none := by decide
  cases names using List.reverseRecOn with
  | nil =>
    rw [isHeader, List.getLast?_concat, Option.bind_some, hdirectory]
    rfl
  | append_singleton names name =>
    rw [isHeader, isHeader, ← List.cons_append, ← List.append_assoc, List.getLast?_concat,
      List.getLast?_concat]

theorem headerOf_under (includeRoot : String) (v : Visit) :
    headerOf includeRoot (v.under (Path.parts (Path.join includeRoot BindingUnit.directory))) =
      if v.isRegular && isHeader v.names then some (headerInclude v.names) else none := by
  have hdirectory : Path.IsName BindingUnit.directory := by decide
  have hbelow := Path.below_eq_some.mpr
    (rfl : Path.parts includeRoot ++ BindingUnit.directory :: v.names = _)
  rw [headerOf, Visit.under, Path.parts_join hdirectory, List.append_assoc]
  simp only [List.singleton_append, isHeader_append, hbelow]
  rfl

theorem filterMap_headerOf (includeRoot : String) (vs : List Visit) :
    (vs.map (Visit.under (Path.parts (Path.join includeRoot BindingUnit.directory)))).filterMap
        (headerOf includeRoot) =
      (((vs.filter Visit.isRegular).map Visit.names).filter isHeader).map headerInclude := by
  induction vs with
  | nil => rfl
  | cons v vs ih =>
    rw [List.map_cons, List.filterMap_cons, headerOf_under, ih]
    by_cases hregular : v.isRegular
    · by_cases hheader : isHeader v.names
      · simp [hregular, hheader]
      · simp [hregular, hheader]
    · simp [hregular]

end Visits

/-- The generator that works on file trees. -/
def onTree (c : Configuration) (adapter : Adapter) : Generator (StateM FileTree) :=
  ⟨c, adapter, FileTree.storage⟩

variable {c : Configuration} {adapter : Adapter} {db : Database} {u : BindingUnit}
  {units : List BindingUnit} {t t' : FileTree} {includeRoot sourceRoot : String}

theorem ends_writeUnit_ok {names : List String} (hi : c.includeRoot = .ok includeRoot)
    (hs : c.sourceRoot = .ok sourceRoot) :
    ((onTree c adapter).writeUnit u).Ends t (.ok names) t' ↔
      names = (u.files includeRoot sourceRoot).map Prod.fst ∧
        Saves (u.files includeRoot sourceRoot) t t' := by
  simp only [writeUnit, Task.ends_bind_ok, Task.ends_ofRun, Task.ends_pure, Run.outcome_ofExcept,
    Run.outcome_report]
  constructor
  · rintro ⟨_, _, ⟨hi', rfl⟩, _, _, ⟨hs', rfl⟩, _, t₁, hheader, _, t₂, hsource, _, _, ⟨_, rfl⟩,
      hnames, rfl⟩
    cases hi.symm.trans hi'
    cases hs.symm.trans hs'
    exact ⟨(Except.ok.inj hnames).symm, .cons hheader (saves_singleton.mpr hsource)⟩
  · rintro ⟨rfl, hsaves⟩
    cases hsaves with
    | @cons _ _ _ _ t₁ _ hheader hrest =>
      cases hrest with
      | @cons _ _ _ _ t₂ _ hsource hnil =>
        cases hnil
        exact ⟨_, t, ⟨hi, rfl⟩, _, t, ⟨hs, rfl⟩, (), t₁, hheader, (), t', hsource, (), t',
          ⟨trivial, rfl⟩, rfl, rfl⟩

theorem ends_writeUnits_ok {names : List String} (hi : c.includeRoot = .ok includeRoot)
    (hs : c.sourceRoot = .ok sourceRoot) :
    ((onTree c adapter).writeUnits units).Ends t (.ok names) t' ↔
      names = (units.flatMap (BindingUnit.files includeRoot sourceRoot)).map Prod.fst ∧
        Saves (units.flatMap (BindingUnit.files includeRoot sourceRoot)) t t' := by
  induction units generalizing t t' names with
  | nil =>
    constructor
    · intro h
      obtain ⟨hnames, rfl⟩ := Task.ends_pure.mp h
      exact ⟨(Except.ok.inj hnames).symm, .nil⟩
    · rintro ⟨rfl, hsaves⟩
      cases hsaves
      exact ⟨rfl, rfl⟩
  | cons u units ih =>
    simp only [writeUnits, Task.ends_bind_ok, Task.ends_pure, ends_writeUnit_ok hi hs, ih,
      List.flatMap_cons, List.map_append, saves_append_iff]
    constructor
    · rintro ⟨_, t₁, ⟨rfl, hfirst⟩, _, _, ⟨rfl, hmore⟩, hnames, rfl⟩
      exact ⟨(Except.ok.inj hnames).symm, t₁, hfirst, hmore⟩
    · rintro ⟨rfl, t₁, hfirst, hmore⟩
      exact ⟨_, t₁, ⟨rfl, hfirst⟩, _, t', ⟨rfl, hmore⟩, rfl, rfl⟩

theorem ends_discoverHeaders_ok {headers : List String} :
    (onTree c adapter).discoverHeaders.Ends t (.ok headers) t' ↔
      t' = t ∧ ∃ includeRoot directory, c.includeRoot = .ok includeRoot ∧
        c.headerDirectory = .ok directory ∧
        if t.exists? directory then
          ∃ visits, t.walk directory = .ok visits ∧
            headers = visits.filterMap (headerOf includeRoot)
        else headers = [] := by
  simp only [discoverHeaders, Task.ends_bind_ok, Task.ends_ofRun, Task.ends_act,
    Run.outcome_ofExcept]
  constructor
  · rintro ⟨includeRoot, _, ⟨hi, rfl⟩, directory, _, ⟨hdirectory, rfl⟩, found, _, ⟨hfound, rfl⟩, h⟩
    obtain rfl : t.exists? directory = found := Except.ok.inj hfound
    split at h
    · rename_i hexists
      simp only [Task.ends_bind_ok, Task.ends_pure, Storage.ends_attempt_ok] at h
      obtain ⟨visits, t₁, hvisits, hheaders, rfl⟩ := h
      obtain ⟨hfound, rfl⟩ := Prod.ext_iff.mp hvisits
      refine ⟨rfl, includeRoot, directory, hi, hdirectory, ?_⟩
      rw [if_pos hexists]
      exact ⟨visits, hfound, (Except.ok.inj hheaders).symm⟩
    · rename_i hexists
      obtain ⟨hheaders, rfl⟩ := Task.ends_pure.mp h
      refine ⟨rfl, includeRoot, directory, hi, hdirectory, ?_⟩
      rw [if_neg hexists]
      exact (Except.ok.inj hheaders).symm
  · rintro ⟨rfl, includeRoot, directory, hi, hdirectory, h⟩
    refine ⟨includeRoot, t', ⟨hi, rfl⟩, directory, t', ⟨hdirectory, rfl⟩, t'.exists? directory, t',
      ⟨rfl, rfl⟩, ?_⟩
    by_cases hexists : t'.exists? directory
    · rw [if_pos hexists] at h ⊢
      obtain ⟨visits, hvisits, rfl⟩ := h
      simp only [Task.ends_bind_ok, Task.ends_pure, Storage.ends_attempt_ok]
      exact ⟨visits, t', Prod.ext hvisits rfl, rfl, rfl⟩
    · rw [if_neg hexists] at h ⊢
      obtain rfl := h
      exact ⟨rfl, rfl⟩

theorem ends_writeIndex_ok {path : String} :
    ((onTree c adapter).writeIndex units).Ends t (.ok path) t' ↔
      ∃ headers text, (onTree c adapter).discoverHeaders.Ends t (.ok headers) t ∧
        c.indexPath = .ok path ∧
        (((BindingIndex.ofIncludes headers).addUnits units).text adapter c.indexScope
          c.treeName).outcome = .ok text ∧
        (FileTree.storage.save path text).Ends t (.ok ()) t' := by
  simp only [writeIndex, Task.ends_bind_ok, Task.ends_ofRun, Task.ends_pure, Run.outcome_ofExcept,
    Run.outcome_report]
  constructor
  · rintro ⟨_, _, ⟨_, rfl⟩, headers, t₁, hfound, _, _, ⟨hpath, rfl⟩, text, _, ⟨htext, rfl⟩, _, _,
      hsave, hout, rfl⟩
    cases hout
    obtain ⟨rfl, _⟩ := ends_discoverHeaders_ok.mp hfound
    exact ⟨headers, text, hfound, hpath, htext, hsave⟩
  · rintro ⟨headers, text, hfound, hpath, htext, hsave⟩
    exact ⟨(), t, ⟨trivial, rfl⟩, headers, t, hfound, path, t, ⟨hpath, rfl⟩, text, t,
      ⟨htext, rfl⟩, (), t', hsave, rfl, rfl⟩

theorem ends_generate_ok {report : Report} :
    ((onTree c adapter).generate db).Ends t (.ok report) t' ↔
      ∃ units names t₁ path, (db.plan adapter).outcome = .ok units ∧
        ((onTree c adapter).writeUnits units).Ends t (.ok names) t₁ ∧
        ((onTree c adapter).writeIndex units).Ends t₁ (.ok path) t' ∧
        report = ⟨units.length, objectCount units, names ++ [path]⟩ := by
  simp only [generate, Task.ends_bind_ok, Task.ends_ofRun, Task.ends_pure, Run.outcome_report]
  constructor
  · rintro ⟨_, _, ⟨_, rfl⟩, units, _, ⟨hplan, rfl⟩, names, t₁, hunits, path, _, hindex, _, _,
      ⟨_, rfl⟩, hreport, rfl⟩
    exact ⟨units, names, t₁, path, hplan, hunits, hindex, (Except.ok.inj hreport).symm⟩
  · rintro ⟨units, names, t₁, path, hplan, hunits, hindex, rfl⟩
    exact ⟨(), t, ⟨trivial, rfl⟩, units, t, ⟨hplan, rfl⟩, names, t₁, hunits, path, t', hindex, (),
      t', ⟨trivial, rfl⟩, rfl, rfl⟩

/-- A generation that leaves the index empty. -/
def rehearse (g : Generator (StateM FileTree)) (db : Database) : Task (StateM FileTree) Unit := do
  let units ← Task.ofRun (db.plan g.adapter)
  let _ ← g.writeUnits units
  let _ ← g.discoverHeaders
  let path ← Task.ofRun (.ofExcept g.configuration.indexPath)
  g.storage.save path ""

theorem ends_rehearse_ok :
    ((onTree c adapter).rehearse db).Ends t (.ok ()) t' ↔
      ∃ units names t₁ headers path, (db.plan adapter).outcome = .ok units ∧
        ((onTree c adapter).writeUnits units).Ends t (.ok names) t₁ ∧
        (onTree c adapter).discoverHeaders.Ends t₁ (.ok headers) t₁ ∧
        c.indexPath = .ok path ∧ (FileTree.storage.save path "").Ends t₁ (.ok ()) t' := by
  simp only [rehearse, Task.ends_bind_ok, Task.ends_ofRun, Run.outcome_ofExcept]
  constructor
  · rintro ⟨units, _, ⟨hplan, rfl⟩, names, t₁, hunits, headers, _, hfound, path, _, ⟨hpath, rfl⟩,
      hsave⟩
    obtain ⟨rfl, _⟩ := ends_discoverHeaders_ok.mp hfound
    exact ⟨units, names, _, headers, path, hplan, hunits, hfound, hpath, hsave⟩
  · rintro ⟨units, names, t₁, headers, path, hplan, hunits, hfound, hpath, hsave⟩
    exact ⟨units, t, ⟨hplan, rfl⟩, names, t₁, hunits, headers, t₁, hfound, path, t₁, ⟨hpath, rfl⟩,
      hsave⟩

/-- Whether a generation succeeds does not depend on what the index says. -/
theorem exists_ends_generate_iff :
    (∃ report t', ((onTree c adapter).generate db).Ends t (.ok report) t') ↔
      ∃ t', ((onTree c adapter).rehearse db).Ends t (.ok ()) t' := by
  constructor
  · rintro ⟨report, t', h⟩
    obtain ⟨units, names, t₁, path, hplan, hunits, hindex, _⟩ := ends_generate_ok.mp h
    obtain ⟨headers, text, hfound, hpath, _, hsave⟩ := ends_writeIndex_ok.mp hindex
    obtain ⟨t'', hempty⟩ := exists_ends_save "" hsave
    exact ⟨t'', ends_rehearse_ok.mpr
      ⟨units, names, t₁, headers, path, hplan, hunits, hfound, hpath, hempty⟩⟩
  · rintro ⟨t', h⟩
    obtain ⟨units, names, t₁, headers, path, hplan, hunits, hfound, hpath, hempty⟩ :=
      ends_rehearse_ok.mp h
    have htext := ((BindingIndex.ofIncludes headers).addUnits units).outcome_text adapter
      c.indexScope c.treeName
    obtain ⟨t'', hsave⟩ := exists_ends_save _ hempty
    have hindex := ends_writeIndex_ok.mpr ⟨headers, _, hfound, hpath, htext, hsave⟩
    exact ⟨_, t'', ends_generate_ok.mpr ⟨units, names, t₁, path, hplan, hunits, hindex, rfl⟩⟩

/-- A successful generation writes the files of its units, looks for headers, and then writes the
index. -/
theorem ends_generate_saves {report : Report} :
    ((onTree c adapter).generate db).Ends t (.ok report) t' ↔
      ∃ units includeRoot sourceRoot t₁ headers index, (db.plan adapter).outcome = .ok units ∧
        c.includeRoot = .ok includeRoot ∧ c.sourceRoot = .ok sourceRoot ∧
        Saves (units.flatMap (BindingUnit.files includeRoot sourceRoot)) t t₁ ∧
        (onTree c adapter).discoverHeaders.Ends t₁ (.ok headers) t₁ ∧
        (((BindingIndex.ofIncludes headers).addUnits units).text adapter c.indexScope
          c.treeName).outcome = .ok index ∧
        (FileTree.storage.save (Configuration.indexIn sourceRoot) index).Ends t₁ (.ok ()) t' ∧
        report = ⟨units.length, objectCount units,
          (BindingUnit.filesOf includeRoot sourceRoot units index).map Prod.fst⟩ := by
  have hnames (units : List BindingUnit) (includeRoot sourceRoot index : String) :
      (BindingUnit.filesOf includeRoot sourceRoot units index).map Prod.fst =
        (units.flatMap (BindingUnit.files includeRoot sourceRoot)).map Prod.fst ++
          [Configuration.indexIn sourceRoot] := by
    rw [BindingUnit.filesOf, List.map_append]
    rfl
  constructor
  · intro h
    obtain ⟨units, names, t₁, path, hplan, hunits, hindex, rfl⟩ := ends_generate_ok.mp h
    obtain ⟨headers, index, hfound, hpath, htext, hsave⟩ := ends_writeIndex_ok.mp hindex
    obtain ⟨includeRoot, sourceRoot, hi, hs, rfl⟩ := Configuration.roots_of_indexPath hpath
    obtain ⟨rfl, hsaves⟩ := (ends_writeUnits_ok hi hs).mp hunits
    refine ⟨units, includeRoot, sourceRoot, t₁, headers, index, hplan, hi, hs, hsaves, hfound,
      htext, hsave, ?_⟩
    rw [hnames]
  · rintro ⟨units, includeRoot, sourceRoot, t₁, headers, index, hplan, hi, hs, hsaves, hfound,
      htext, hsave, rfl⟩
    have hpath := Configuration.indexPath_of_sourceRoot hs
    have hindex := ends_writeIndex_ok.mpr ⟨headers, index, hfound, hpath, htext, hsave⟩
    rw [hnames]
    exact ends_generate_ok.mpr ⟨units, _, t₁, _, hplan,
      (ends_writeUnits_ok hi hs).mpr ⟨rfl, hsaves⟩, hindex, rfl⟩

theorem written_of_generate {report : Report}
    (h : ((onTree c adapter).generate db).Ends t (.ok report) t') :
    ∃ units includeRoot sourceRoot index, (db.plan adapter).outcome = .ok units ∧
      c.includeRoot = .ok includeRoot ∧ c.sourceRoot = .ok sourceRoot ∧
      Written (BindingUnit.filesOf includeRoot sourceRoot units index) t t' ∧
      report = ⟨units.length, objectCount units,
        (BindingUnit.filesOf includeRoot sourceRoot units index).map Prod.fst⟩ := by
  obtain ⟨units, includeRoot, sourceRoot, t₁, headers, index, hplan, hi, hs, hsaves, _, _, hsave,
    hreport⟩ := ends_generate_saves.mp h
  exact ⟨units, includeRoot, sourceRoot, index, hplan, hi, hs,
    hsaves.written.append (.of_save hsave), hreport⟩

end Generator

end ScriptBindings
