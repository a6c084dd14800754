import ScriptBindings.Proofs.Generation.Location

namespace ScriptBindings

namespace BindingUnit

/-- The files of the unit hold its own texts. -/
def KeptIn (t : FileTree) (includeRoot sourceRoot : String) (u : BindingUnit) : Prop :=
  t.read (Path.join includeRoot u.headerPath) = .ok u.header ∧
    t.read (Path.join sourceRoot u.sourcePath) = .ok u.source

theorem keptIn_iff {t : FileTree} {includeRoot sourceRoot : String} {u : BindingUnit} :
    u.KeptIn t includeRoot sourceRoot ↔
      ∀ f ∈ u.files includeRoot sourceRoot, t.read f.1 = .ok f.2 := by
  simp [KeptIn, files]

end BindingUnit

namespace Generator

variable {c : Configuration} {adapter : Adapter} {db : Database} {t t' : FileTree}
  {report : Report} {units : List BindingUnit} {includeRoot sourceRoot index : String}

theorem keptIn_iff_of_written
    (h : FileTree.Written (BindingUnit.filesOf includeRoot sourceRoot units index) t t') :
    (∀ u ∈ units, u.KeptIn t' includeRoot sourceRoot) ↔
      t.Agree (BindingUnit.filesOf includeRoot sourceRoot units index) := by
  rw [← h.read_iff]
  simp only [BindingUnit.keptIn_iff, BindingUnit.filesOf, List.forall_mem_append,
    List.forall_mem_singleton, List.forall_mem_flatMap, h.read_last, and_true]

/-- After a successful generation the files of all units hold their own texts exactly when files
at one location have one text. For units with plain names that is when their namespaces differ in
their segments, as they do in a database of canonical names. -/
theorem generate_keeps_texts (h : ((onTree c adapter).generate db).Ends t (.ok report) t') :
    ∃ units includeRoot sourceRoot index, (db.plan adapter).outcome = .ok units ∧
      c.includeRoot = .ok includeRoot ∧ c.sourceRoot = .ok sourceRoot ∧
      t'.read (Configuration.indexIn sourceRoot) = .ok index ∧
      ((∀ u ∈ units, u.KeptIn t' includeRoot sourceRoot) ↔
        t.Agree (BindingUnit.filesOf includeRoot sourceRoot units index)) ∧
      ((∀ u ∈ units, u.IsPlain) →
        ((∀ u ∈ units, u.KeptIn t' includeRoot sourceRoot) ↔
          (units.map BindingUnit.segments).Nodup) ∧
        ((∀ key ∈ db.keys, Scope.IsQualified (Scope.templateHead key)) →
          ∀ u ∈ units, u.KeptIn t' includeRoot sourceRoot)) := by
  obtain ⟨units, includeRoot, sourceRoot, index, hplan, hi, hs, hwritten, _⟩ :=
    written_of_generate h
  have hkept := keptIn_iff_of_written hwritten
  refine ⟨units, includeRoot, sourceRoot, index, hplan, hi, hs, hwritten.read_last, hkept,
    fun hplain => ?_⟩
  have hsegments := hkept.trans (BindingUnit.agree_filesOf_iff hplain
    (Database.nodup_scopes hplan) fun u hu => Database.header_eq hplan hu)
  refine ⟨hsegments, fun hkeys => hsegments.mpr ?_⟩
  exact Database.nodup_segments hplan fun u hu => Database.scope_eq_join hplan hkeys hu

theorem nestedSample_texts_kept :
    ∃ units report t', (Database.nestedSample.plan .sol3).outcome = .ok units ∧
      units.map BindingUnit.headerPath = ["Bindings/a/a.hpp", "Bindings/a/b/b.hpp"] ∧
      ((onTree (.writingTo "out") .sol3).generate Database.nestedSample).Ends FileTree.empty
        (.ok report) t' ∧
      ∀ u ∈ units, u.KeptIn t' "out/include/Core" "out/src/Core" := by
  have hrehearsal : ∃ t', ((onTree (.writingTo "out") .sol3).rehearse Database.nestedSample).Ends
      FileTree.empty (.ok ()) t' := ⟨_, by decide +kernel, rfl⟩
  obtain ⟨report, t', h⟩ := exists_ends_generate_iff.mpr hrehearsal
  obtain ⟨units, includeRoot, sourceRoot, index, hplan, hi, hs, _, _, hkept⟩ :=
    generate_keeps_texts h
  cases hi
  cases hs
  have hunits := Database.eq_getD_of_plan hplan
  have hpaths : units.map BindingUnit.headerPath = ["Bindings/a/a.hpp", "Bindings/a/b/b.hpp"] := by
    rw [hunits]
    decide +kernel
  have hplain : ∀ u ∈ units, u.IsPlain := by
    rw [hunits]
    decide +kernel
  exact ⟨units, report, t', hplan, hpaths, h, (hkept hplain).2 Database.nestedSample_keys⟩

/-- Two functions of one namespace that is written in two ways. -/
def splitSample : Database where
  functions := .ofEntries [
    ("a::f", .single { name := "f", returnType := "void", location := "include/f.hpp" }),
    ("::a::g", .single { name := "g", returnType := "void", location := "include/g.hpp" })]

/-- Texts can be lost: two units share their files, and those of the first one are replaced. -/
theorem splitSample_texts_lost :
    ∃ units report t', (splitSample.plan .sol3).outcome = .ok units ∧
      units.map BindingUnit.headerPath = ["Bindings/a/a.hpp", "Bindings/a/a.hpp"] ∧
      ((onTree (.writingTo "out") .sol3).generate splitSample).Ends FileTree.empty
        (.ok report) t' ∧
      ¬ ∀ u ∈ units, u.KeptIn t' "out/include/Core" "out/src/Core" := by
  have hrehearsal : ∃ t', ((onTree (.writingTo "out") .sol3).rehearse splitSample).Ends
      FileTree.empty (.ok ()) t' := ⟨_, by decide +kernel, rfl⟩
  obtain ⟨report, t', h⟩ := exists_ends_generate_iff.mpr hrehearsal
  obtain ⟨units, includeRoot, sourceRoot, index, hplan, hi, hs, hwritten, _⟩ :=
    written_of_generate h
  cases hi
  cases hs
  have hunits := Database.eq_getD_of_plan hplan
  have hpaths : units.map BindingUnit.headerPath = ["Bindings/a/a.hpp", "Bindings/a/a.hpp"] := by
    rw [hunits]
    decide +kernel
  have hheaders : (units.map BindingUnit.header).Nodup := by
    rw [hunits]
    decide +kernel
  refine ⟨units, report, t', hplan, hpaths, h, ?_⟩
  intro hkept
  obtain ⟨u, v, rfl⟩ := List.length_eq_two.mp (by simpa using congrArg List.length hpaths)
  have hpath : u.headerPath = v.headerPath := by
    simp only [List.map_cons, List.cons.injEq] at hpaths
    exact hpaths.1.trans hpaths.2.1.symm
  have hu := (hkept u (by simp)).1
  rw [hpath, (hkept v (by simp)).1] at hu
  simp [Except.ok.inj hu] at hheaders

end Generator

end ScriptBindings
