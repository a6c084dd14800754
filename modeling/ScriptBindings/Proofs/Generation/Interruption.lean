import Mathlib.Algebra.Ring.Nat
import ScriptBindings.Proofs.CommandLine
import ScriptBindings.Proofs.Files.View
import ScriptBindings.Proofs.Generation.Files

namespace ScriptBindings

namespace Configuration

variable {c : Configuration}

theorem roots_of_outputRoot {root : String} (h : c.outputRoot = some root) :
    ∃ includeRoot sourceRoot, c.includeRoot = .ok includeRoot ∧
      c.sourceRoot = .ok sourceRoot := by
  unfold includeRoot sourceRoot Configuration.root
  rw [h]
  exact ⟨_, _, rfl, rfl⟩

theorem includeRoot_of_unset (h : c.outputRoot = none) :
    c.includeRoot = .error (.unset outputVariable) := by
  unfold includeRoot Configuration.root
  rw [h]
  rfl

end Configuration

namespace Generator

open Storage.View

variable {σ γ : Type} {storage : Storage (StateM σ)} {c : Configuration} {adapter : Adapter}
  {db : Database} {includeRoot sourceRoot : String}

theorem writes_writeUnit (view : storage.View γ) (hi : c.includeRoot = .ok includeRoot)
    (hs : c.sourceRoot = .ok sourceRoot) (u : BindingUnit) :
    view.Writes (writeUnit ⟨c, adapter, storage⟩ u) (u.files includeRoot sourceRoot)
      ((u.files includeRoot sourceRoot).map Prod.fst) := by
  refine .bind (writes_ofRun hi) (.bind (writes_ofRun hs) ?_)
  refine .bind (writes_save view _ _) ((writes_save view _ _).bind_nil ?_)
  exact .bind (writes_ofRun rfl) (writes_pure _)

theorem writes_writeUnits (view : storage.View γ) (hi : c.includeRoot = .ok includeRoot)
    (hs : c.sourceRoot = .ok sourceRoot) (units : List BindingUnit) :
    view.Writes (writeUnits ⟨c, adapter, storage⟩ units)
      (units.flatMap (BindingUnit.files includeRoot sourceRoot))
      ((units.flatMap (BindingUnit.files includeRoot sourceRoot)).map Prod.fst) := by
  induction units with
  | nil => exact writes_pure _
  | cons u units ih =>
    rw [List.flatMap_cons, List.map_append]
    exact .bind (writes_writeUnit view hi hs u) (ih.bind_pure fun names => _ ++ names)

theorem keeps_discoverHeaders (view : storage.View γ) :
    view.Keeps (discoverHeaders ⟨c, adapter, storage⟩) := by
  refine .bind (keeps_ofRun _) fun includeRoot => .bind (keeps_ofRun _) fun directory => ?_
  refine .bind (keeps_act (view.contents_exists directory)) fun found => ?_
  cases found with
  | true =>
    have hwalk := keeps_attempt directory (view.contents_walk directory)
    exact .bind hwalk fun _ => keeps_ofRun _
  | false => exact keeps_ofRun _

/-- The text of an index is that for some headers. -/
def IsIndexText (c : Configuration) (adapter : Adapter) (units : List BindingUnit)
    (text : String) : Prop :=
  ∃ headers, (((BindingIndex.ofIncludes headers).addUnits units).text adapter c.indexScope
    c.treeName).outcome = .ok text

/-- Before the index is written, the look for headers may fail. -/
theorem advances_writeIndex (view : storage.View γ) {path : String}
    (hpath : c.indexPath = .ok path) (adapter : Adapter) (units : List BindingUnit) (s : σ) :
    ∃ text, IsIndexText c adapter units text ∧ ∀ outcome s',
      (writeIndex ⟨c, adapter, storage⟩ units).Ends s outcome s' →
        view.Advances [(path, text)] path s outcome s' := by
  have htext (headers : List String) :=
    ((BindingIndex.ofIncludes headers).addUnits units).outcome_text adapter c.indexScope c.treeName
  cases hr : ((discoverHeaders ⟨c, adapter, storage⟩) s).1.outcome with
  | ok headers =>
    have hends : (discoverHeaders ⟨c, adapter, storage⟩).Ends s (.ok headers) _ := ⟨hr, rfl⟩
    refine ⟨_, ⟨headers, htext headers⟩, fun outcome s' h => ?_⟩
    have h := (Task.ends_ofRun_bind_of_ok rfl).mp h
    have h := (Task.ends_bind_of_ok hends).mp h
    refine .of_eq (keeps_discoverHeaders view _ _ _ hends) ?_
    refine (?_ : view.Writes _ _ _) _ _ _ h
    refine .bind (writes_ofRun hpath) (.bind (writes_ofRun (htext headers)) ?_)
    exact (writes_save view path _).bind_pure fun _ => path
  | error e =>
    have hends : (discoverHeaders ⟨c, adapter, storage⟩).Ends s (.error e) _ := ⟨hr, rfl⟩
    refine ⟨_, ⟨[], htext []⟩, fun outcome s' h => ?_⟩
    have h := (Task.ends_ofRun_bind_of_ok rfl).mp h
    obtain ⟨rfl, rfl⟩ := (Task.ends_bind_of_error hends).mp h
    exact .unwritten (List.cons_ne_nil _ _) (keeps_discoverHeaders view _ _ _ hends)

theorem ends_generate_of_plan {units : List BindingUnit} {s s' : σ}
    {outcome : Except BindError Report} (hplan : (db.plan adapter).outcome = .ok units)
    (h : (generate ⟨c, adapter, storage⟩ db).Ends s outcome s') :
    Task.Ends (do
      let files ← writeUnits ⟨c, adapter, storage⟩ units
      let index ← writeIndex ⟨c, adapter, storage⟩ units
      Task.ofRun (.report (.generated (objectCount units) units.length))
      pure ⟨units.length, objectCount units, files ++ [index]⟩) s outcome s' := by
  have h := (Task.ends_ofRun_bind_of_ok rfl).mp h
  exact (Task.ends_ofRun_bind_of_ok hplan).mp h

theorem ends_generate_of_plan_error {e : BindError} {s s' : σ} {outcome : Except BindError Report}
    (hplan : (db.plan adapter).outcome = .error e)
    (h : (generate ⟨c, adapter, storage⟩ db).Ends s outcome s') : outcome = .error e ∧ s' = s := by
  have h := (Task.ends_ofRun_bind_of_ok rfl).mp h
  obtain ⟨houtcome, hs⟩ := (Task.ends_ofRun_bind_of_error hplan).mp h
  exact ⟨houtcome.symm, hs.symm⟩

/-- Without a root, the first unit is not written, nor is the index if there is no unit. -/
theorem ends_generate_of_unset {units : List BindingUnit} {s s' : σ}
    {outcome : Except BindError Report} (hroot : c.outputRoot = none)
    (hplan : (db.plan adapter).outcome = .ok units)
    (h : (generate ⟨c, adapter, storage⟩ db).Ends s outcome s') :
    outcome = .error (.unset Configuration.outputVariable) ∧ s' = s := by
  have hunset : (Task.ofRun (.ofExcept c.includeRoot) : Task (StateM σ) String).Ends s
      (.error (.unset Configuration.outputVariable)) s :=
    ⟨Configuration.includeRoot_of_unset hroot, rfl⟩
  have h := ends_generate_of_plan hplan h
  cases units with
  | nil =>
    have hunits : (writeUnits ⟨c, adapter, storage⟩ []).Ends s (.ok []) s := ⟨rfl, rfl⟩
    have hheaders : (discoverHeaders ⟨c, adapter, storage⟩).Ends s _ s :=
      hunset.bind_error
    have hindex : (writeIndex ⟨c, adapter, storage⟩ []).Ends s _ s :=
      (Task.ends_ofRun_bind_of_ok rfl).mpr hheaders.bind_error
    obtain ⟨rfl, rfl⟩ := (Task.ends_bind_of_error hindex).mp ((Task.ends_bind_of_ok hunits).mp h)
    exact ⟨rfl, rfl⟩
  | cons u units =>
    have hunits : (writeUnits ⟨c, adapter, storage⟩ (u :: units)).Ends s _ s :=
      hunset.bind_error.bind_error
    obtain ⟨rfl, rfl⟩ := (Task.ends_bind_of_error hunits).mp h
    exact ⟨rfl, rfl⟩

theorem advances_generate (view : storage.View γ) {units : List BindingUnit} {s s' : σ}
    {outcome : Except BindError Report} (hi : c.includeRoot = .ok includeRoot)
    (hs : c.sourceRoot = .ok sourceRoot) (hplan : (db.plan adapter).outcome = .ok units)
    (h : (generate ⟨c, adapter, storage⟩ db).Ends s outcome s') :
    ∃ text, IsIndexText c adapter units text ∧
      view.Advances (BindingUnit.filesOf includeRoot sourceRoot units text)
        ⟨units.length, objectCount units,
          (BindingUnit.filesOf includeRoot sourceRoot units text).map Prod.fst⟩ s outcome s' := by
  have hunits : view.Writes (writeUnits ⟨c, adapter, storage⟩ units) _ _ :=
    writes_writeUnits view hi hs units
  have hindex :=
    advances_writeIndex view (Configuration.indexPath_of_sourceRoot hs) adapter units
  obtain ⟨_, s₁, hends, hrest⟩ | ⟨e, hends, rfl⟩ := (ends_generate_of_plan hplan h).bind_cases
  · obtain ⟨text, htext, hindex⟩ := hindex s₁
    refine ⟨text, htext, ?_⟩
    cases hunits _ _ _ hends with
    | done hcontents =>
      rw [BindingUnit.filesOf, List.map_append]
      refine .append hcontents (.bind_nil hindex ?_ hrest)
      exact .bind (writes_ofRun rfl) (writes_pure _)
  · obtain ⟨text, htext, _⟩ := hindex s'
    refine ⟨text, htext, ?_⟩
    cases hunits _ _ _ hends with
    | @stopped _ _ written rest hfiles hrest hcontents =>
      have hall : BindingUnit.filesOf includeRoot sourceRoot units text =
          written ++ (rest ++ [(Configuration.indexIn sourceRoot, text)]) := by
        rw [BindingUnit.filesOf, hfiles, List.append_assoc]
      exact .stopped hall (List.append_ne_nil_of_left_ne_nil hrest _) hcontents

theorem objectCount_eq_sum (units : List BindingUnit) :
    objectCount units = (units.map fun u => u.objects.length).sum :=
  List.length_flatMap

/-- Nothing is written without a plan or without a root. Otherwise some files of the plan are
written whole, from the first header on, up to the index at most, and all of them exactly when the
generation succeeds. The report then tells what has been written, with the numbers that the check
command prints for the same database. -/
theorem generate_writes_in_order (view : storage.View γ) {s s' : σ}
    {outcome : Except BindError Report}
    (h : (generate ⟨c, adapter, storage⟩ db).Ends s outcome s') :
    (∀ e, (db.plan adapter).outcome = .error e → outcome = .error e ∧ s' = s) ∧
    ∀ units, (db.plan adapter).outcome = .ok units →
      (c.outputRoot = none → outcome = .error (.unset Configuration.outputVariable) ∧ s' = s) ∧
      ∀ root, c.outputRoot = some root → ∃ includeRoot sourceRoot index written,
        c.includeRoot = .ok includeRoot ∧ c.sourceRoot = .ok sourceRoot ∧
        IsIndexText c adapter units index ∧
        written <+: BindingUnit.filesOf includeRoot sourceRoot units index ∧
        view.contents s' = view.putAll written (view.contents s) ∧
        ((∃ report, outcome = .ok report) ↔
          written = BindingUnit.filesOf includeRoot sourceRoot units index) ∧
        ∀ report, outcome = .ok report →
          report.namespaces = units.length ∧
          report.objects = (units.map fun u => u.objects.length).sum ∧
          report.files = (BindingUnit.filesOf includeRoot sourceRoot units index).map Prod.fst ∧
          (adapter = .sol3 → ∀ environment database config s₁,
            CommandLine.Reads storage environment database config s₁ db →
              ((CommandLine.check storage environment database config).run.run [] s₁).1.1 =
                .ok (String.join (units.map CommandLine.unitLine) ++ toString report.namespaces ++
                  " namespaces, " ++ toString report.objects ++ " objects\n")) := by
  refine ⟨fun e hplan => ends_generate_of_plan_error hplan h, fun units hplan =>
    ⟨fun hroot => ends_generate_of_unset hroot hplan h, fun root hroot => ?_⟩⟩
  obtain ⟨includeRoot, sourceRoot, hi, hs⟩ := Configuration.roots_of_outputRoot hroot
  obtain ⟨index, hindex, hadvances⟩ := advances_generate view hi hs hplan h
  obtain ⟨written, hpart, hcontents, hall, hreport⟩ := hadvances.exists_written
  refine ⟨includeRoot, sourceRoot, index, written, hi, hs, hindex, hpart, hcontents, hall, ?_⟩
  intro report hok
  obtain rfl := hreport report hok
  refine ⟨rfl, objectCount_eq_sum units, rfl, ?_⟩
  rintro rfl environment database config s₁ hreads
  exact CommandLine.check_prints hreads hplan

/-- A single variable. -/
def loneSample : Database where
  globals := .ofEntries [("a::x", { name := "x", type := "int", location := "x.hpp" })]

/-- The text of `loneSample` in a file. -/
def shelfSample : FileTree where
  files := .ofEntries [(["db.json"],
    "\x7b\"globals\":\x7b\"a::x\":" ++
      "\x7b\"name\":\"x\",\"type\":\"int\",\"location\":\"x.hpp\"\x7d\x7d\x7d")]

/-- A directory in the place of the source of `loneSample`. -/
def blockedSample : FileTree where
  directories := [["out"], ["out", "src"], ["out", "src", "Core"],
    ["out", "src", "Core", "Bindings"], ["out", "src", "Core", "Bindings", "a"],
    ["out", "src", "Core", "Bindings", "a", "a.cpp"]]

theorem reads_loneSample :
    CommandLine.Reads FileTree.storage none "db.json" none shelfSample loneSample := by
  have hload : (loadDatabase FileTree.storage "db.json").Ends shelfSample (.ok loneSample)
    shelfSample := ⟨by decide +kernel, rfl⟩
  exact ⟨{}, [], shelfSample, _, shelfSample, rfl, CommandLine.run_during_ok hload⟩

theorem loneSample_written_in_order :
    (∃ t', ((onTree (.writingTo "out") .sol3).generate loneSample).Ends blockedSample
        (.error (.file "out/src/Core/Bindings/a/a.cpp" "is a directory")) t' ∧
      ∃ includeRoot sourceRoot units index written,
        written <+: BindingUnit.filesOf includeRoot sourceRoot units index ∧
        written ≠ BindingUnit.filesOf includeRoot sourceRoot units index ∧
        FileTree.view.contents t' =
          FileTree.view.putAll written (FileTree.view.contents blockedSample)) ∧
    ∃ report t', ((onTree (.writingTo "out") .sol3).generate loneSample).Ends shelfSample
        (.ok report) t' ∧ report.namespaces = 1 ∧
      report.files = ["out/include/Core/Bindings/a/a.hpp", "out/src/Core/Bindings/a/a.cpp",
        "out/src/Core/Bindings/index.cpp"] ∧
      ((CommandLine.check FileTree.storage none "db.json" none).run.run [] shelfSample).1.1 =
        .ok "a (1 objects)\n1 namespaces, 1 objects\n" := by
  have hplan : (loneSample.plan .sol3).outcome = .ok _ := rfl
  refine ⟨?_, ?_⟩
  · have h : ((onTree (.writingTo "out") .sol3).generate loneSample).Ends blockedSample
        (.error (.file "out/src/Core/Bindings/a/a.cpp" "is a directory")) _ :=
      ⟨by decide +kernel, rfl⟩
    obtain ⟨_, horder⟩ := generate_writes_in_order FileTree.view h
    obtain ⟨includeRoot, sourceRoot, index, written, _, _, _, hpart, hcontents, hall, _⟩ :=
      (horder _ hplan).2 "out" rfl
    refine ⟨_, h, includeRoot, sourceRoot, _, index, written, hpart, ?_, hcontents⟩
    intro hwritten
    obtain ⟨_, hok⟩ := hall.mpr hwritten
    cases hok
  · have hrehearsal : ∃ t', ((onTree (.writingTo "out") .sol3).rehearse loneSample).Ends
        shelfSample (.ok ()) t' := ⟨_, by decide +kernel, rfl⟩
    obtain ⟨report, t', h⟩ := exists_ends_generate_iff.mpr hrehearsal
    obtain ⟨_, horder⟩ := generate_writes_in_order FileTree.view h
    obtain ⟨includeRoot, sourceRoot, index, written, hi, hs, _, _, _, _, hreport⟩ :=
      (horder _ hplan).2 "out" rfl
    cases hi
    cases hs
    obtain ⟨hnamespaces, hobjects, hfiles, hcheck⟩ := hreport report rfl
    have hprinted := hcheck rfl none "db.json" none shelfSample reads_loneSample
    rw [hnamespaces, hobjects] at hprinted
    exact ⟨report, t', h, hnamespaces, hfiles, hprinted⟩

end Generator

end ScriptBindings
