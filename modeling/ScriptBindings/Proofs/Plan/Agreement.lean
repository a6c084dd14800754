import ScriptBindings.Proofs.Index.Execution
import ScriptBindings.Proofs.Plan.Units

namespace ScriptBindings

namespace Database

variable {adapter : Adapter} {db : Database} {units : List BindingUnit}

theorem source_eq (h : (db.plan adapter).outcome = .ok units) {u : BindingUnit}
    (hu : u ∈ units) :
    ∃ needed bodies,
      u.source = BindingUnit.sourceText adapter u.scope u.headerInclude needed bodies ∧
      List.Forall₂ (fun object body => ∃ statements,
        body = Loader.definition adapter object (adapter.fetchTable u.segments :: statements))
        u.objects bodies := by
  obtain ⟨scope, b, hb, _, _, _, rfl⟩ := unit_of_mem_plan h hu
  refine ⟨BindingUnit.includesOf b (db.group scope).info, b.bodies, rfl, ?_⟩
  apply List.forall₂_map_left_iff.mpr
  apply List.forall₂_map_right_iff.mpr
  apply List.forall₂_same.mpr
  intro l hl
  exact (bindsIn_of_mem_group hb hl).2.body_eq

theorem index_text_eq (h : (db.plan adapter).outcome = .ok units)
    (hscope : ∀ u ∈ units, u.scope = Scope.join u.segments)
    (includes : List String) (scope treeName : String) :
    (((BindingIndex.ofIncludes includes).addUnits units).text adapter scope treeName).outcome =
      .ok ("\n".intercalate (includes.map (fun i => "#include <" ++ i ++ ">") ++
        ["#include <" ++ adapter.runtimeHeader ++ ">", "namespace " ++ scope ++ " \x7b",
          "void IndexAllBindings(" ++ adapter.stateType ++ " state)\n\x7b",
          adapter.indexTree treeName] ++
        ((TableOrder.completed (units.map BindingUnit.segments)).map adapter.newTable ++
          units.map fun u => "\n".intercalate (adapter.registerHead u.segments ::
            u.objects.map fun o => adapter.registerLink o (u.scope ++ "::Bindings::Load" ++ o)) ++
              ";\n") ++
        [adapter.installIndex, "\x7d\n\x7d\n"])) := by
  have hchain (u : BindingUnit) (hu : u ∈ units) :
      "\n".intercalate (adapter.registerHead u.segments :: u.objects.map fun o =>
        adapter.registerLink o ("::".intercalate u.segments ++ "::Bindings::Load" ++ o)) ++ ";\n" =
      "\n".intercalate (adapter.registerHead u.segments :: u.objects.map fun o =>
        adapter.registerLink o (u.scope ++ "::Bindings::Load" ++ o)) ++ ";\n" := by
    rw [hscope u hu, Scope.join]
  rw [BindingIndex.addUnits_eq includes fun u hu => objects_ne_nil h hu,
    BindingIndex.outcome_text_lines, ← List.map_congr_left hchain]
  simp only [List.map_map, Function.comp_def]

/-- The header declares, the source defines and the index registers the same loaders of each unit
in the same order. Each definition first fetches the table that the index registers it at. The
names under which the index refers to them are those of the namespace that declares them. -/
theorem plan_texts_agree (h : (db.plan adapter).outcome = .ok units)
    (hkeys : ∀ key ∈ db.keys, Scope.IsQualified (Scope.templateHead key))
    (includes : List String) :
    (∀ u ∈ units,
      let signatures := u.objects.map fun o =>
        "void Load" ++ o ++ "(" ++ adapter.stateType ++ " state)"
      u.scope = Scope.join u.segments ∧
      u.header = "#pragma once\n\n" ++ adapter.stateDeclaration ++ "\nnamespace " ++ u.scope ++
        "::Bindings\n\x7b\n" ++ "\n".intercalate (signatures.map (· ++ ";")) ++ "\n\x7d;\n" ∧
      ∃ needed bodies : List String,
        u.source = "#include <" ++ u.headerInclude ++ ">\n\n" ++
          "\n".intercalate (needed.map fun i => "#include <" ++ i ++ ">") ++
          "\n\n#include <" ++ adapter.runtimeHeader ++ ">\n\nnamespace " ++ u.scope ++
          "::Bindings\n\x7b\n" ++ "\n".intercalate bodies ++ "\n\x7d;\n" ∧
        List.Forall₂ (fun signature body => ∃ statements,
          body = signature ++ "\n\x7b\n" ++
            "\n".intercalate (adapter.fetchTable u.segments :: statements) ++ "\n\x7d")
          signatures bodies) ∧
    (units.map BindingUnit.segments).Nodup ∧
    ∃ tables : List (List String), ∀ scope treeName,
      (((BindingIndex.ofIncludes includes).addUnits units).text adapter scope treeName).outcome =
        .ok ("\n".intercalate (includes.map (fun i => "#include <" ++ i ++ ">") ++
          ["#include <" ++ adapter.runtimeHeader ++ ">", "namespace " ++ scope ++ " \x7b",
            "void IndexAllBindings(" ++ adapter.stateType ++ " state)\n\x7b",
            adapter.indexTree treeName] ++
          (tables.map adapter.newTable ++
            units.map fun u => "\n".intercalate (adapter.registerHead u.segments ::
              u.objects.map fun o =>
                adapter.registerLink o (u.scope ++ "::Bindings::Load" ++ o)) ++ ";\n") ++
          [adapter.installIndex, "\x7d\n\x7d\n"])) := by
  have hscope : ∀ u ∈ units, u.scope = Scope.join u.segments :=
    fun u hu => scope_eq_join h hkeys hu
  refine ⟨fun u hu => ?_, nodup_segments h hscope, _, index_text_eq h hscope includes⟩
  obtain ⟨needed, bodies, hsource, hbodies⟩ := source_eq h hu
  refine ⟨hscope u hu, ?_, needed, bodies, ?_, ?_⟩
  · rw [header_eq h hu, BindingUnit.headerText_eq]
  · rw [hsource, BindingUnit.sourceText_eq]
  · apply List.forall₂_map_left_iff.mpr
    apply hbodies.imp
    intro object body
    rw [← Loader.signature_eq]
    exact id

theorem nestedSample_texts_agree :
    ∃ units, (nestedSample.plan .sol3).outcome = .ok units ∧
      units.map (fun u => (u.segments, u.objects)) =
        [(["a"], ["FunctionF"]), (["a", "b"], ["ClassBox", "GlobalLimit"])] ∧
      (∀ key ∈ nestedSample.keys, Scope.IsQualified (Scope.templateHead key)) ∧
      (∀ u ∈ units, u.scope = Scope.join u.segments) ∧
      units.map BindingUnit.header = [
        "#pragma once\n\nnamespace sol \x7b class state_view; \x7d;\nnamespace a::Bindings\n" ++
          "\x7b\nvoid LoadFunctionF(sol::state_view state);\n\x7d;\n",
        "#pragma once\n\nnamespace sol \x7b class state_view; \x7d;\nnamespace a::b::Bindings\n" ++
          "\x7b\nvoid LoadClassBox(sol::state_view state);\n" ++
          "void LoadGlobalLimit(sol::state_view state);\n\x7d;\n"] ∧
      (units.map BindingUnit.segments).Nodup := by
  have hplan : (nestedSample.plan .sol3).outcome = .ok _ := rfl
  obtain ⟨hunits, hnodup, _⟩ := plan_texts_agree hplan nestedSample_keys []
  have hheaders := List.map_congr_left fun u hu => (hunits u hu).2.1
  exact ⟨_, hplan, rfl, nestedSample_keys, fun u hu => (hunits u hu).1,
    hheaders.trans (by decide +kernel), hnodup⟩

end Database

end ScriptBindings
