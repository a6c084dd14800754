import Mathlib.Data.List.Nodup
import ScriptBindings.Adapter.Sol3
import ScriptBindings.Plan
import ScriptBindings.Proofs.Emission
import ScriptBindings.Proofs.Name.Scope
import ScriptBindings.Proofs.SortedSet

namespace ScriptBindings

theorem firstRepeated_eq_none {seen objects : List String} :
    firstRepeated seen objects = none ↔ objects.Nodup ∧ ∀ o ∈ objects, o ∉ seen := by
  induction objects generalizing seen with
  | nil => simp [firstRepeated]
  | cons o objects ih =>
    by_cases ho : o ∈ seen
    · simp [firstRepeated, ho]
    · simp only [firstRepeated, ho, if_false, ih, List.nodup_cons, List.mem_cons, not_or,
        forall_eq_or_imp, not_false_eq_true, true_and]
      constructor
      · rintro ⟨hnodup, hseen⟩
        exact ⟨⟨fun hm => (hseen o hm).1 rfl, hnodup⟩, fun p hp => (hseen p hp).2⟩
      · rintro ⟨⟨hm, hnodup⟩, hseen⟩
        exact ⟨hnodup, fun p hp => ⟨fun he => hm (he ▸ hp), hseen p hp⟩⟩

theorem Loader.signature_eq (adapter : Adapter) (object : String) :
    signature adapter object = "void Load" ++ object ++ "(" ++ adapter.stateType ++ " state)" := by
  have hword : "void Load" = "void " ++ "Load" := rfl
  unfold signature nameOf
  rw [hword]
  simp only [String.append_assoc]

namespace BindingUnit

theorem headerText_eq (adapter : Adapter) (scope : String) (objects : List String) :
    headerText adapter scope objects =
      "#pragma once\n\n" ++ adapter.stateDeclaration ++ "\nnamespace " ++ scope ++
        "::Bindings\n\x7b\n" ++ "\n".intercalate ((objects.map fun o =>
          "void Load" ++ o ++ "(" ++ adapter.stateType ++ " state)").map (· ++ ";")) ++
        "\n\x7d;\n" := by
  have hscope : "\nnamespace " = "\n" ++ "namespace " := rfl
  have hbrace : "::Bindings\n\x7b\n" = "::Bindings\n" ++ "\x7b\n" := rfl
  unfold headerText bindingsScope block
  rw [hscope, hbrace, List.map_map]
  simp only [Function.comp_def, Loader.signature_eq, String.append_assoc]

theorem sourceText_eq (adapter : Adapter) (scope headerInclude : String)
    (includes bodies : List String) :
    sourceText adapter scope headerInclude includes bodies =
      "#include <" ++ headerInclude ++ ">\n\n" ++
        "\n".intercalate (includes.map fun i => "#include <" ++ i ++ ">") ++
        "\n\n#include <" ++ adapter.runtimeHeader ++ ">\n\nnamespace " ++ scope ++
        "::Bindings\n\x7b\n" ++ "\n".intercalate bodies ++ "\n\x7d;\n" := by
  have hown : ">\n\n" = ">" ++ "\n\n" := rfl
  have hruntime : "\n\n#include <" = "\n\n" ++ "#include <" := rfl
  have hscope : ">\n\nnamespace " = ">" ++ "\n\n" ++ "namespace " := rfl
  have hbrace : "::Bindings\n\x7b\n" = "::Bindings\n" ++ "\x7b\n" := rfl
  have hlines : includeLine = fun i => "#include <" ++ i ++ ">" := rfl
  unfold sourceText bindingsScope block
  rw [hown, hruntime, hscope, hbrace, hlines]
  simp only [String.append_assoc]

variable (adapter : Adapter) (scope : String) (info : NamespaceInfo) (b : BindingSet)

@[simp] theorem ofSet_scope : (ofSet adapter scope info b).scope = scope := rfl

@[simp] theorem ofSet_segments :
    (ofSet adapter scope info b).segments = Scope.segments scope := rfl

@[simp] theorem ofSet_objects : (ofSet adapter scope info b).objects = b.objects := rfl

end BindingUnit

namespace Group

theorem assemble_eq_some {adapter : Adapter} {g : Group} {b : BindingSet} {u : BindingUnit} :
    (g.assemble adapter b).outcome = .ok (some u) ↔
      b.loaders ≠ [] ∧ b.objects.Nodup ∧ u = BindingUnit.ofSet adapter g.name g.info b := by
  unfold assemble
  by_cases hb : b.loaders = []
  · simp [BindingSet.isEmpty, hb]
  · have he : b.isEmpty = false := by
      rw [BindingSet.isEmpty, List.isEmpty_eq_false_iff]
      exact hb
    rw [he]
    cases hr : firstRepeated [] b.objects with
    | some o =>
      have hn : ¬ b.objects.Nodup := by
        intro hn
        rw [firstRepeated_eq_none.mpr ⟨hn, fun _ _ => List.not_mem_nil⟩] at hr
        cases hr
      simp [hn]
    | none => simp [(firstRepeated_eq_none.mp hr).1, hb, eq_comm]

theorem unit_eq_some {adapter : Adapter} {g : Group} {u : BindingUnit} :
    (g.unit adapter).outcome = .ok (some u) ↔
      g.name ≠ "" ∧ ∃ b, (g.emit adapter).outcome = .ok b ∧ b.loaders ≠ [] ∧ b.objects.Nodup ∧
        u = BindingUnit.ofSet adapter g.name g.info b := by
  have htypedefs : g.reportTypedefs.outcome = .ok () := by
    unfold reportTypedefs
    split
    · rfl
    · rfl
  unfold unit
  by_cases hname : g.name = ""
  · rw [if_pos hname]
    cases g.firstBindable with
    | some entity => simp [hname]
    | none => simp [hname]
  · rw [if_neg hname, Run.outcome_report_bind]
    simp only [Run.outcome_bind_eq_ok, htypedefs, assemble_eq_some]
    simp [hname]

end Group

namespace Database

theorem mem_within {α : Type} {scope key : String} {c : Catalog α}
    (h : key ∈ (within scope c).keys) : key ∈ c.keys ∧ Scope.parent key = scope := by
  obtain ⟨e, he, rfl⟩ := List.mem_map.mp h
  have hf := List.mem_filter.mp he
  exact ⟨List.mem_map_of_mem hf.1, of_decide_eq_true hf.2⟩

theorem mem_group_keys {db : Database} {scope key : String} (h : key ∈ (db.group scope).keys) :
    key ∈ db.keys ∧ Scope.parent key = scope := by
  simp only [Group.keys, keys, List.mem_append] at h ⊢
  rcases h with ((h | h) | h) | h
  · exact ⟨.inl (.inl (.inl (.inl (mem_within h).1))), (mem_within h).2⟩
  · exact ⟨.inl (.inl (.inl (.inr (mem_within h).1))), (mem_within h).2⟩
  · exact ⟨.inl (.inl (.inr (mem_within h).1)), (mem_within h).2⟩
  · exact ⟨.inl (.inr (mem_within h).1), (mem_within h).2⟩

theorem plan_eq_ok {adapter : Adapter} {db : Database} {units : List BindingUnit} :
    (db.plan adapter).outcome = .ok units ↔
      db.validate = .ok () ∧ ∃ found, units = found.filterMap id ∧
        List.Forall₂ (fun g u => (g.unit adapter).outcome = .ok u) db.groups found := by
  simp only [plan, Run.outcome_bind_eq_ok, Run.outcome_ofExcept, Run.outcome_ok, Except.ok.injEq,
    Run.outcome_collect_eq_ok]
  constructor
  · rintro ⟨_, hv, found, hall, rfl⟩
    exact ⟨hv, found, rfl, hall⟩
  · rintro ⟨hv, found, rfl, hall⟩
    exact ⟨(), hv, found, hall, rfl⟩

variable {adapter : Adapter} {db : Database} {units : List BindingUnit}

theorem eq_getD_of_plan (h : (db.plan adapter).outcome = .ok units) :
    units = (db.plan adapter).outcome.toOption.getD [] := by
  rw [h]
  rfl

/-- Each unit of a plan is made of the loaders of one namespace. -/
theorem unit_of_mem_plan (h : (db.plan adapter).outcome = .ok units) {u : BindingUnit}
    (hu : u ∈ units) :
    ∃ scope b, ((db.group scope).emit adapter).outcome = .ok b ∧ scope ≠ "" ∧ b.loaders ≠ [] ∧
      b.objects.Nodup ∧ u = BindingUnit.ofSet adapter scope (db.group scope).info b := by
  obtain ⟨_, found, rfl, hall⟩ := plan_eq_ok.mp h
  obtain ⟨o, ho, hu⟩ := List.mem_filterMap.mp hu
  obtain rfl : o = some u := hu
  obtain ⟨g, hg, hunit⟩ := Run.exists_of_mem_collect (Run.outcome_collect_eq_ok.mpr hall) ho
  obtain ⟨scope, _, rfl⟩ := List.mem_map.mp hg
  obtain ⟨hname, b, hb, hne, hnodup, hu⟩ := Group.unit_eq_some.mp hunit
  exact ⟨scope, b, hb, hname, hne, hnodup, hu⟩

/-- The loaders of a group bind entities of its namespace. -/
theorem bindsIn_of_mem_group {scope : String} {b : BindingSet}
    (h : ((db.group scope).emit adapter).outcome = .ok b) {l : Loader} (hl : l ∈ b.loaders) :
    (∃ key ∈ db.keys, Scope.parent key = scope) ∧ l.BindsIn adapter (Scope.segments scope) := by
  obtain ⟨key, hkey, hb⟩ := Group.emit_bindsIn h hl
  obtain ⟨hdb, hparent⟩ := mem_group_keys hkey
  rw [tableOf, hparent] at hb
  exact ⟨⟨key, hdb, hparent⟩, hb⟩

/-- In a database of canonical names the namespaces of units are canonical too. -/
theorem scope_eq_join (h : (db.plan adapter).outcome = .ok units)
    (hkeys : ∀ key ∈ db.keys, Scope.IsQualified (Scope.templateHead key)) {u : BindingUnit}
    (hu : u ∈ units) : u.scope = Scope.join u.segments := by
  obtain ⟨scope, b, hb, _, hne, _, rfl⟩ := unit_of_mem_plan h hu
  obtain ⟨l, hl⟩ := List.exists_mem_of_ne_nil _ hne
  obtain ⟨⟨key, hkey, rfl⟩, _⟩ := bindsIn_of_mem_group hb hl
  rw [BindingUnit.ofSet_scope, BindingUnit.ofSet_segments,
    Scope.join_segments_parent (hkeys key hkey)]

theorem scopes_sublist_names {groups : List Group} {found : List (Option BindingUnit)}
    (h : List.Forall₂ (fun g u => (g.unit adapter).outcome = .ok u) groups found) :
    ((found.filterMap id).map BindingUnit.scope).Sublist (groups.map Group.name) := by
  induction h with
  | nil => exact List.Sublist.refl _
  | @cons g o gs os ho _ ih =>
    cases o with
    | none => exact ih.cons _
    | some u =>
      obtain ⟨_, b, _, _, _, rfl⟩ := Group.unit_eq_some.mp ho
      exact ih.cons_cons _

theorem scopes_sublist (h : (db.plan adapter).outcome = .ok units) :
    (units.map BindingUnit.scope).Sublist db.scopes := by
  obtain ⟨_, found, rfl, hall⟩ := plan_eq_ok.mp h
  have hnames : db.groups.map Group.name = db.scopes := by
    rw [groups, List.map_map]
    exact List.map_id' _
  exact hnames ▸ scopes_sublist_names hall

theorem nodup_scopes (h : (db.plan adapter).outcome = .ok units) :
    (units.map BindingUnit.scope).Nodup :=
  (SortedSet.nodup_ofList _).sublist (scopes_sublist h)

theorem header_eq (h : (db.plan adapter).outcome = .ok units) {u : BindingUnit}
    (hu : u ∈ units) : u.header = BindingUnit.headerText adapter u.scope u.objects := by
  obtain ⟨scope, b, _, _, _, _, rfl⟩ := unit_of_mem_plan h hu
  rfl

theorem objects_ne_nil (h : (db.plan adapter).outcome = .ok units) {u : BindingUnit}
    (hu : u ∈ units) : u.objects ≠ [] := by
  obtain ⟨scope, b, _, _, hne, _, rfl⟩ := unit_of_mem_plan h hu
  exact fun he => hne (List.map_eq_nil_iff.mp he)

theorem nodup_objects (h : (db.plan adapter).outcome = .ok units) {u : BindingUnit}
    (hu : u ∈ units) : u.objects.Nodup := by
  obtain ⟨scope, b, _, _, _, hnodup, rfl⟩ := unit_of_mem_plan h hu
  exact hnodup

theorem nodup_segments (h : (db.plan adapter).outcome = .ok units)
    (hscope : ∀ u ∈ units, u.scope = Scope.join u.segments) :
    (units.map BindingUnit.segments).Nodup := by
  have hjoin : (units.map BindingUnit.segments).map Scope.join = units.map BindingUnit.scope := by
    rw [List.map_map]
    exact List.map_congr_left fun u hu => (hscope u hu).symm
  exact List.Nodup.of_map Scope.join (hjoin ▸ nodup_scopes h)

/-- A class template, functions with overloads, defaults and hidden signatures, and a constant, in
nested namespaces. -/
def nestedSample : Database where
  classes := .ofEntries [("a::b::Box<c::D>", { name := "Box", location := "include/box.hpp" })]
  functions := .ofEntries [
    ("a::f", .overloaded {
      name := "f"
      overloads := [
        { name := "f", returnType := "int", location := "include/f.hpp",
          parameters := [⟨"x", "int", none⟩, ⟨"y", "int", some "0"⟩] },
        { name := "f", returnType := "void", location := "include/f.hpp", flags := ⟨true⟩ }] }),
    ("a::g", .single { name := "g", returnType := "void", flags := ⟨true⟩ })]
  globals := .ofEntries [
    ("a::b::limit", { name := "limit", type := "const int", location := "src/limit.cpp" })]

theorem nestedSample_keys :
    ∀ key ∈ nestedSample.keys, Scope.IsQualified (Scope.templateHead key) := by
  have hkeys : nestedSample.keys = ["a::b::Box<c::D>", "a::f", "a::g", "a::b::limit"] := rfl
  simp only [hkeys, List.forall_mem_cons, List.not_mem_nil, false_imp_iff, implies_true, and_true]
  exact ⟨⟨["a", "b", "Box"], by decide +kernel, rfl⟩, ⟨["a", "f"], by decide +kernel, rfl⟩,
    ⟨["a", "g"], by decide +kernel, rfl⟩, ⟨["a", "b", "limit"], by decide +kernel, rfl⟩⟩

end Database

end ScriptBindings
