import Mathlib.Data.List.Nodup
import ScriptBindings.Proofs.Index.Execution
import ScriptBindings.Proofs.Plan.Units

namespace ScriptBindings

/-- The paths at which the loaders of some units are registered. -/
def BindingUnit.leafPaths (units : List BindingUnit) : List (List String) :=
  units.flatMap fun u => u.objects.map fun o => u.segments ++ [o]

namespace Database

open BindingUnit

variable {adapter : Adapter} {db : Database} {units : List BindingUnit}

theorem mem_leafPaths {p : List String} :
    p ∈ leafPaths units ↔ ∃ u ∈ units, ∃ o ∈ u.objects, u.segments ++ [o] = p := by
  simp only [leafPaths, List.mem_flatMap, List.mem_map]

theorem word_prefix_of_mem_objects (h : (db.plan adapter).outcome = .ok units) {u : BindingUnit}
    (hu : u ∈ units) {o : String} (ho : o ∈ u.objects) :
    ∃ word ∈ Loader.words, word.toList <+: o.toList := by
  obtain ⟨scope, b, hb, _, _, _, rfl⟩ := unit_of_mem_plan h hu
  obtain ⟨l, hl, rfl⟩ := List.mem_map.mp ho
  obtain ⟨word, hw, name, hobject⟩ := (bindsIn_of_mem_group hb hl).2.object_eq
  refine ⟨word, hw, ?_⟩
  rw [hobject, String.toList_append]
  exact List.prefix_append _ _

/-- Loaders of different units share a path only as the same object of the same segments. -/
theorem nodup_leafPaths (h : (db.plan adapter).outcome = .ok units)
    (hdisjoint : ∀ u ∈ units, ∀ v ∈ units, u.segments = v.segments → u ≠ v →
      u.objects.Disjoint v.objects) : (leafPaths units).Nodup := by
  rw [leafPaths, List.nodup_flatMap]
  constructor
  · intro u hu
    apply (nodup_objects h hu).map
    intro o p hop
    exact (List.singleton_inj.mp (List.append_cancel_left hop))
  · have hunits : units.Nodup := List.Nodup.of_map BindingUnit.scope (nodup_scopes h)
    apply hunits.pairwise_of_forall_ne
    intro u hu v hv hne p hpu hpv
    obtain ⟨o, ho, rfl⟩ := List.mem_map.mp hpu
    obtain ⟨o', ho', he⟩ := List.mem_map.mp hpv
    obtain ⟨hsegments, ho''⟩ := List.append_inj' he rfl
    rw [List.singleton_inj.mp ho''] at ho'
    exact hdisjoint u hu v hv hsegments.symm hne ho ho'

theorem eq_of_segments_eq (h : (db.plan adapter).outcome = .ok units)
    (hkeys : ∀ key ∈ db.keys, Scope.IsQualified (Scope.templateHead key)) {u v : BindingUnit}
    (hu : u ∈ units) (hv : v ∈ units) (hsegments : u.segments = v.segments) : u = v := by
  have hnodup := nodup_segments h fun w hw => scope_eq_join h hkeys hw
  exact List.inj_on_of_nodup_map hnodup hu hv hsegments

theorem mem_tables_iff {p : List String} {tables : List (List String)} (includes : List String)
    (h : (db.plan adapter).outcome = .ok units)
    (ht : ((BindingIndex.ofIncludes includes).addUnits units).tables.outcome = .ok tables) :
    p ∈ tables ↔ p ≠ [] ∧ ∃ v ∈ units, p <+: v.segments := by
  rw [BindingIndex.addUnits_eq includes fun u hu => objects_ne_nil h hu,
    BindingIndex.outcome_tables] at ht
  cases ht
  rw [(TableOrder.isCompletion_completed _).mem_iff]
  simp only [List.map_map, List.mem_map, Function.comp_apply, exists_exists_and_eq_and]

/-- Loaders are registered at different paths unless two namespaces with the same segments have an
object in common. A loader lies on the path of a table where a namespace continues with the name of
its object, which then begins with one of the words that objects begin with. -/
theorem leafPaths_distinct {tables : List (List String)} (includes : List String)
    (h : (db.plan adapter).outcome = .ok units)
    (ht : ((BindingIndex.ofIncludes includes).addUnits units).tables.outcome = .ok tables) :
    ((∀ u ∈ units, ∀ v ∈ units, u.segments = v.segments → u ≠ v →
      u.objects.Disjoint v.objects) → (leafPaths units).Nodup) ∧
    ((∀ key ∈ db.keys, Scope.IsQualified (Scope.templateHead key)) → (leafPaths units).Nodup) ∧
    (∀ p ∈ leafPaths units, p ∈ tables ↔ ∃ v ∈ units, p <+: v.segments) ∧
    ((∀ v ∈ units, ∀ s ∈ v.segments, ∀ word ∈ Loader.words, ¬ word.toList <+: s.toList) →
      ∀ p ∈ leafPaths units, p ∉ tables) := by
  have htable : ∀ p ∈ leafPaths units, p ∈ tables ↔ ∃ v ∈ units, p <+: v.segments := by
    intro p hp
    obtain ⟨u, _, o, _, rfl⟩ := mem_leafPaths.mp hp
    rw [mem_tables_iff includes h ht]
    exact and_iff_right (List.concat_ne_nil o u.segments)
  refine ⟨nodup_leafPaths h, ?_, htable, ?_⟩
  · intro hkeys
    apply nodup_leafPaths h
    intro u hu v hv hsegments hne
    exact absurd (eq_of_segments_eq h hkeys hu hv hsegments) hne
  · intro hwords p hp hshared
    obtain ⟨v, hv, hprefix⟩ := (htable p hp).mp hshared
    obtain ⟨u, hu, o, ho, rfl⟩ := mem_leafPaths.mp hp
    obtain ⟨word, hword, hwo⟩ := word_prefix_of_mem_objects h hu ho
    have hs : o ∈ v.segments :=
      hprefix.subset (List.mem_append_right _ (List.mem_singleton_self o))
    exact hwords v hv o hs word hword hwo

theorem nestedSample_leafPaths_distinct :
    ∃ units tables, (nestedSample.plan .sol3).outcome = .ok units ∧
      ((BindingIndex.ofIncludes []).addUnits units).tables.outcome = .ok tables ∧
      leafPaths units = [["a", "FunctionF"], ["a", "b", "ClassBox"], ["a", "b", "GlobalLimit"]] ∧
      (leafPaths units).Nodup ∧ ∀ p ∈ leafPaths units, p ∉ tables := by
  have hplan : (nestedSample.plan .sol3).outcome = .ok _ := rfl
  have htables (us : List BindingUnit) :=
    BindingIndex.outcome_tables ((BindingIndex.ofIncludes []).addUnits us)
  obtain ⟨_, hcanonical, _, hwords⟩ := leafPaths_distinct [] hplan (htables _)
  exact ⟨_, _, hplan, htables _, rfl, hcanonical nestedSample_keys, hwords (by decide +kernel)⟩

/-- A class beside a namespace that is named like the object of the class. -/
def tableSample : Database where
  classes := .ofEntries [("a::Foo", { name := "Foo", location := "include/foo.hpp" })]
  globals := .ofEntries [
    ("a::ClassFoo::limit", { name := "limit", type := "int", location := "include/foo.hpp" })]

/-- Two classes of one name, in a namespace that is written in two ways. -/
def twinSample : Database where
  classes := .ofEntries [
    ("a::Foo", { name := "Foo", location := "include/foo.hpp" }),
    ("::a::Foo", { name := "Foo", location := "include/foo.hpp" })]

/-- Paths can be shared: a loader lies on the path of a table, and two loaders on one path. -/
theorem leafPaths_shared :
    (∃ units tables, (tableSample.plan .sol3).outcome = .ok units ∧
      ((BindingIndex.ofIncludes []).addUnits units).tables.outcome = .ok tables ∧
      ["a", "ClassFoo"] ∈ leafPaths units ∧ ["a", "ClassFoo"] ∈ tables) ∧
    ∃ units, (twinSample.plan .sol3).outcome = .ok units ∧ ¬ (leafPaths units).Nodup := by
  constructor
  · have hplan : (tableSample.plan .sol3).outcome = .ok _ := rfl
    have htables (us : List BindingUnit) :=
      BindingIndex.outcome_tables ((BindingIndex.ofIncludes []).addUnits us)
    refine ⟨_, _, hplan, htables _, by decide +kernel, ?_⟩
    exact (mem_tables_iff [] hplan (htables _)).mpr ⟨by decide, by decide +kernel⟩
  · exact ⟨_, rfl, by decide +kernel⟩

end Database

end ScriptBindings
