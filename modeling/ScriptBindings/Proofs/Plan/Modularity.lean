import ScriptBindings.Proofs.Database.Validation
import ScriptBindings.Proofs.Dictionary
import ScriptBindings.Proofs.Plan.Completeness

namespace ScriptBindings

/-- The third list holds the members of the first two, those of each in their own order. -/
inductive Interleaves {α : Type} : List α → List α → List α → Prop
  | nil : Interleaves [] [] []
  | left {a : α} {as bs cs : List α} (h : Interleaves as bs cs) : Interleaves (a :: as) bs (a :: cs)
  | right {b : α} {as bs cs : List α} (h : Interleaves as bs cs) :
    Interleaves as (b :: bs) (b :: cs)

namespace Interleaves

variable {α : Type} {as bs cs : List α}

theorem symm (h : Interleaves as bs cs) : Interleaves bs as cs := by
  induction h with
  | nil => exact .nil
  | left _ ih => exact .right ih
  | right _ ih => exact .left ih

theorem perm_append (h : Interleaves as bs cs) : cs.Perm (as ++ bs) := by
  induction h with
  | nil => exact .refl _
  | left _ ih => exact ih.cons _
  | right _ ih => exact (ih.cons _).trans List.perm_middle.symm

theorem mem_iff (h : Interleaves as bs cs) {c : α} : c ∈ cs ↔ c ∈ as ∨ c ∈ bs := by
  rw [h.perm_append.mem_iff, List.mem_append]

theorem forall_mem_iff (h : Interleaves as bs cs) {P : α → Prop} :
    (∀ c ∈ cs, P c) ↔ (∀ a ∈ as, P a) ∧ ∀ b ∈ bs, P b := by
  simp only [h.mem_iff, or_imp, forall_and]

theorem filter_eq (h : Interleaves as bs cs) {p : α → Bool} (hp : ∀ b ∈ bs, p b = false) :
    cs.filter p = as.filter p := by
  induction h with
  | nil => rfl
  | left _ ih => rw [List.filter_cons, List.filter_cons, ih hp]
  | right _ ih =>
    rw [List.forall_mem_cons] at hp
    rw [List.filter_cons_of_neg (by simp [hp.1]), ih hp.2]

end Interleaves

namespace Database

variable {db db₁ db₂ : Database} {adapter : Adapter}

theorem parent_mem_scopes {key : String} (h : key ∈ db.keys) : Scope.parent key ∈ db.scopes :=
  SortedSet.mem_ofList.mpr (List.mem_map_of_mem h)

/-- A database that holds the entries of two others, and tells of their namespaces what they do. -/
structure Interleaved (db₁ db₂ db : Database) : Prop where
  classes : Interleaves db₁.classes.entries db₂.classes.entries db.classes.entries
  enums : Interleaves db₁.enums.entries db₂.enums.entries db.enums.entries
  functions : Interleaves db₁.functions.entries db₂.functions.entries db.functions.entries
  globals : Interleaves db₁.globals.entries db₂.globals.entries db.globals.entries
  typedefs : Interleaves db₁.typedefs.entries db₂.typedefs.entries db.typedefs.entries
  info_left : ∀ scope ∈ db₁.scopes, db.namespaces.get? scope = db₁.namespaces.get? scope
  info_right : ∀ scope ∈ db₂.scopes, db.namespaces.get? scope = db₂.namespaces.get? scope

namespace Interleaved

theorem symm (h : Interleaved db₁ db₂ db) : Interleaved db₂ db₁ db :=
  ⟨h.classes.symm, h.enums.symm, h.functions.symm, h.globals.symm, h.typedefs.symm, h.info_right,
    h.info_left⟩

theorem mem_keys_iff (h : Interleaved db₁ db₂ db) {key : String} :
    key ∈ db.keys ↔ key ∈ db₁.keys ∨ key ∈ db₂.keys := by
  have hkeys {α : Type} {c₁ c₂ c : Catalog α} (hc : Interleaves c₁.entries c₂.entries c.entries) :
      key ∈ c.keys ↔ key ∈ c₁.keys ∨ key ∈ c₂.keys := by
    simp only [Dictionary.keys, (hc.perm_append.map Prod.fst).mem_iff, List.map_append,
      List.mem_append]
  simp only [keys, List.mem_append, hkeys h.classes, hkeys h.enums, hkeys h.functions,
    hkeys h.globals, hkeys h.typedefs]
  tauto

theorem mem_scopes_iff (h : Interleaved db₁ db₂ db) {scope : String} :
    scope ∈ db.scopes ↔ scope ∈ db₁.scopes ∨ scope ∈ db₂.scopes := by
  simp only [scopes, SortedSet.mem_ofList, List.mem_map, h.mem_keys_iff, or_and_right, exists_or]

theorem validate_iff (h : Interleaved db₁ db₂ db) :
    db.validate = .ok () ↔ db₁.validate = .ok () ∧ db₂.validate = .ok () := by
  simp only [validate_eq_ok, h.functions.forall_mem_iff, h.globals.forall_mem_iff,
    h.enums.forall_mem_iff, h.classes.forall_mem_iff]
  tauto

/-- A namespace of the first database holds what it did there. -/
theorem group_eq (h : Interleaved db₁ db₂ db) {scope : String} (hscope : scope ∈ db₁.scopes)
    (hother : scope ∉ db₂.scopes) : db.group scope = db₁.group scope := by
  have hwithin {α : Type} {c₁ c₂ c : Catalog α} (hc : Interleaves c₁.entries c₂.entries c.entries)
      (hkeys : c₂.keys ⊆ db₂.keys) : within scope c = within scope c₁ := by
    apply Dictionary.ext
    apply hc.filter_eq
    intro e he
    have hkey : e.1 ∈ db₂.keys := hkeys (List.mem_map_of_mem he)
    exact decide_eq_false fun hparent => hother (hparent ▸ parent_mem_scopes hkey)
  have hclasses := hwithin h.classes fun key hkey => by simp [keys, hkey]
  have henums := hwithin h.enums fun key hkey => by simp [keys, hkey]
  have hfunctions := hwithin h.functions fun key hkey => by simp [keys, hkey]
  have hglobals := hwithin h.globals fun key hkey => by simp [keys, hkey]
  have htypedefs := hwithin h.typedefs fun key hkey => by simp [keys, hkey]
  rw [group, group, h.info_left scope hscope, hclasses, henums, hfunctions, hglobals, htypedefs]

theorem mem_groups_iff (h : Interleaved db₁ db₂ db) (hdisjoint : db₁.scopes.Disjoint db₂.scopes)
    {g : Group} : g ∈ db.groups ↔ g ∈ db₁.groups ∨ g ∈ db₂.groups := by
  simp only [groups, List.mem_map, h.mem_scopes_iff, or_and_right, exists_or]
  refine or_congr ?_ ?_
  · refine exists_congr fun scope => and_congr_right fun hscope => ?_
    rw [h.group_eq hscope fun hother => hdisjoint hscope hother]
  · refine exists_congr fun scope => and_congr_right fun hscope => ?_
    rw [h.symm.group_eq hscope fun hother => hdisjoint hother hscope]

end Interleaved

theorem exists_plan_iff : (∃ units, (db.plan adapter).outcome = .ok units) ↔
    db.validate = .ok () ∧ ∀ g ∈ db.groups, ∃ o, (g.unit adapter).outcome = .ok o := by
  simp only [plan_eq_ok, ← Run.exists_outcome_collect_iff, Run.outcome_collect_eq_ok]
  constructor
  · rintro ⟨_, hvalid, found, rfl, hall⟩
    exact ⟨hvalid, found, hall⟩
  · rintro ⟨hvalid, found, hall⟩
    exact ⟨_, hvalid, found, rfl, hall⟩

theorem mem_plan_iff {units : List BindingUnit} (h : (db.plan adapter).outcome = .ok units)
    {u : BindingUnit} : u ∈ units ↔ ∃ g ∈ db.groups, (g.unit adapter).outcome = .ok (some u) := by
  obtain ⟨_, found, rfl, hall⟩ := plan_eq_ok.mp h
  have hcollect := Run.outcome_collect_eq_ok.mpr hall
  rw [List.mem_filterMap]
  constructor
  · rintro ⟨o, ho, rfl⟩
    exact Run.exists_of_mem_collect hcollect ho
  · rintro ⟨g, hg, hunit⟩
    obtain ⟨o, ho, hunit'⟩ := Run.exists_result_of_mem hcollect hg
    rw [hunit'] at hunit
    exact ⟨o, ho, Except.ok.inj hunit⟩

/-- Merges two lists of units in the order of their namespaces. -/
def mergeUnits (units units' : List BindingUnit) : List BindingUnit :=
  units.merge units' fun u v => decide (u.scope ≤ v.scope)

theorem pairwise_mergeUnits {units units' : List BindingUnit}
    (h : (units.map BindingUnit.scope).Pairwise (· < ·))
    (h' : (units'.map BindingUnit.scope).Pairwise (· < ·)) :
    (mergeUnits units units').Pairwise fun u v => u.scope ≤ v.scope := by
  have hle {l : List BindingUnit} (hl : (l.map BindingUnit.scope).Pairwise (· < ·)) :
      l.Pairwise fun u v => decide (u.scope ≤ v.scope) = true :=
    (List.pairwise_map.mp hl).imp fun huv => decide_eq_true huv.le
  have hmerged := List.pairwise_merge
    (fun u v w huv hvw => decide_eq_true ((of_decide_eq_true huv).trans (of_decide_eq_true hvw)))
    (fun u v => by simpa using le_total u.scope v.scope) units units' (hle h) (hle h')
  exact hmerged.imp of_decide_eq_true

/-- The units of a plan are determined by their members. -/
theorem eq_mergeUnits {units units₁ units₂ : List BindingUnit}
    (hunits : (units.map BindingUnit.scope).Pairwise (· < ·))
    (h₁ : (units₁.map BindingUnit.scope).Pairwise (· < ·))
    (h₂ : (units₂.map BindingUnit.scope).Pairwise (· < ·))
    (hdisjoint : units₁.Disjoint units₂) (hmem : ∀ u, u ∈ units ↔ u ∈ units₁ ∨ u ∈ units₂) :
    units = mergeUnits units₁ units₂ := by
  have hnodup {l : List BindingUnit} (hl : (l.map BindingUnit.scope).Pairwise (· < ·)) : l.Nodup :=
    List.Nodup.of_map BindingUnit.scope (hl.imp ne_of_lt)
  have hperm : units.Perm (units₁ ++ units₂) := by
    rw [List.perm_ext_iff_of_nodup (hnodup hunits) ((hnodup h₁).append (hnodup h₂) hdisjoint)]
    intro u
    rw [hmem, List.mem_append]
  have hmerge : (mergeUnits units₁ units₂).Perm (units₁ ++ units₂) :=
    List.merge_perm_append _
  refine List.Perm.eq_of_pairwise ?_ ((List.pairwise_map.mp hunits).imp le_of_lt)
    (pairwise_mergeUnits h₁ h₂) (hperm.trans hmerge.symm)
  intro u v hu hv huv hvu
  have hv' : v ∈ units := hperm.mem_iff.mpr (hmerge.mem_iff.mp hv)
  exact List.inj_on_of_nodup_map (hunits.imp ne_of_lt) hu hv' (le_antisymm huv hvu)

/-- When no namespace is common to two databases, a database that interleaves them has a plan
exactly when both have one. Its units are then those of both, unchanged and in the order of their
namespaces. -/
theorem plan_interleaved (h : Interleaved db₁ db₂ db) (hdisjoint : db₁.scopes.Disjoint db₂.scopes)
    (adapter : Adapter) :
    ((∃ units, (db.plan adapter).outcome = .ok units) ↔
      (∃ units₁, (db₁.plan adapter).outcome = .ok units₁) ∧
        ∃ units₂, (db₂.plan adapter).outcome = .ok units₂) ∧
    ∀ units₁ units₂, (db₁.plan adapter).outcome = .ok units₁ →
      (db₂.plan adapter).outcome = .ok units₂ →
        (db.plan adapter).outcome = .ok (mergeUnits units₁ units₂) ∧
          (mergeUnits units₁ units₂).Perm (units₁ ++ units₂) ∧
          ((mergeUnits units₁ units₂).map BindingUnit.scope).Pairwise (· < ·) := by
  have hgroups (g : Group) : g ∈ db.groups ↔ g ∈ db₁.groups ∨ g ∈ db₂.groups :=
    h.mem_groups_iff hdisjoint
  have hsucceeds : (∃ units, (db.plan adapter).outcome = .ok units) ↔
      (∃ units₁, (db₁.plan adapter).outcome = .ok units₁) ∧
        ∃ units₂, (db₂.plan adapter).outcome = .ok units₂ := by
    simp only [exists_plan_iff, h.validate_iff, hgroups, or_imp, forall_and]
    tauto
  refine ⟨hsucceeds, fun units₁ units₂ h₁ h₂ => ?_⟩
  obtain ⟨units, hunits⟩ := hsucceeds.mpr ⟨⟨units₁, h₁⟩, units₂, h₂⟩
  have hmem (u : BindingUnit) : u ∈ units ↔ u ∈ units₁ ∨ u ∈ units₂ := by
    simp only [mem_plan_iff hunits, mem_plan_iff h₁, mem_plan_iff h₂, hgroups, or_and_right,
      exists_or]
  have hapart : units₁.Disjoint units₂ := by
    intro u hu₁ hu₂
    exact hdisjoint ((scopes_sublist h₁).subset (List.mem_map_of_mem hu₁))
      ((scopes_sublist h₂).subset (List.mem_map_of_mem hu₂))
  have heq := eq_mergeUnits (pairwise_scopes hunits) (pairwise_scopes h₁) (pairwise_scopes h₂)
    hapart hmem
  rw [← heq]
  exact ⟨hunits, heq ▸ List.merge_perm_append _, pairwise_scopes hunits⟩

/-- An enum and a function in two namespaces, one of them below a namespace of `nestedSample`. -/
def besideSample : Database where
  namespaces := .ofEntries [("a::c", { additionalIncludes := ["a/c.hpp"] })]
  enums := .ofEntries [("z::Color", { name := "Color", location := "include/color.hpp" })]
  functions := .ofEntries [
    ("a::c::h", .single { name := "h", returnType := "int", location := "include/h.hpp" })]

/-- The entries of `nestedSample` and `besideSample` in turn. -/
def interleavedSample : Database where
  namespaces := .ofEntries [
    ("b", { additionalIncludes := ["b.hpp"] }), ("a::c", { additionalIncludes := ["a/c.hpp"] })]
  classes := nestedSample.classes
  enums := besideSample.enums
  functions := .ofEntries [
    ("a::f", (nestedSample.functions.get? "a::f").getD default),
    ("a::c::h", (besideSample.functions.get? "a::c::h").getD default),
    ("a::g", (nestedSample.functions.get? "a::g").getD default)]
  globals := nestedSample.globals

theorem interleavedSample_plan :
    Interleaved nestedSample besideSample interleavedSample ∧
      nestedSample.scopes.Disjoint besideSample.scopes ∧
      ∃ units₁ units₂, (nestedSample.plan .sol3).outcome = .ok units₁ ∧
        (besideSample.plan .sol3).outcome = .ok units₂ ∧
        (interleavedSample.plan .sol3).outcome = .ok (mergeUnits units₁ units₂) ∧
        (mergeUnits units₁ units₂).map BindingUnit.scope = ["a", "a::b", "a::c", "z"] := by
  have hinterleaved : Interleaved nestedSample besideSample interleavedSample := by
    refine ⟨.left .nil, .right .nil, .left (.right (.left .nil)), .left .nil, .nil, ?_, ?_⟩
    · decide +kernel
    · decide +kernel
  have hdisjoint : nestedSample.scopes.Disjoint besideSample.scopes :=
    List.disjoint_left.mpr (by decide +kernel)
  obtain ⟨_, hplan⟩ := plan_interleaved hinterleaved hdisjoint .sol3
  obtain ⟨hmerged, _, _⟩ := hplan _ _ rfl rfl
  refine ⟨hinterleaved, hdisjoint, _, _, rfl, rfl, hmerged, ?_⟩
  rw [eq_getD_of_plan hmerged]
  decide +kernel

end Database

end ScriptBindings
