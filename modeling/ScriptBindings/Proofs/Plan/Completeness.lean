import ScriptBindings.Proofs.Emission.Failure
import ScriptBindings.Proofs.Emission.Objects
import ScriptBindings.Proofs.Plan.Units

namespace ScriptBindings

/-- The object is equal to an earlier one, and those before it differ. -/
def IsFirstRepeat (object : String) (objects : List String) : Prop :=
  ∃ earlier later, objects = earlier ++ object :: later ∧ earlier.Nodup ∧ object ∈ earlier

theorem firstRepeated_eq_some {seen objects : List String} {o : String} :
    firstRepeated seen objects = some o ↔ ∃ earlier later, objects = earlier ++ o :: later ∧
      firstRepeated seen earlier = none ∧ o ∈ earlier ++ seen := by
  induction objects generalizing seen with
  | nil => simp [firstRepeated]
  | cons p objects ih =>
    -- Either the search ends at `p`, or `p` joins the objects that later ones must differ from.
    by_cases hp : p ∈ seen
    · simp only [firstRepeated, if_pos hp, Option.some.injEq]
      constructor
      · rintro rfl
        exact ⟨[], objects, rfl, rfl, hp⟩
      · rintro ⟨earlier, later, heq, hnone, _⟩
        cases earlier with
        | nil => exact (List.cons.inj heq).1
        | cons q earlier =>
          obtain ⟨rfl, _⟩ := List.cons.inj heq
          simp [firstRepeated, hp] at hnone
    · simp only [firstRepeated, if_neg hp, ih]
      constructor
      · rintro ⟨earlier, later, rfl, hnone, ho⟩
        refine ⟨p :: earlier, later, rfl, ?_, ?_⟩
        · rw [firstRepeated, if_neg hp, hnone]
        · simp only [List.mem_append, List.mem_cons] at ho ⊢
          tauto
      · rintro ⟨earlier, later, heq, hnone, ho⟩
        cases earlier with
        | nil =>
          obtain ⟨rfl, _⟩ := List.cons.inj heq
          exact absurd ho hp
        | cons q earlier =>
          obtain ⟨rfl, rfl⟩ := List.cons.inj heq
          rw [firstRepeated, if_neg hp] at hnone
          refine ⟨earlier, later, rfl, hnone, ?_⟩
          simp only [List.cons_append, List.mem_cons, List.mem_append] at ho ⊢
          tauto

theorem firstRepeated_iff_isFirstRepeat {objects : List String} {o : String} :
    firstRepeated [] objects = some o ↔ IsFirstRepeat o objects := by
  simp only [firstRepeated_eq_some, firstRepeated_eq_none, List.append_nil, List.not_mem_nil,
    not_false_eq_true, implies_true, and_true]
  exact Iff.rfl

theorem exists_isFirstRepeat {objects : List String} :
    (∃ o, IsFirstRepeat o objects) ↔ ¬ objects.Nodup := by
  simp only [← firstRepeated_iff_isFirstRepeat, ← Option.ne_none_iff_exists', ne_eq,
    firstRepeated_eq_none, List.not_mem_nil, not_false_eq_true, implies_true, and_true]

namespace Group

variable {adapter : Adapter} {g : Group} {b : BindingSet}

theorem assemble_eq_none : (g.assemble adapter b).outcome = .ok none ↔ b.loaders = [] := by
  unfold assemble
  by_cases hb : b.loaders = []
  · simp [BindingSet.isEmpty, hb]
  · have he : b.isEmpty = false := List.isEmpty_eq_false_iff.mpr hb
    rw [he]
    cases firstRepeated [] b.objects with
    | some o => simp [hb]
    | none => simp [hb]

theorem assemble_eq_error {e : BindError} : (g.assemble adapter b).outcome = .error e ↔
    ∃ o, IsFirstRepeat o b.objects ∧ e = .collision g.name o := by
  simp only [← firstRepeated_iff_isFirstRepeat]
  unfold assemble
  by_cases hb : b.loaders = []
  · simp [BindingSet.isEmpty, BindingSet.objects, hb, firstRepeated]
  · have he : b.isEmpty = false := List.isEmpty_eq_false_iff.mpr hb
    rw [he]
    cases firstRepeated [] b.objects with
    | some o => simp [eq_comm]
    | none => simp

theorem outcome_unit (h : g.name ≠ "") : (g.unit adapter).outcome =
    (g.emit adapter).outcome.bind fun b => (g.assemble adapter b).outcome := by
  have htypedefs : g.reportTypedefs.outcome = .ok () := by
    unfold reportTypedefs
    split
    · rfl
    · rfl
  rw [unit, if_neg h, Run.outcome_report_bind, Run.outcome_bind]
  simp only [Run.outcome_bind, htypedefs]
  rfl

theorem unit_eq_none : (g.unit adapter).outcome = .ok none ↔ g.bindables = [] := by
  by_cases hname : g.name = ""
  · rw [unit, if_pos hname, firstBindable_eq]
    cases g.bindables with
    | nil => simp
    | cons e es => simp
  · rw [outcome_unit hname]
    cases hb : (g.emit adapter).outcome with
    | ok b =>
      change (g.assemble adapter b).outcome = .ok none ↔ _
      rw [assemble_eq_none, loaders_eq_nil_iff hb]
    | error e =>
      -- An emission that fails has something to bind.
      constructor
      · intro h
        cases h
      · intro h
        rw [emit_of_no_bindables h] at hb
        cases hb

/-- A group with a name is refused for its objects when one of them repeats an earlier one. -/
theorem unit_eq_collision (hname : g.name ≠ "") {scope o : String} :
    (g.unit adapter).outcome = .error (.collision scope o) ↔
      scope = g.name ∧ ∃ b, (g.emit adapter).outcome = .ok b ∧ IsFirstRepeat o b.objects := by
  rw [outcome_unit hname]
  cases hb : (g.emit adapter).outcome with
  | error e =>
    constructor
    · intro h
      cases h
      -- Emitters blame constructs that cannot be bound, never a collision.
      rcases emit_fails adapter g _ hb with ⟨f, _, _, _, he⟩ | ⟨c, _, _, f, _, _, _, he⟩
      · cases he
      · cases he
    · rintro ⟨_, b, h, _⟩
      cases h
  | ok b =>
    change (g.assemble adapter b).outcome = _ ↔ _
    rw [assemble_eq_error]
    constructor
    · rintro ⟨o, ho, he⟩
      cases he
      exact ⟨rfl, b, rfl, ho⟩
    · rintro ⟨rfl, _, h, ho⟩
      cases h
      exact ⟨o, ho, rfl⟩

/-- All four emitters succeed on the group, with these objects one after the other. -/
def Emits (adapter : Adapter) (g : Group) (objects : List String) : Prop :=
  ∃ classes enums functions globals, (Class.emitAll adapter g.classes).outcome = .ok classes ∧
    (Enumeration.emitAll adapter g.enums).outcome = .ok enums ∧
    (Callable.emitAll adapter g.functions).outcome = .ok functions ∧
    (Global.emitAll adapter g.globals).outcome = .ok globals ∧
    objects = classes.objects ++ enums.objects ++ functions.objects ++ globals.objects

theorem emits_iff {objects : List String} :
    g.Emits adapter objects ↔ ∃ b, (g.emit adapter).outcome = .ok b ∧ b.objects = objects := by
  constructor
  · rintro ⟨classes, enums, functions, globals, hc, he, hf, hg, rfl⟩
    refine ⟨_, emit_eq_ok.mpr ⟨classes, enums, functions, globals, hc, he, hf, hg, rfl⟩, ?_⟩
    simp only [objects_append]
  · rintro ⟨b, hb, rfl⟩
    obtain ⟨classes, enums, functions, globals, hc, he, hf, hg, rfl⟩ := emit_eq_ok.mp hb
    refine ⟨classes, enums, functions, globals, hc, he, hf, hg, ?_⟩
    simp only [objects_append]

theorem collides_iff (hname : g.name ≠ "") {scope o : String} :
    (g.unit adapter).outcome = .error (.collision scope o) ↔
      scope = g.name ∧ ∃ objects, g.Emits adapter objects ∧ IsFirstRepeat o objects := by
  rw [unit_eq_collision hname]
  simp only [emits_iff, exists_exists_and_eq_and]

end Group

namespace Database

variable {adapter : Adapter} {db : Database} {units : List BindingUnit}

theorem bindables_group (db : Database) (scope : String) :
    (db.group scope).bindables = db.bindables.filter fun e => Scope.parent e.1 = scope := by
  simp only [bindables, Group.bindables, group, asGroup, List.filter_append, objectsOf_within]

theorem mem_keys_of_mem_bindables {e : String × Except BindError String} (h : e ∈ db.bindables) :
    e.1 ∈ db.keys := by
  have hkeys {α : Type} {p : α → Bool} {object : α → Except BindError String} {c : Catalog α}
      (he : e ∈ objectsOf p object c) : e.1 ∈ c.keys := by
    obtain ⟨a, ha, rfl⟩ := List.mem_map.mp he
    exact List.mem_map_of_mem (List.mem_filter.mp ha).1
  simp only [bindables, Group.bindables, asGroup, List.mem_append] at h
  simp only [keys, List.mem_append]
  rcases h with ((h | h) | h) | h
  · exact .inl (.inl (.inl (.inl (hkeys h))))
  · exact .inl (.inl (.inl (.inr (hkeys h))))
  · exact .inl (.inl (.inr (hkeys h)))
  · exact .inl (.inr (hkeys h))

theorem objects_eq (h : (db.plan adapter).outcome = .ok units) {u : BindingUnit} (hu : u ∈ units) :
    u.objects.map Except.ok =
      (db.bindables.filter fun e => Scope.parent e.1 = u.scope).map Prod.snd := by
  obtain ⟨scope, b, hb, _, _, _, rfl⟩ := unit_of_mem_plan h hu
  rw [BindingUnit.ofSet_objects, BindingUnit.ofSet_scope, Group.emit_objects hb, bindables_group]

theorem pairwise_scopes (h : (db.plan adapter).outcome = .ok units) :
    (units.map BindingUnit.scope).Pairwise (· < ·) :=
  (SortedSet.pairwise_ofList _).sublist (scopes_sublist h)

theorem mem_scopes_iff (h : (db.plan adapter).outcome = .ok units) {scope : String} :
    scope ∈ units.map BindingUnit.scope ↔ ∃ e ∈ db.bindables, Scope.parent e.1 = scope := by
  constructor
  · intro hscope
    obtain ⟨u, hu, rfl⟩ := List.mem_map.mp hscope
    -- A planned unit has an object, and each object is that of an entity of its namespace.
    have hne : (db.bindables.filter fun e => Scope.parent e.1 = u.scope) ≠ [] := by
      intro hnil
      have hobjects := objects_eq h hu
      rw [hnil] at hobjects
      exact objects_ne_nil h hu (List.map_eq_nil_iff.mp hobjects)
    obtain ⟨e, he⟩ := List.exists_mem_of_ne_nil _ hne
    obtain ⟨hmem, hparent⟩ := List.mem_filter.mp he
    exact ⟨e, hmem, of_decide_eq_true hparent⟩
  · rintro ⟨e, he, hparent⟩
    obtain ⟨_, found, rfl, hall⟩ := plan_eq_ok.mp h
    have hscope : scope ∈ db.scopes := by
      rw [← hparent]
      exact SortedSet.mem_ofList.mpr (List.mem_map_of_mem (mem_keys_of_mem_bindables he))
    have hgroup : db.group scope ∈ db.groups := List.mem_map_of_mem hscope
    obtain ⟨o, ho, hunit⟩ :=
      Run.exists_result_of_mem (Run.outcome_collect_eq_ok.mpr hall) hgroup
    cases o with
    | none =>
      have hnil := Group.unit_eq_none.mp hunit
      rw [bindables_group] at hnil
      have hmem : e ∈ db.bindables.filter fun f => Scope.parent f.1 = scope :=
        List.mem_filter.mpr ⟨he, decide_eq_true hparent⟩
      rw [hnil] at hmem
      cases hmem
    | some u =>
      obtain ⟨_, b, _, _, _, rfl⟩ := Group.unit_eq_some.mp hunit
      exact List.mem_map.mpr
        ⟨_, List.mem_filterMap.mpr ⟨_, ho, rfl⟩, BindingUnit.ofSet_scope ..⟩

/-- A plan has one unit for each namespace that holds an entity to bind, in the order of their
names, and the objects of a unit are those of its entities, one by one. A group yields nothing only
if it has nothing to bind, and it is refused for its objects only if two of them are equal. -/
theorem plan_complete (adapter : Adapter) (db : Database) :
    (∀ units, (db.plan adapter).outcome = .ok units →
      (units.map BindingUnit.scope).Pairwise (· < ·) ∧
      (∀ scope, scope ∈ units.map BindingUnit.scope ↔
        ∃ e ∈ db.bindables, Scope.parent e.1 = scope) ∧
      ∀ u ∈ units, u.objects.Nodup ∧ u.objects.map Except.ok =
        (db.bindables.filter fun e => Scope.parent e.1 = u.scope).map Prod.snd) ∧
    ∀ g : Group,
      (g.hasBindable = true ↔ g.firstBindable.isSome = true) ∧
      (g.hasBindable = true ↔ (g.unit adapter).outcome ≠ .ok none) ∧
      (g.name ≠ "" →
        ((∃ scope o, (g.unit adapter).outcome = .error (.collision scope o)) ↔
          ∃ objects, g.Emits adapter objects ∧ ¬ objects.Nodup) ∧
        ∀ scope o, (g.unit adapter).outcome = .error (.collision scope o) ↔
          scope = g.name ∧ ∃ objects, g.Emits adapter objects ∧ IsFirstRepeat o objects) := by
  refine ⟨fun units h => ⟨pairwise_scopes h, fun scope => mem_scopes_iff h, fun u hu =>
    ⟨nodup_objects h hu, objects_eq h hu⟩⟩, fun g => ⟨?_, ?_, fun hname =>
      ⟨?_, fun scope o => Group.collides_iff hname⟩⟩⟩
  · rw [Group.hasBindable_iff, Group.firstBindable_eq, Option.isSome_map, List.isSome_head?]
  · rw [Group.hasBindable_iff, Ne, Ne, Group.unit_eq_none]
  · simp only [Group.collides_iff hname, ← exists_isFirstRepeat]
    constructor
    · rintro ⟨_, o, rfl, objects, hobjects, ho⟩
      exact ⟨objects, hobjects, o, ho⟩
    · rintro ⟨objects, hobjects, o, ho⟩
      exact ⟨g.name, o, rfl, objects, hobjects, ho⟩

/-- Two functions whose names differ in a capital only. -/
def clashSample : Group where
  name := "ns"
  functions := .ofEntries [
    ("ns::Add", .single { name := "Add", returnType := "int", location := "include/add.hpp" }),
    ("ns::add", .single { name := "add", returnType := "int", location := "include/add.hpp" })]

theorem nestedSample_complete :
    ∃ units, (nestedSample.plan .sol3).outcome = .ok units ∧
      units.map BindingUnit.scope = ["a", "a::b"] ∧
      (units.map BindingUnit.scope).Pairwise (· < ·) ∧
      (∀ u ∈ units, u.objects.Nodup ∧ u.objects.map Except.ok =
        (nestedSample.bindables.filter fun e => Scope.parent e.1 = u.scope).map Prod.snd) ∧
      nestedSample.bindables.map Prod.fst = ["a::b::Box<c::D>", "a::f", "a::b::limit"] ∧
      (clashSample.unit .sol3).outcome = .error (.collision "ns" "FunctionAdd") := by
  obtain ⟨hplan, hgroup⟩ := plan_complete .sol3 nestedSample
  obtain ⟨hsorted, _, hobjects⟩ := hplan _ rfl
  obtain ⟨_, hcollides⟩ := (hgroup clashSample).2.2 (by decide)
  have hemits : clashSample.Emits .sol3 ["FunctionAdd", "FunctionAdd"] :=
    Group.emits_iff.mpr ⟨_, rfl, rfl⟩
  refine ⟨_, rfl, rfl, hsorted, hobjects, rfl, (hcollides _ _).mpr ⟨rfl, _, hemits, ?_⟩⟩
  exact ⟨["FunctionAdd"], [], rfl, List.nodup_singleton _, List.mem_singleton_self _⟩

end Database

end ScriptBindings
