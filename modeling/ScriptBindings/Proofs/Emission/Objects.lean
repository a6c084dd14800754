import ScriptBindings.Proofs.Emission

namespace ScriptBindings

/-- The entries of a catalog that can be bound, each with the object made for it. -/
def objectsOf {α : Type} (p : α → Bool) (object : α → Except BindError String) (c : Catalog α) :
    List (String × Except BindError String) :=
  (c.entries.filter fun e => p e.2).map fun e => (e.1, object e.2)

/-- All that a group has to bind: classes come before enums, functions and globals. -/
def Group.bindables (g : Group) : List (String × Except BindError String) :=
  objectsOf (fun c => !c.flags.nobind) (fun c => .ok c.object) g.classes ++
    objectsOf (fun e => !e.flags.nobind) (fun e => .ok e.object) g.enums ++
    objectsOf Callable.isBindable Callable.object g.functions ++
    objectsOf (fun v => !v.flags.nobind) (fun v => .ok v.object) g.globals

def Database.bindables (db : Database) : List (String × Except BindError String) :=
  (db.asGroup "" {}).bindables

section Catalogs

variable {α : Type} {p : α → Bool} {object : α → Except BindError String}

theorem objectsOf_eq_nil {c : Catalog α} :
    objectsOf p object c = [] ↔ c.values.any p = false := by
  simp [objectsOf, Dictionary.values]

theorem mem_objectsOf {c : Catalog α} {key : String} {r : Except BindError String} :
    (key, r) ∈ objectsOf p object c ↔ ∃ a, (key, a) ∈ c.entries ∧ p a = true ∧ object a = r := by
  simp only [objectsOf, List.mem_map, List.mem_filter, Prod.exists, Prod.mk.injEq]
  constructor
  · rintro ⟨_, a, ⟨ha, hp⟩, rfl, rfl⟩
    exact ⟨a, ha, hp, rfl⟩
  · rintro ⟨a, ha, hp, rfl⟩
    exact ⟨key, a, ⟨ha, hp⟩, rfl, rfl⟩

theorem find?_eq_head_objectsOf (object : α → Except BindError String) (c : Catalog α) :
    c.find? p = (objectsOf p object c).head?.map Prod.fst := by
  rw [objectsOf, List.head?_map, List.head?_filter, Option.map_map]
  rfl

theorem objectsOf_within (scope : String) (c : Catalog α) :
    objectsOf p object (Database.within scope c) =
      (objectsOf p object c).filter fun e => Scope.parent e.1 = scope := by
  simp only [objectsOf, Database.within, Dictionary.filter, List.filter_map, List.filter_filter,
    Function.comp_def, Bool.and_comm]

theorem objects_concat (sets : List BindingSet) :
    (BindingSet.concat sets).objects = sets.flatMap BindingSet.objects :=
  List.map_flatMap

theorem emitEach_objects (emit : String → α → Run BindingSet) {c : Catalog α} {b : BindingSet}
    (hemit : ∀ path a s, (emit path a).outcome = .ok s →
      s.objects.map Except.ok = if p a then [object a] else [])
    (h : (emitEach emit c).outcome = .ok b) :
    b.objects.map Except.ok = (objectsOf p object c).map Prod.snd := by
  unfold emitEach at h
  obtain ⟨sets, hsets, h⟩ := Run.outcome_bind_eq_ok.mp h
  cases h
  rw [objects_concat, objectsOf]
  have hall := Run.outcome_collect_eq_ok.mp hsets
  -- The induction is on the entries alone, so that the sets vary with them.
  clear hsets h
  generalize c.entries = entries at hall ⊢
  induction hall with
  | nil => rfl
  | @cons e s es sets hs _ ih =>
    rw [List.flatMap_cons, List.map_append, ih, hemit e.1 e.2 s hs, List.filter_cons]
    split
    · rfl
    · rfl

theorem emitEach_of_none {emit : String → α → Run BindingSet} {c : Catalog α}
    (hskip : ∀ path a, p a = false → (emit path a).outcome = .ok .empty)
    (h : objectsOf p object c = []) : (emitEach emit c).outcome = .ok .empty := by
  rw [← outcome_emitEach_prune emit id hskip fun path a _ => rfl]
  have hnone : (c.entries.filter fun e => p e.2) = [] := List.map_eq_nil_iff.mp h
  simp only [emitEach, Dictionary.prune, Dictionary.map, Dictionary.filter, hnone]
  rfl

end Catalogs

section Entities

variable {adapter : Adapter} {path : String} {s : BindingSet}

theorem Class.emit_objects {c : Class} (h : (c.emit adapter path).outcome = .ok s) :
    s.objects.map Except.ok =
      if !c.flags.nobind then [(.ok c.object : Except BindError String)] else [] := by
  rcases outcome_emit_eq_ok.mp h with ⟨hc, rfl⟩ | ⟨hc, statements, _, rfl⟩
  · rw [hc]
    rfl
  · rw [hc]
    rfl

theorem Enumeration.emit_objects {e : Enumeration} (h : (e.emit adapter path).outcome = .ok s) :
    s.objects.map Except.ok =
      if !e.flags.nobind then [(.ok e.object : Except BindError String)] else [] := by
  rw [outcome_emit] at h
  cases h
  cases e.flags.nobind with
  | true => rfl
  | false => rfl

theorem Callable.emit_objects {f : Callable} (h : (f.emit adapter path).outcome = .ok s) :
    s.objects.map Except.ok = if f.isBindable then [f.object] else [] := by
  rcases outcome_emit_eq_ok.mp h with ⟨hf, rfl⟩ | ⟨hf, object, ho, rfl⟩
  · rw [hf]
    rfl
  · rw [hf, ho]
    rfl

theorem Global.emit_objects {g : Global} (h : (g.emit adapter path).outcome = .ok s) :
    s.objects.map Except.ok =
      if !g.flags.nobind then [(.ok g.object : Except BindError String)] else [] := by
  rw [outcome_emit] at h
  cases h
  cases g.flags.nobind with
  | true => rfl
  | false => rfl

end Entities

namespace Group

variable {adapter : Adapter} {g : Group} {b : BindingSet}

theorem firstBindable_eq (g : Group) : g.firstBindable = g.bindables.head?.map Prod.fst := by
  rw [firstBindable, find?_eq_head_objectsOf (fun c => .ok c.object) g.classes,
    find?_eq_head_objectsOf (fun e => .ok e.object) g.enums,
    find?_eq_head_objectsOf Callable.object g.functions,
    find?_eq_head_objectsOf (fun v => .ok v.object) g.globals]
  simp only [bindables, List.head?_append, Option.map_or]

theorem hasBindable_iff : g.hasBindable = true ↔ g.bindables ≠ [] := by
  rw [← Bool.not_eq_false, not_iff_not]
  simp only [bindables, hasBindable, List.append_eq_nil_iff, objectsOf_eq_nil, Bool.or_eq_false_iff]

theorem emit_eq_ok : (g.emit adapter).outcome = .ok b ↔
    ∃ classes enums functions globals, (Class.emitAll adapter g.classes).outcome = .ok classes ∧
      (Enumeration.emitAll adapter g.enums).outcome = .ok enums ∧
      (Callable.emitAll adapter g.functions).outcome = .ok functions ∧
      (Global.emitAll adapter g.globals).outcome = .ok globals ∧
      b = classes ++ enums ++ functions ++ globals := by
  simp only [emit, Run.outcome_bind_eq_ok, Run.outcome_ok, Except.ok.injEq]
  constructor
  · rintro ⟨classes, hc, enums, he, functions, hf, globals, hg, rfl⟩
    exact ⟨classes, enums, functions, globals, hc, he, hf, hg, rfl⟩
  · rintro ⟨classes, enums, functions, globals, hc, he, hf, hg, rfl⟩
    exact ⟨classes, hc, enums, he, functions, hf, globals, hg, rfl⟩

theorem objects_append (b c : BindingSet) : (b ++ c).objects = b.objects ++ c.objects :=
  List.map_append

theorem emit_objects (h : (g.emit adapter).outcome = .ok b) :
    b.objects.map Except.ok = g.bindables.map Prod.snd := by
  obtain ⟨classes, enums, functions, globals, hc, he, hf, hg, rfl⟩ := emit_eq_ok.mp h
  simp only [objects_append, List.map_append, bindables,
    emitEach_objects (Class.emit adapter) (fun path c s => Class.emit_objects) hc,
    emitEach_objects (Enumeration.emit adapter) (fun path e s => Enumeration.emit_objects) he,
    emitEach_objects (Callable.emit adapter) (fun path f s => Callable.emit_objects) hf,
    emitEach_objects (Global.emit adapter) (fun path v s => Global.emit_objects) hg]

theorem emit_of_no_bindables (h : g.bindables = []) : (g.emit adapter).outcome = .ok .empty := by
  simp only [bindables, List.append_eq_nil_iff] at h
  obtain ⟨⟨⟨hclasses, henums⟩, hfunctions⟩, hglobals⟩ := h
  refine emit_eq_ok.mpr ⟨.empty, .empty, .empty, .empty, ?_, ?_, ?_, ?_, rfl⟩
  · exact emitEach_of_none (fun path c hc =>
      Class.outcome_emit_hidden adapter path (Bool.not_eq_eq_eq_not.mp hc)) hclasses
  · exact emitEach_of_none (fun path e he =>
      Enumeration.outcome_emit_hidden adapter path (Bool.not_eq_eq_eq_not.mp he)) henums
  · exact emitEach_of_none (fun path f hf =>
      Callable.outcome_emit_eq_ok.mpr (.inl ⟨hf, rfl⟩)) hfunctions
  · exact emitEach_of_none (fun path v hv =>
      Global.outcome_emit_hidden adapter path (Bool.not_eq_eq_eq_not.mp hv)) hglobals

theorem loaders_eq_nil_iff (h : (g.emit adapter).outcome = .ok b) :
    b.loaders = [] ↔ g.bindables = [] := by
  have hobjects := emit_objects h
  constructor
  · intro hb
    rw [BindingSet.objects, hb] at hobjects
    exact List.map_eq_nil_iff.mp hobjects.symm
  · intro hg
    rw [hg] at hobjects
    exact List.map_eq_nil_iff.mp (List.map_eq_nil_iff.mp hobjects)

end Group

end ScriptBindings
