import ScriptBindings.BindingUnit
import ScriptBindings.Proofs.Dictionary
import ScriptBindings.Proofs.Outcome

namespace ScriptBindings

namespace Loader

/-- The words in front of the names of generated objects. -/
def words : List String := ["Class", "Enum", "Function", "Operator", "Global"]

/-- A loader that binds an entity into the table at `table`. -/
structure BindsIn (adapter : Adapter) (table : List String) (l : Loader) : Prop where
  object_eq : ∃ word ∈ words, ∃ name, l.object = word ++ Identifier.fragment name
  body_eq : ∃ statements,
    l.body = definition adapter l.object (adapter.fetchTable table :: statements)

theorem bindsIn_of {adapter : Adapter} {table statements : List String} {word : String}
    (hw : word ∈ words) (name : String) :
    (of adapter (word ++ Identifier.fragment name)
      (adapter.fetchTable table :: statements)).BindsIn adapter table :=
  ⟨⟨word, hw, name, rfl⟩, statements, rfl⟩

end Loader

theorem Global.outcome_emit (adapter : Adapter) (path : String) (g : Global) :
    (g.emit adapter path).outcome =
      .ok (if g.flags.nobind then .empty
        else .single [g.location] (.of adapter g.object (g.statements adapter path))) := by
  unfold Global.emit
  cases g.flags.nobind with
  | true => rfl
  | false => rfl

theorem Enumeration.outcome_emit (adapter : Adapter) (path : String) (e : Enumeration) :
    (e.emit adapter path).outcome =
      .ok (if e.flags.nobind then .empty
        else .single [e.location] (.of adapter e.object (e.statements adapter path))) := by
  unfold Enumeration.emit
  cases e.flags.nobind with
  | true => rfl
  | false => rfl

theorem Callable.outcome_emit_eq_ok {adapter : Adapter} {path : String} {f : Callable}
    {b : BindingSet} :
    (f.emit adapter path).outcome = .ok b ↔
      (f.isBindable = false ∧ b = .empty) ∨
      (f.isBindable = true ∧ ∃ object, f.object = .ok object ∧
        b = .single (f.boundSignatures.map Signature.location)
          (.of adapter object (f.statements adapter path))) := by
  unfold Callable.emit
  cases f.isBindable with
  | false =>
    simp only [Bool.false_eq_true, if_false, Run.outcome_report_bind, Run.outcome_ok,
      Except.ok.injEq, true_and, false_and, or_false]
    exact eq_comm
  | true =>
    simp only [if_true, Run.outcome_report_bind, Run.outcome_bind_eq_ok, Run.outcome_ofExcept,
      Run.outcome_ok, Except.ok.injEq, Bool.true_eq_false, false_and, false_or, true_and]
    refine exists_congr fun object => and_congr ?_ eq_comm
    cases f.object with
    | error e => simp [Except.mapError]
    | ok object => simp [Except.mapError]

theorem Class.outcome_emit_eq_ok {adapter : Adapter} {path : String} {c : Class}
    {b : BindingSet} :
    (c.emit adapter path).outcome = .ok b ↔
      (c.flags.nobind = true ∧ b = .empty) ∨
      (c.flags.nobind = false ∧ ∃ statements, (c.statements adapter path).outcome = .ok statements ∧
        b = .single [c.location] (.of adapter c.object statements)) := by
  unfold Class.emit
  cases c.flags.nobind with
  | true =>
    simp only [if_true, Run.outcome_report_bind, Run.outcome_ok, Except.ok.injEq, true_and,
      Bool.true_eq_false, false_and, or_false]
    exact eq_comm
  | false =>
    simp only [Bool.false_eq_true, if_false, Run.outcome_report_bind, Run.outcome_bind_eq_ok,
      Run.outcome_ok, Except.ok.injEq, false_and, false_or, true_and]
    exact exists_congr fun statements => and_congr Iff.rfl eq_comm

theorem Global.outcome_emit_hidden (adapter : Adapter) (path : String) {g : Global}
    (h : g.flags.nobind = true) : (g.emit adapter path).outcome = .ok .empty := by
  rw [outcome_emit, if_pos h]

theorem Enumeration.outcome_emit_hidden (adapter : Adapter) (path : String) {e : Enumeration}
    (h : e.flags.nobind = true) : (e.emit adapter path).outcome = .ok .empty := by
  rw [outcome_emit, if_pos h]

theorem Callable.visible_of_isBindable {f : Callable} (h : f.isBindable = true) :
    f.flags.nobind = false :=
  Bool.not_eq_eq_eq_not.mp (Bool.and_eq_true_iff.mp h).1

theorem Callable.isBindable_eq_false {f : Callable} (h : f.flags.nobind = true) :
    f.isBindable = false := by
  rw [isBindable, h, Bool.not_true, Bool.false_and]

theorem Callable.outcome_emit_hidden (adapter : Adapter) (path : String) {f : Callable}
    (h : f.flags.nobind = true) : (f.emit adapter path).outcome = .ok .empty :=
  outcome_emit_eq_ok.mpr (.inl ⟨isBindable_eq_false h, rfl⟩)

theorem Class.outcome_emit_hidden (adapter : Adapter) (path : String) {c : Class}
    (h : c.flags.nobind = true) : (c.emit adapter path).outcome = .ok .empty :=
  outcome_emit_eq_ok.mpr (.inl ⟨h, rfl⟩)

theorem Class.statements_eq_ok {adapter : Adapter} {path : String} {c : Class}
    {statements : List String} (h : (c.statements adapter path).outcome = .ok statements) :
    ∃ members, statements = c.declaration adapter path ++ members := by
  unfold Class.statements at h
  obtain ⟨methods, _, h⟩ := Run.outcome_bind_eq_ok.mp h
  obtain ⟨attributes, _, h⟩ := Run.outcome_bind_eq_ok.mp h
  cases h
  exact ⟨methods.flatten ++ attributes.flatten, List.append_assoc _ _ _⟩

theorem Callable.object_eq_ok_iff {f : Callable} {object : String} : f.object = .ok object ↔
    ∃ d : Operator.Designation,
      Operator.classify f.name ((f.firstSignature.map Signature.parameters).getD []) = .ok d ∧
      d.word ++ Identifier.fragment d.name = object := by
  unfold Callable.object
  cases hc : Operator.classify f.name ((f.firstSignature.map Signature.parameters).getD []) with
  | error e => simp [hc, bind, Except.bind]
  | ok d => simp [hc, bind, Except.bind]

theorem Callable.object_eq_ok {f : Callable} {object : String} (h : f.object = .ok object) :
    ∃ word ∈ Loader.words, ∃ name, object = word ++ Identifier.fragment name := by
  obtain ⟨d, _, rfl⟩ := object_eq_ok_iff.mp h
  refine ⟨d.word, ?_, d.name, rfl⟩
  cases d with
  | function name => simp [Operator.Designation.word, Loader.words]
  | operator name => simp [Operator.Designation.word, Loader.words]

theorem BindingSet.mem_loaders_single {locations : List String} {l k : Loader} :
    k ∈ (BindingSet.single locations l).loaders ↔ k = l :=
  List.mem_singleton

theorem Global.emit_bindsIn {adapter : Adapter} {path : String} {g : Global} {b : BindingSet}
    (h : (g.emit adapter path).outcome = .ok b) {l : Loader} (hl : l ∈ b.loaders) :
    l.BindsIn adapter (tableOf path) := by
  rw [Global.outcome_emit] at h
  cases h
  split at hl
  · cases hl
  · rw [BindingSet.mem_loaders_single.mp hl]
    exact Loader.bindsIn_of (by decide) g.name

theorem Enumeration.emit_bindsIn {adapter : Adapter} {path : String} {e : Enumeration}
    {b : BindingSet} (h : (e.emit adapter path).outcome = .ok b) {l : Loader}
    (hl : l ∈ b.loaders) : l.BindsIn adapter (tableOf path) := by
  rw [Enumeration.outcome_emit] at h
  cases h
  split at hl
  · cases hl
  · rw [BindingSet.mem_loaders_single.mp hl]
    exact Loader.bindsIn_of (by decide) e.name

theorem Callable.emit_bindsIn {adapter : Adapter} {path : String} {f : Callable}
    {b : BindingSet} (h : (f.emit adapter path).outcome = .ok b) {l : Loader}
    (hl : l ∈ b.loaders) : l.BindsIn adapter (tableOf path) := by
  rcases Callable.outcome_emit_eq_ok.mp h with ⟨_, rfl⟩ | ⟨_, object, ho, rfl⟩
  · cases hl
  · rw [BindingSet.mem_loaders_single.mp hl]
    exact ⟨Callable.object_eq_ok ho, _, rfl⟩

theorem Class.emit_bindsIn {adapter : Adapter} {path : String} {c : Class} {b : BindingSet}
    (h : (c.emit adapter path).outcome = .ok b) {l : Loader} (hl : l ∈ b.loaders) :
    l.BindsIn adapter (tableOf path) := by
  rcases Class.outcome_emit_eq_ok.mp h with ⟨_, rfl⟩ | ⟨_, statements, hs, rfl⟩
  · cases hl
  · obtain ⟨members, rfl⟩ := Class.statements_eq_ok hs
    rw [BindingSet.mem_loaders_single.mp hl]
    exact Loader.bindsIn_of (by decide) c.name

/-- Each loader of a catalog comes from one of its entries. -/
theorem emitEach_loaders {α : Type} (emit : String → α → Run BindingSet)
    (P : String → Loader → Prop) {c : Catalog α} {b : BindingSet}
    (hemit : ∀ {path x s}, (emit path x).outcome = .ok s → ∀ {l}, l ∈ s.loaders → P path l)
    (h : (emitEach emit c).outcome = .ok b) {l : Loader} (hl : l ∈ b.loaders) :
    ∃ path ∈ c.keys, P path l := by
  unfold emitEach at h
  obtain ⟨sets, hsets, h⟩ := Run.outcome_bind_eq_ok.mp h
  cases h
  obtain ⟨s, hs, hl⟩ := List.mem_flatMap.mp hl
  obtain ⟨e, he, hes⟩ := Run.exists_of_mem_collect hsets hs
  exact ⟨e.1, List.mem_map_of_mem he, hemit hes hl⟩

theorem BindingSet.concat_eq_foldr (sets : List BindingSet) :
    concat sets = sets.foldr append empty := by
  induction sets with
  | nil => rfl
  | cons b sets ih =>
    rw [List.foldr_cons, ← ih]
    rfl

theorem outcome_emitEach {α : Type} (emit : String → α → Run BindingSet) (c : Catalog α) :
    (emitEach emit c).outcome =
      (Run.collect (fun e => emit e.1 e.2) c.entries).outcome.map
        (List.foldr BindingSet.append .empty) := by
  unfold emitEach
  rw [Run.outcome_bind_ok, funext BindingSet.concat_eq_foldr]

/-- Entries that emit nothing can be left out, and the others replaced by entries that emit the
same. -/
theorem outcome_emitEach_prune {α : Type} (emit : String → α → Run BindingSet) {p : α → Bool}
    (g : α → α) (hskip : ∀ path a, p a = false → (emit path a).outcome = .ok .empty)
    (hkeep : ∀ path a, p a = true → (emit path (g a)).outcome = (emit path a).outcome)
    (c : Catalog α) : (emitEach emit (c.prune p g)).outcome = (emitEach emit c).outcome := by
  rw [outcome_emitEach, outcome_emitEach]
  exact Run.outcome_collect_filter_map (g := fun e => (e.1, g e.2)) (fun b => rfl)
    (fun e => hskip e.1 e.2) (fun e => hkeep e.1 e.2) c.entries

namespace Group

/-- The names of the entities of a group that can be bound. -/
def keys (g : Group) : List String :=
  g.classes.keys ++ g.enums.keys ++ g.functions.keys ++ g.globals.keys

theorem emit_bindsIn {adapter : Adapter} {g : Group} {b : BindingSet}
    (h : (g.emit adapter).outcome = .ok b) {l : Loader} (hl : l ∈ b.loaders) :
    ∃ path ∈ g.keys, l.BindsIn adapter (tableOf path) := by
  unfold Group.emit at h
  obtain ⟨classes, hc, h⟩ := Run.outcome_bind_eq_ok.mp h
  obtain ⟨enums, he, h⟩ := Run.outcome_bind_eq_ok.mp h
  obtain ⟨functions, hf, h⟩ := Run.outcome_bind_eq_ok.mp h
  obtain ⟨globals, hg, h⟩ := Run.outcome_bind_eq_ok.mp h
  cases h
  have hmem : l ∈ classes.loaders ++ enums.loaders ++ functions.loaders ++ globals.loaders := hl
  let P (path : String) (l : Loader) := l.BindsIn adapter (tableOf path)
  simp only [keys, List.mem_append] at hmem ⊢
  rcases hmem with ((hl | hl) | hl) | hl
  · obtain ⟨path, hp, hb⟩ := emitEach_loaders (Class.emit adapter) P Class.emit_bindsIn hc hl
    exact ⟨path, .inl (.inl (.inl hp)), hb⟩
  · obtain ⟨path, hp, hb⟩ :=
      emitEach_loaders (Enumeration.emit adapter) P Enumeration.emit_bindsIn he hl
    exact ⟨path, .inl (.inl (.inr hp)), hb⟩
  · obtain ⟨path, hp, hb⟩ := emitEach_loaders (Callable.emit adapter) P Callable.emit_bindsIn hf hl
    exact ⟨path, .inl (.inr hp), hb⟩
  · obtain ⟨path, hp, hb⟩ := emitEach_loaders (Global.emit adapter) P Global.emit_bindsIn hg hl
    exact ⟨path, .inr hp, hb⟩

end Group

end ScriptBindings
