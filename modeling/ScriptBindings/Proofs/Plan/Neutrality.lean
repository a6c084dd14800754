import ScriptBindings.Adapter.Sol3
import ScriptBindings.Plan
import ScriptBindings.Proofs.Emission.Objects
import ScriptBindings.Proofs.Plan.Units

namespace ScriptBindings

/-- Both computations fail with one error, or both succeed with related results. -/
inductive Alike {α β : Type} (R : α → β → Prop) : Except BindError α → Except BindError β → Prop
  | failed (e : BindError) : Alike R (.error e) (.error e)
  | succeeded {a : α} {b : β} (h : R a b) : Alike R (.ok a) (.ok b)

namespace Alike

variable {α β γ δ : Type} {R : α → β → Prop} {S : γ → δ → Prop}

theorem refl {Q : α → α → Prop} (hQ : ∀ a, Q a a) (x : Except BindError α) : Alike Q x x := by
  cases x with
  | ok a => exact succeeded (hQ a)
  | error e => exact failed e

theorem run_bind {x : Run α} {y : Run β} {f : α → Run γ} {g : β → Run δ}
    (h : Alike R x.outcome y.outcome)
    (hfg : ∀ a b, R a b → Alike S (f a).outcome (g b).outcome) :
    Alike S (x >>= f).outcome (y >>= g).outcome := by
  rw [Run.outcome_bind, Run.outcome_bind]
  generalize x.outcome = u at h
  generalize y.outcome = v at h
  cases h with
  | failed e => exact failed e
  | succeeded hab => exact hfg _ _ hab

/-- Of two collections over one list, the first difference would be between the results for one of
its members. -/
theorem collect {ι : Type} {f : ι → Run α} {g : ι → Run β} {is : List ι}
    (h : ∀ i ∈ is, Alike R (f i).outcome (g i).outcome) :
    Alike (List.Forall₂ R) (Run.collect f is).outcome (Run.collect g is).outcome := by
  induction is with
  | nil => exact succeeded .nil
  | cons i is ih =>
    obtain ⟨hi, his⟩ := List.forall_mem_cons.mp h
    refine run_bind hi fun a b hab => ?_
    exact run_bind (ih his) fun as bs habs => succeeded (.cons hab habs)

end Alike

/-- An identifier under which a class binds an operator. -/
def Operator.IsIdentifier (identifier : String) : Prop :=
  ∃ token unary, memberIdentifier token unary = .ok identifier

/-- The adapters have meta-functions for the same operators, and of those that have none the
runtimes derive the same ones. -/
def Adapter.SupportsLike (a b : Adapter) : Prop :=
  ∀ identifier, Operator.IsIdentifier identifier →
    (a.metaFunction identifier).isSome = (b.metaFunction identifier).isSome ∧
      (a.metaFunction identifier = none → a.derives identifier = b.derives identifier)

/-- The sets bind the same objects in the same order. -/
def BindingSet.SameObjects (b c : BindingSet) : Prop := b.objects = c.objects

variable {a b : Adapter} (path : String)

theorem BindingSet.sameObjects_single (locations : List String) (object : String)
    (statements statements' : List String) :
    SameObjects (.single locations (.of a object statements))
      (.single locations (.of b object statements')) := by
  have hobjects (adapter : Adapter) (statements : List String) :
      (single locations (.of adapter object statements)).objects = [object] := rfl
  rw [SameObjects, hobjects, hobjects]

theorem Global.emit_alike (g : Global) :
    Alike BindingSet.SameObjects (g.emit a path).outcome (g.emit b path).outcome := by
  rw [outcome_emit, outcome_emit]
  refine .succeeded ?_
  split
  · rfl
  · exact BindingSet.sameObjects_single _ _ _ _

theorem Enumeration.emit_alike (e : Enumeration) :
    Alike BindingSet.SameObjects (e.emit a path).outcome (e.emit b path).outcome := by
  rw [outcome_emit, outcome_emit]
  refine .succeeded ?_
  split
  · rfl
  · exact BindingSet.sameObjects_single _ _ _ _

theorem Callable.emit_alike (f : Callable) :
    Alike BindingSet.SameObjects (f.emit a path).outcome (f.emit b path).outcome := by
  unfold emit
  split
  · rw [Run.outcome_report_bind, Run.outcome_report_bind]
    refine .run_bind (.refl (fun object => rfl) _) ?_
    rintro object _ rfl
    exact .succeeded (BindingSet.sameObjects_single _ _ _ _)
  · exact .succeeded rfl

namespace Class

/-- Whether a signature of an operator can be bound does not depend on its key. -/
theorem metaKey_alike (h : a.SupportsLike b) (methodPath token : String) (s : Signature) :
    Alike (fun _ _ => True) (metaKey a methodPath token s).outcome
      (metaKey b methodPath token s).outcome := by
  unfold metaKey
  simp only [Run.outcome_bind, Run.outcome_ofExcept]
  cases hidentifier : Operator.memberIdentifier token (isUnary s) with
  | error e => exact .failed _
  | ok identifier =>
    obtain ⟨hmeta, hderives⟩ := h identifier ⟨token, isUnary s, hidentifier⟩
    simp only [Except.mapError, Except.bind]
    cases ha : a.metaFunction identifier with
    | some key =>
      rw [ha] at hmeta
      obtain ⟨other, hb⟩ := Option.isSome_iff_exists.mp hmeta.symm
      rw [hb]
      exact .succeeded trivial
    | none =>
      rw [ha] at hmeta
      have hb : b.metaFunction identifier = none :=
        Option.isNone_iff_eq_none.mp (Option.isSome_eq_false_iff.mp hmeta.symm)
      rw [hb, hderives ha]
      exact .refl (fun _ => trivial) _

theorem methodStatements_alike (h : a.SupportsLike b) (className usertype usertype' key : String)
    (f : Callable) :
    Alike (fun _ _ => True) (methodStatements a className usertype key f).outcome
      (methodStatements b className usertype' key f).outcome := by
  unfold methodStatements
  split
  · split
    · exact .run_bind (.collect fun s _ => metaKey_alike h _ _ s) fun _ _ _ => .succeeded trivial
    · exact .succeeded trivial
  · exact .succeeded trivial

theorem attributeStatements_alike (className usertype usertype' key : String) (x : Attribute) :
    Alike (fun _ _ => True) (attributeStatements a className usertype key x).outcome
      (attributeStatements b className usertype' key x).outcome := by
  unfold attributeStatements
  split
  · exact .succeeded trivial
  · exact .succeeded trivial

theorem statements_alike (h : a.SupportsLike b) (c : Class) :
    Alike (fun _ _ => True) (c.statements a path).outcome (c.statements b path).outcome := by
  refine .run_bind (.collect fun m _ => methodStatements_alike h _ _ _ _ _) fun _ _ _ => ?_
  exact .run_bind (.collect fun x _ => attributeStatements_alike _ _ _ _ _) fun _ _ _ =>
    .succeeded trivial

theorem emit_alike (h : a.SupportsLike b) (c : Class) :
    Alike BindingSet.SameObjects (c.emit a path).outcome (c.emit b path).outcome := by
  unfold emit
  split
  · exact .succeeded rfl
  · rw [Run.outcome_report_bind, Run.outcome_report_bind]
    exact .run_bind (statements_alike path h c) fun _ _ _ =>
      .succeeded (BindingSet.sameObjects_single _ _ _ _)

end Class

theorem emitEach_alike {α : Type} {f g : String → α → Run BindingSet} (c : Catalog α)
    (h : ∀ path x, Alike BindingSet.SameObjects (f path x).outcome (g path x).outcome) :
    Alike BindingSet.SameObjects (emitEach f c).outcome (emitEach g c).outcome := by
  refine .run_bind (.collect fun e _ => h e.1 e.2) fun bs cs hall => .succeeded ?_
  change (BindingSet.concat bs).objects = (BindingSet.concat cs).objects
  rw [objects_concat, objects_concat]
  induction hall with
  | nil => rfl
  | cons hfirst _ ih => rw [List.flatMap_cons, List.flatMap_cons, hfirst, ih]

namespace BindingUnit

/-- The units agree in everything but their texts. -/
structure Parallel (u v : BindingUnit) : Prop where
  scope : u.scope = v.scope
  segments : u.segments = v.segments
  objects : u.objects = v.objects

end BindingUnit

namespace Group

theorem emit_alike (h : a.SupportsLike b) (g : Group) :
    Alike BindingSet.SameObjects (g.emit a).outcome (g.emit b).outcome := by
  refine .run_bind (emitEach_alike _ fun path => Class.emit_alike path h) fun _ _ hclasses => ?_
  refine .run_bind (emitEach_alike _ Enumeration.emit_alike) fun _ _ henums => ?_
  refine .run_bind (emitEach_alike _ Callable.emit_alike) fun _ _ hfunctions => ?_
  refine .run_bind (emitEach_alike _ Global.emit_alike) fun _ _ hglobals => .succeeded ?_
  unfold BindingSet.SameObjects at *
  simp only [objects_append, hclasses, henums, hfunctions, hglobals]

theorem assemble_alike (g : Group) {s t : BindingSet} (h : s.SameObjects t) :
    Alike (Option.Rel BindingUnit.Parallel) (g.assemble a s).outcome (g.assemble b t).outcome := by
  have hempty : s.isEmpty = t.isEmpty := by
    have hlength := congrArg List.isEmpty h
    simpa [BindingSet.objects, BindingSet.isEmpty] using hlength
  unfold assemble
  rw [hempty, h]
  split
  · exact .succeeded .none
  · split
    · exact .failed _
    · exact .succeeded (.some ⟨rfl, rfl, h⟩)

theorem unit_alike (h : a.SupportsLike b) (g : Group) :
    Alike (Option.Rel BindingUnit.Parallel) (g.unit a).outcome (g.unit b).outcome := by
  unfold unit
  split
  · split
    · exact .failed _
    · exact .succeeded .none
  · rw [Run.outcome_report_bind, Run.outcome_report_bind]
    refine .run_bind (emit_alike h g) fun _ _ hobjects => ?_
    exact .run_bind (.refl (fun _ => rfl) _) fun _ _ _ => assemble_alike g hobjects

end Group

namespace Database

theorem plan_alike (h : a.SupportsLike b) (db : Database) :
    Alike (List.Forall₂ BindingUnit.Parallel) (db.plan a).outcome (db.plan b).outcome := by
  refine .run_bind (.refl (fun _ => rfl) _) fun _ _ _ => ?_
  refine .run_bind (.collect fun g _ => Group.unit_alike h g) fun found found' hall => ?_
  exact .succeeded (List.rel_filterMap (fun _ _ hunit => hunit) hall)

/-- Two adapters that support the same operators refuse a database for the same reason, or they plan
units of the same namespaces with the same objects, in files with the same paths. -/
theorem plan_neutral (h : a.SupportsLike b) (db : Database) :
    (∃ e, (db.plan a).outcome = .error e ∧ (db.plan b).outcome = .error e) ∨
      ∃ units units', (db.plan a).outcome = .ok units ∧ (db.plan b).outcome = .ok units' ∧
        List.Forall₂ (fun u v : BindingUnit => u.scope = v.scope ∧ u.segments = v.segments ∧
          u.objects = v.objects ∧ u.headerPath = v.headerPath ∧ u.sourcePath = v.sourcePath ∧
          u.headerInclude = v.headerInclude) units units' := by
  have halike := plan_alike h db
  generalize (db.plan a).outcome = x at halike
  generalize (db.plan b).outcome = y at halike
  cases halike with
  | failed e => exact .inl ⟨e, rfl, rfl⟩
  | @succeeded units units' hall =>
    refine .inr ⟨units, units', rfl, rfl, hall.imp fun u v huv => ?_⟩
    obtain ⟨hscope, hsegments, hobjects⟩ := huv
    simp only [BindingUnit.headerPath, BindingUnit.sourcePath, BindingUnit.headerInclude, hscope,
      hsegments, hobjects, and_self]

/-- An adapter with a state of another type, which binds all operators under one key. -/
def singleKeyAdapter : Adapter :=
  { Adapter.sol3 with
    stateType := "script::Vm"
    metaFunction := fun identifier =>
      (Adapter.sol3.metaFunction identifier).map fun _ => "script::operators" }

theorem sol3_supportsLike_singleKeyAdapter : Adapter.sol3.SupportsLike singleKeyAdapter := by
  intro identifier _
  exact ⟨Option.isSome_map.symm, fun _ => rfl⟩

/-- A class that binds a sum and a difference, and leaves inequality to the runtime. -/
def operatorSample : Database where
  classes := .ofEntries [
    ("ns::Vec", {
      name := "Vec"
      location := "include/vec.hpp"
      methods := .ofEntries [
        ("plus", .single {
          name := "operator+", returnType := "ns::Vec",
          parameters := [⟨"other", "ns::Vec", none⟩] }),
        ("minus", .single {
          name := "operator-", returnType := "ns::Vec",
          parameters := [⟨"other", "ns::Vec", none⟩] }),
        ("differs", .single {
          name := "operator!=", returnType := "bool",
          parameters := [⟨"other", "ns::Vec", none⟩] })] })]

/-- A class with an operator that neither runtime knows. -/
def incrementSample : Database where
  classes := .ofEntries [
    ("ns::Counter", {
      name := "Counter"
      location := "include/counter.hpp"
      methods := .ofEntries [
        ("next", .single { name := "operator++", returnType := "ns::Counter" })] })]

theorem operatorSample_neutral :
    Adapter.sol3.SupportsLike singleKeyAdapter ∧
      (∃ units units', (operatorSample.plan .sol3).outcome = .ok units ∧
        (operatorSample.plan singleKeyAdapter).outcome = .ok units' ∧
        List.Forall₂ (fun u v : BindingUnit => u.headerPath = v.headerPath ∧ u.objects = v.objects)
          units units' ∧
        units.map BindingUnit.objects = [["ClassVec"]] ∧
        units.map BindingUnit.source ≠ units'.map BindingUnit.source) ∧
      ∃ e, (incrementSample.plan .sol3).outcome = .error e ∧
        (incrementSample.plan singleKeyAdapter).outcome = .error e := by
  have hlike := sol3_supportsLike_singleKeyAdapter
  have hplan : (operatorSample.plan .sol3).outcome.isOk = true := by decide +kernel
  have hrefused : (incrementSample.plan .sol3).outcome.isOk = false := by decide +kernel
  refine ⟨hlike, ?_, ?_⟩
  · obtain ⟨e, he, _⟩ | ⟨units, units', h, h', hall⟩ := plan_neutral hlike operatorSample
    · rw [he] at hplan
      cases hplan
    · obtain rfl := eq_getD_of_plan h
      obtain rfl := eq_getD_of_plan h'
      refine ⟨_, _, h, h', hall.imp fun u v huv => ⟨huv.2.2.2.1, huv.2.2.1⟩, ?_, ?_⟩
      · decide +kernel
      · decide +kernel
  · obtain herror | ⟨units, _, h, _⟩ := plan_neutral hlike incrementSample
    · exact herror
    · rw [h] at hrefused
      cases hrefused

end Database

end ScriptBindings
