import Mathlib.Tactic.Simps.Basic
import ScriptBindings.Adapter.Sol3
import ScriptBindings.Plan
import ScriptBindings.Proofs.Database.Validation
import ScriptBindings.Proofs.Emission

namespace ScriptBindings

/-- The adapter that answers `alarm` where it is to bind something under an empty name. -/
@[simps]
def Adapter.guarded (adapter : Adapter) (alarm : String) : Adapter :=
  { adapter with
    bindFunction := fun table name callable =>
      if name = "" then alarm else adapter.bindFunction table name callable
    bindGlobal := fun table name path readOnly =>
      if name = "" then alarm else adapter.bindGlobal table name path readOnly
    bindEnum := fun table name path values =>
      if name = "" then alarm else adapter.bindEnum table name path values
    newUsertype := fun table usertype name path constructors bases =>
      if name = "" then alarm else adapter.newUsertype table usertype name path constructors bases
    bindMember := fun usertype name value =>
      if name = "" then alarm else adapter.bindMember usertype name value }

variable (adapter : Adapter) (alarm : String) (path key : String)

-- What does not bind under a name is not changed by the guard.

@[simp] theorem Adapter.merge_guarded (cs : List Candidate) :
    (adapter.guarded alarm).merge cs = adapter.merge cs := by
  simp only [merge, guarded_overload]

@[simp] theorem Loader.of_guarded (object : String) (statements : List String) :
    of (adapter.guarded alarm) object statements = of adapter object statements := by
  simp only [of, definition, signature, Adapter.guarded_stateType]

@[simp] theorem BindingUnit.ofSet_guarded (scope : String) (info : NamespaceInfo) (b : BindingSet) :
    ofSet (adapter.guarded alarm) scope info b = ofSet adapter scope info b := by
  unfold ofSet headerText sourceText Loader.signature
  simp only [Adapter.guarded_stateType, Adapter.guarded_stateDeclaration,
    Adapter.guarded_runtimeHeader]

theorem Global.emit_guarded {g : Global} (h : g.flags.nobind = false → g.name ≠ "") :
    g.emit (adapter.guarded alarm) path = g.emit adapter path := by
  unfold emit
  split
  · rfl
  · rename_i hg
    have hname : g.name ≠ "" := h (Bool.eq_false_iff.mpr hg)
    simp only [Loader.of_guarded, statements, Adapter.guarded_fetchTable,
      Adapter.guarded_tableVariable, Adapter.guarded_bindGlobal, if_neg hname]

theorem Enumeration.emit_guarded {e : Enumeration} (h : e.flags.nobind = false → e.name ≠ "") :
    e.emit (adapter.guarded alarm) path = e.emit adapter path := by
  unfold emit
  split
  · rfl
  · rename_i he
    have hname : e.name ≠ "" := h (Bool.eq_false_iff.mpr he)
    simp only [Loader.of_guarded, statements, Adapter.guarded_fetchTable,
      Adapter.guarded_tableVariable, Adapter.guarded_bindEnum, if_neg hname]

theorem Callable.emit_guarded {f : Callable} (h : f.flags.nobind = false → f.name ≠ "") :
    f.emit (adapter.guarded alarm) path = f.emit adapter path := by
  unfold emit
  split
  · rename_i hf
    have hname : f.name ≠ "" := h (visible_of_isBindable hf)
    simp only [Loader.of_guarded, statements, expression, Adapter.merge_guarded,
      Adapter.guarded_fetchTable, Adapter.guarded_tableVariable, Adapter.guarded_bindFunction,
      if_neg hname]
  · rfl

namespace Class

theorem methodExpression_guarded (f : Callable) (signatures : List Signature) :
    methodExpression (adapter.guarded alarm) path f signatures =
      methodExpression adapter path f signatures := by
  simp only [methodExpression, Adapter.merge_guarded]

theorem metaKey_guarded (token : String) :
    metaKey (adapter.guarded alarm) path token = metaKey adapter path token := by
  funext s
  simp only [metaKey, Adapter.guarded_metaFunction, Adapter.guarded_derives]

theorem methodStatements_guarded (usertype : String) {f : Callable}
    (h : f.flags.nobind = false → f.name ≠ "") :
    methodStatements (adapter.guarded alarm) path usertype key f =
      methodStatements adapter path usertype key f := by
  unfold methodStatements
  split
  · rename_i hf
    have hname : f.name ≠ "" := h (Callable.visible_of_isBindable hf)
    simp only [operatorStatements, metaKey_guarded, methodExpression_guarded,
      Adapter.guarded_bindMetaFunction, Adapter.guarded_bindMember, if_neg hname]
  · rfl

theorem attributeStatements_guarded (usertype : String) {a : Attribute}
    (h : a.flags.nobind = false → a.name ≠ "") :
    attributeStatements (adapter.guarded alarm) path usertype key a =
      attributeStatements adapter path usertype key a := by
  unfold attributeStatements
  split
  · rfl
  · rename_i ha
    have hname : a.name ≠ "" := h (Bool.eq_false_iff.mpr ha)
    simp only [Adapter.guarded_bindMember, if_neg hname]

/-- The class and its members have names, as far as they are not hidden. -/
structure Named (c : Class) : Prop where
  name_ne : c.name ≠ ""
  method_ne : ∀ m ∈ c.methods.entries, m.2.flags.nobind = false → m.2.name ≠ ""
  attribute_ne : ∀ a ∈ c.attributes.entries, a.2.flags.nobind = false → a.2.name ≠ ""

theorem Named.statements_guarded {c : Class} (h : c.Named) :
    c.statements (adapter.guarded alarm) path = c.statements adapter path := by
  have husertype : c.usertype (adapter.guarded alarm) = c.usertype adapter := by
    rw [usertype, usertype, Adapter.guarded_usertypeVariable]
  have hdeclaration : c.declaration (adapter.guarded alarm) path = c.declaration adapter path := by
    simp only [declaration, husertype, Adapter.guarded_fetchTable, Adapter.guarded_tableVariable,
      Adapter.guarded_newUsertype, if_neg h.name_ne]
  unfold statements
  rw [hdeclaration, husertype,
    Run.collect_congr fun m hm =>
      methodStatements_guarded adapter alarm path m.1 (c.usertype adapter) (h.method_ne m hm),
    Run.collect_congr fun a ha =>
      attributeStatements_guarded adapter alarm path a.1 (c.usertype adapter) (h.attribute_ne a ha)]

theorem emit_guarded {c : Class} (h : c.flags.nobind = false → c.Named) :
    c.emit (adapter.guarded alarm) path = c.emit adapter path := by
  unfold emit
  split
  · rfl
  · rename_i hc
    have hnamed : c.Named := h (Bool.eq_false_iff.mpr hc)
    simp only [hnamed.statements_guarded, Loader.of_guarded]

end Class

theorem emitEach_congr {α : Type} {f g : String → α → Run BindingSet} {c : Catalog α}
    (h : ∀ e ∈ c.entries, f e.1 e.2 = g e.1 e.2) : emitEach f c = emitEach g c := by
  rw [emitEach, emitEach, Run.collect_congr h]

namespace Group

/-- The entities of the group have names, as far as they are not hidden. -/
structure Named (g : Group) : Prop where
  class_named : ∀ c ∈ g.classes.entries, c.2.flags.nobind = false → c.2.Named
  enum_ne : ∀ e ∈ g.enums.entries, e.2.flags.nobind = false → e.2.name ≠ ""
  function_ne : ∀ f ∈ g.functions.entries, f.2.flags.nobind = false → f.2.name ≠ ""
  global_ne : ∀ v ∈ g.globals.entries, v.2.flags.nobind = false → v.2.name ≠ ""

variable {g : Group}

theorem Named.emit_guarded (h : g.Named) :
    g.emit (adapter.guarded alarm) = g.emit adapter := by
  have hclasses : Class.emitAll (adapter.guarded alarm) g.classes =
      Class.emitAll adapter g.classes :=
    emitEach_congr fun c hc => Class.emit_guarded adapter alarm c.1 (h.class_named c hc)
  have henums : Enumeration.emitAll (adapter.guarded alarm) g.enums =
      Enumeration.emitAll adapter g.enums :=
    emitEach_congr fun e he => Enumeration.emit_guarded adapter alarm e.1 (h.enum_ne e he)
  have hfunctions : Callable.emitAll (adapter.guarded alarm) g.functions =
      Callable.emitAll adapter g.functions :=
    emitEach_congr fun f hf => Callable.emit_guarded adapter alarm f.1 (h.function_ne f hf)
  have hglobals : Global.emitAll (adapter.guarded alarm) g.globals =
      Global.emitAll adapter g.globals :=
    emitEach_congr fun v hv => Global.emit_guarded adapter alarm v.1 (h.global_ne v hv)
  unfold emit
  rw [hclasses, henums, hfunctions, hglobals]

theorem Named.unit_guarded (h : g.Named) :
    g.unit (adapter.guarded alarm) = g.unit adapter := by
  have hassemble : g.assemble (adapter.guarded alarm) = g.assemble adapter := by
    funext b
    simp only [assemble, BindingUnit.ofSet_guarded]
  unfold unit
  rw [h.emit_guarded, hassemble]

end Group

namespace Database

variable {db : Database}

/-- The attributes of classes have names, as far as neither is hidden. -/
def NamesAttributes (db : Database) : Prop :=
  ∀ c ∈ db.classes.entries, c.2.flags.nobind = false →
    ∀ a ∈ c.2.attributes.entries, a.2.flags.nobind = false → a.2.name ≠ ""

instance : Decidable db.NamesAttributes := by
  unfold NamesAttributes
  infer_instance

/-- Validation has checked every name but those of attributes. -/
theorem named_group (h : db.validate = .ok ()) (hattributes : db.NamesAttributes)
    (scope : String) : (db.group scope).Named := by
  obtain ⟨hfunctions, hglobals, henums, hclasses⟩ := validate_eq_ok.mp h
  have hwithin {α : Type} {c : Catalog α} {e : String × α} (he : e ∈ (within scope c).entries) :
      e ∈ c.entries := (List.mem_filter.mp he).1
  constructor
  · intro c hc hvisible
    obtain ⟨hname, _, _, hmethods, _⟩ :=
      Class.validate_eq_ok.mp (hclasses c (hwithin hc)) hvisible
    refine ⟨hname, fun m hm hvisible => ?_, hattributes c (hwithin hc) hvisible⟩
    have hmethod := Callable.validateMember_eq_ok.mp (hmethods m hm) hvisible
    exact (Callable.validate_eq_ok.mp hmethod).1
  · intro e he hvisible
    exact (Enumeration.validate_eq_ok.mp (henums e (hwithin he)) hvisible).1
  · intro f hf hvisible
    have hfunction := (Callable.validateFree_eq_ok.mp (hfunctions f (hwithin hf)) hvisible).1
    exact (Callable.validate_eq_ok.mp hfunction).1
  · intro v hv hvisible
    exact (Global.validate_eq_ok.mp (hglobals v (hwithin hv)) hvisible).1

/-- In a database whose attributes have names, nothing that a plan binds has an empty name: a guard
against such names changes nothing. -/
theorem plan_guarded (hattributes : db.NamesAttributes) :
    db.plan (adapter.guarded alarm) = db.plan adapter := by
  unfold plan
  refine Run.ofExcept_bind_congr fun _ hvalid => ?_
  have hunits : Run.collect (Group.unit (adapter.guarded alarm)) db.groups =
      Run.collect (Group.unit adapter) db.groups := by
    -- Groups are of entities that passed the checks, so the guard may rely on their names.
    apply Run.collect_congr
    intro g hg
    obtain ⟨scope, _, rfl⟩ := List.mem_map.mp hg
    exact (named_group hvalid hattributes scope).unit_guarded adapter alarm
  rw [hunits]

/-- One entity of each kind, and a class whose only attribute without a name is hidden. -/
def memberSample : Database where
  classes := .ofEntries [
    ("ns::Foo", {
      name := "Foo"
      location := "include/foo.hpp"
      methods := .ofEntries [
        ("scale", .single { name := "scale", returnType := "void" }),
        ("operator-", .single { name := "operator-", returnType := "ns::Foo" })]
      attributes := .ofEntries [
        ("x", { name := "x", type := "int" }), ("y", { type := "int", flags := ⟨true⟩ })] })]
  enums := .ofEntries [("ns::Color", { name := "Color", location := "include/foo.hpp" })]
  functions := .ofEntries [
    ("ns::load", .single { name := "load", returnType := "int", location := "include/foo.hpp" })]
  globals := .ofEntries [
    ("ns::limit", { name := "limit", type := "int", location := "include/foo.hpp" })]

theorem memberSample_guarded :
    memberSample.NamesAttributes ∧
      memberSample.plan (Adapter.sol3.guarded "alarm") = memberSample.plan .sol3 ∧
      (memberSample.plan .sol3).outcome.map (List.map BindingUnit.objects) =
        .ok [["ClassFoo", "EnumColor", "FunctionLoad", "GlobalLimit"]] := by
  have hattributes : memberSample.NamesAttributes := by decide
  exact ⟨hattributes, plan_guarded .sol3 "alarm" hattributes, by decide +kernel⟩

/-- A class whose attribute has a type and no name. -/
def namelessSample : Database where
  classes := .ofEntries [
    ("ns::Foo", {
      name := "Foo"
      location := "include/foo.hpp"
      attributes := .ofEntries [("x", { type := "int" })] })]

/-- Validation takes an attribute without a name, and the plan binds it under the empty name. -/
theorem namelessSample_bound :
    namelessSample.validate = .ok () ∧
      (Class.attributeStatements .sol3 "ns::Foo" "bindFoo" "x" { type := "int" }).outcome =
        .ok ["bindFoo[\"\"] = &ns::Foo::;"] ∧
      (namelessSample.plan (Adapter.sol3.guarded "alarm")).outcome ≠
        (namelessSample.plan .sol3).outcome := by
  refine ⟨by decide +kernel, by decide +kernel, ?_⟩
  decide +kernel

end Database

end ScriptBindings
