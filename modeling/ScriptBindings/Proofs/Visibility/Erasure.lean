import ScriptBindings.Proofs.Emission

namespace ScriptBindings

namespace Callable

/-- The callable without its hidden overloads. -/
def erase : Callable → Callable
  | .single s => .single s
  | .overloaded set =>
    .overloaded { set with overloads := set.overloads.filter fun s => !s.flags.nobind }

variable (adapter : Adapter) (path : String) (f : Callable)

@[simp] theorem name_erase : f.erase.name = f.name := by
  cases f with
  | single s => rfl
  | overloaded set => rfl

@[simp] theorem flags_erase : f.erase.flags = f.flags := by
  cases f with
  | single s => rfl
  | overloaded set => rfl

@[simp] theorem isPlain_erase : f.erase.isPlain = f.isPlain := by
  cases f with
  | single s => rfl
  | overloaded set => rfl

@[simp] theorem boundSignatures_erase : f.erase.boundSignatures = f.boundSignatures := by
  cases f with
  | single s => rfl
  | overloaded set =>
    simp only [erase, boundSignatures, signatures, List.filter_filter, Bool.and_self]

@[simp] theorem isBindable_erase : f.erase.isBindable = f.isBindable := by
  simp only [isBindable, flags_erase, boundSignatures_erase]

theorem emit_erase : f.erase.emit adapter path = f.emit adapter path := by
  simp only [emit, object, firstSignature, statements, expression, candidates, isBindable_erase,
    name_erase, isPlain_erase, boundSignatures_erase]

end Callable

namespace Class

def erase (c : Class) : Class :=
  { c with
    constructors := c.constructors.filter fun s => !s.flags.nobind
    methods := c.methods.prune (fun f => !f.flags.nobind) Callable.erase
    attributes := c.attributes.prune (fun a => !a.flags.nobind) id }

variable (adapter : Adapter) (path usertype key : String)

theorem constructorList_erase (c : Class) :
    c.erase.constructorList path = c.constructorList path := by
  simp only [constructorList, erase, List.filter_filter, Bool.and_self]

theorem methodExpression_erase (f : Callable) :
    methodExpression adapter path f.erase = methodExpression adapter path f := by
  funext signatures
  cases f with
  | single s => rfl
  | overloaded set => rfl

theorem methodStatements_erase (f : Callable) :
    methodStatements adapter path usertype key f.erase =
      methodStatements adapter path usertype key f := by
  simp only [methodStatements, operatorStatements, methodExpression_erase,
    Callable.isBindable_erase, Callable.name_erase, Callable.boundSignatures_erase]

theorem outcome_methodStatements_hidden {f : Callable} (h : f.flags.nobind = true) :
    (methodStatements adapter path usertype key f).outcome = .ok [] := by
  rw [methodStatements, Callable.isBindable_eq_false h]
  rfl

theorem outcome_attributeStatements_hidden {a : Attribute} (h : a.flags.nobind = true) :
    (attributeStatements adapter path usertype key a).outcome = .ok [] := by
  rw [attributeStatements, if_pos h]
  rfl

theorem outcome_statements (c : Class) :
    (c.statements adapter path).outcome =
      ((Run.collect (fun e => methodStatements adapter path (c.usertype adapter) e.1 e.2)
        c.methods.entries).outcome.map (List.foldr List.append [])).bind fun methods =>
          ((Run.collect (fun e => attributeStatements adapter path (c.usertype adapter) e.1 e.2)
            c.attributes.entries).outcome.map (List.foldr List.append [])).map fun attributes =>
              c.declaration adapter path ++ methods ++ attributes := by
  have hflatten (ss : List (List String)) : ss.foldr List.append [] = ss.flatten := by
    induction ss with
    | nil => rfl
    | cons s ss ih =>
      rw [List.foldr_cons, ih]
      rfl
  rw [statements, Run.outcome_bind, funext hflatten]
  cases (Run.collect _ c.methods.entries).outcome with
  | error e => rfl
  | ok methods =>
    change (Run.collect _ c.attributes.entries >>= fun attributes => Run.ok _).outcome = _
    rw [Run.outcome_bind_ok]
    cases (Run.collect _ c.attributes.entries).outcome with
    | error e => rfl
    | ok attributes => rfl

theorem outcome_statements_erase (c : Class) :
    (c.erase.statements adapter path).outcome = (c.statements adapter path).outcome := by
  rw [outcome_statements, outcome_statements]
  have hdeclaration : c.erase.declaration adapter path = c.declaration adapter path := by
    rw [declaration, constructorList_erase]
    rfl
  have hmethods := Run.outcome_collect_filter_map (z := ([] : List String))
    (p := fun e => !e.2.flags.nobind) (g := fun e => (e.1, e.2.erase)) List.nil_append
    (fun e h => outcome_methodStatements_hidden adapter path (c.usertype adapter) e.1
      (Bool.not_eq_eq_eq_not.mp h))
    (fun e _ => congrArg Run.outcome
      (methodStatements_erase adapter path (c.usertype adapter) e.1 e.2)) c.methods.entries
  have hattributes := Run.outcome_collect_filter_map (z := ([] : List String))
    (p := fun e => !e.2.flags.nobind) (g := fun e => (e.1, id e.2)) List.nil_append
    (fun e h => outcome_attributeStatements_hidden adapter path (c.usertype adapter) e.1
      (Bool.not_eq_eq_eq_not.mp h))
    (fun e _ => rfl) c.attributes.entries
  rw [hdeclaration]
  -- The user type has the name of the class, which erasure keeps.
  exact congr (congrArg Except.bind hmethods)
    (funext fun methods => congrArg (Except.map _) hattributes)

theorem outcome_emit_erase (c : Class) :
    (c.erase.emit adapter path).outcome = (c.emit adapter path).outcome := by
  change (if c.flags.nobind then _ else _ : Run BindingSet).outcome = _
  rw [emit]
  split
  · rfl
  · rw [Run.outcome_report_bind, Run.outcome_report_bind, Run.outcome_bind_ok, Run.outcome_bind_ok,
      outcome_statements_erase]
    rfl

end Class

namespace Group

/-- The group without its hidden entities, and without the hidden parts of the others. -/
def erase (g : Group) : Group :=
  { g with
    classes := g.classes.prune (fun c => !c.flags.nobind) Class.erase
    enums := g.enums.prune (fun e => !e.flags.nobind) id
    functions := g.functions.prune (fun f => !f.flags.nobind) Callable.erase
    globals := g.globals.prune (fun v => !v.flags.nobind) id }

theorem firstBindable_erase (g : Group) : g.erase.firstBindable = g.firstBindable := by
  have hclasses : (g.classes.prune _ Class.erase).find? (fun c => !c.flags.nobind) = _ :=
    Dictionary.find?_prune Class.erase (fun c h => h) (fun c => rfl) g.classes
  have henums : (g.enums.prune _ id).find? (fun e => !e.flags.nobind) = _ :=
    Dictionary.find?_prune id (fun e h => h) (fun e => rfl) g.enums
  have hfunctions : (g.functions.prune (fun f => !f.flags.nobind) Callable.erase).find?
      Callable.isBindable = _ :=
    Dictionary.find?_prune Callable.erase
      (fun f h => Bool.not_eq_eq_eq_not.mpr (Callable.visible_of_isBindable h))
      Callable.isBindable_erase g.functions
  have hglobals : (g.globals.prune _ id).find? (fun v => !v.flags.nobind) = _ :=
    Dictionary.find?_prune id (fun v h => h) (fun v => rfl) g.globals
  rw [firstBindable, erase, hclasses, henums, hfunctions, hglobals]
  rfl

theorem outcome_emit_erase (adapter : Adapter) (g : Group) :
    (g.erase.emit adapter).outcome = (g.emit adapter).outcome := by
  have hclasses : (Class.emitAll adapter g.erase.classes).outcome =
      (Class.emitAll adapter g.classes).outcome :=
    outcome_emitEach_prune (Class.emit adapter) Class.erase
      (fun path c h => Class.outcome_emit_hidden adapter path (Bool.not_eq_eq_eq_not.mp h))
      (fun path c _ => Class.outcome_emit_erase adapter path c) g.classes
  have henums : (Enumeration.emitAll adapter g.erase.enums).outcome =
      (Enumeration.emitAll adapter g.enums).outcome :=
    outcome_emitEach_prune (Enumeration.emit adapter) id
      (fun path e h => Enumeration.outcome_emit_hidden adapter path (Bool.not_eq_eq_eq_not.mp h))
      (fun path e _ => rfl) g.enums
  have hfunctions : (Callable.emitAll adapter g.erase.functions).outcome =
      (Callable.emitAll adapter g.functions).outcome :=
    outcome_emitEach_prune (Callable.emit adapter) Callable.erase
      (fun path f h => Callable.outcome_emit_hidden adapter path (Bool.not_eq_eq_eq_not.mp h))
      (fun path f _ => congrArg Run.outcome (Callable.emit_erase adapter path f)) g.functions
  have hglobals : (Global.emitAll adapter g.erase.globals).outcome =
      (Global.emitAll adapter g.globals).outcome :=
    outcome_emitEach_prune (Global.emit adapter) id
      (fun path v h => Global.outcome_emit_hidden adapter path (Bool.not_eq_eq_eq_not.mp h))
      (fun path v _ => rfl) g.globals
  simp only [emit, Run.outcome_bind, hclasses, henums, hfunctions, hglobals]

/-- Hidden declarations leave no trace in the unit of a group, nor in its failure. -/
theorem outcome_unit_erase (adapter : Adapter) (g : Group) :
    (g.erase.unit adapter).outcome = (g.unit adapter).outcome := by
  have hassemble : g.erase.assemble adapter = g.assemble adapter := rfl
  have htypedefs : g.erase.reportTypedefs = g.reportTypedefs := rfl
  -- The global namespace only looks for something to bind; the others are emitted.
  change (if g.name = "" then _ else _ : Run (Option BindingUnit)).outcome = _
  rw [unit, firstBindable_erase]
  split
  · rfl
  · rw [Run.outcome_report_bind, Run.outcome_report_bind]
    simp only [Run.outcome_bind, outcome_emit_erase, hassemble, htypedefs]

end Group

end ScriptBindings
