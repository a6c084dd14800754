import ScriptBindings.Proofs.Emission

namespace ScriptBindings

/-- Every error of the computation satisfies `P`. -/
def FailsWith {α : Type} (P : BindError → Prop) (x : Except BindError α) : Prop :=
  ∀ e, x = .error e → P e

namespace FailsWith

variable {α β : Type} {P Q : BindError → Prop} {x : Except BindError α}

theorem ok (a : α) : FailsWith P (.ok a) := by
  intro e h
  cases h

theorem error {e : BindError} (he : P e) : FailsWith P (.error e : Except BindError α) := by
  intro d h
  cases h
  exact he

theorem mono (h : FailsWith P x) (hPQ : ∀ e, P e → Q e) : FailsWith Q x :=
  fun e he => hPQ e (h e he)

theorem bind {f : α → Except BindError β} (h : FailsWith P x) (hf : ∀ a, FailsWith P (f a)) :
    FailsWith P (x.bind f) := by
  cases x with
  | ok a => exact hf a
  | error e => exact error (h e rfl)

theorem map {g : α → β} (h : FailsWith P x) : FailsWith P (x.map g) := by
  cases x with
  | ok a => exact ok (g a)
  | error e => exact error (h e rfl)

theorem mapError {g : BindError → BindError} (h : FailsWith P x) (hg : ∀ e, P e → Q (g e)) :
    FailsWith Q (x.mapError g) := by
  cases x with
  | ok a => exact ok a
  | error e => exact error (hg e (h e rfl))

theorem run_bind {x : Run α} {f : α → Run β} (h : FailsWith P x.outcome)
    (hf : ∀ a, FailsWith P (f a).outcome) : FailsWith P (x >>= f).outcome := by
  rw [Run.outcome_bind]
  exact h.bind hf

theorem collect {f : α → Run β} {as : List α} (h : ∀ a ∈ as, FailsWith P (f a).outcome) :
    FailsWith P (Run.collect f as).outcome := by
  intro e he
  obtain ⟨a, ha, hae⟩ := Run.exists_of_collect_eq_error he
  exact h a ha e hae

end FailsWith

namespace BindError

/-- The error blames `entity` for a construct that cannot be bound. -/
def Blames (entity : String) (e : BindError) : Prop := ∃ cause, e = .unsupported entity cause

def IsUnsupported (e : BindError) : Prop := ∃ entity, e.Blames entity

theorem inEntity_blames {e : BindError} (h : e.IsUnsupported) (entity : String) :
    (e.inEntity entity).Blames entity := by
  obtain ⟨inner, cause, rfl⟩ := h
  exact ⟨.seenIn cause inner, rfl⟩

end BindError

open BindError (Blames IsUnsupported)

theorem TypeName.base_fails (type : String) : FailsWith IsUnsupported (base type) := by
  unfold base
  split
  · exact .ok _
  · exact .error ⟨type, _, rfl⟩
  · exact .error ⟨type, _, rfl⟩

namespace Operator

theorem identifier_fails (token : String) : FailsWith IsUnsupported (identifier token) := by
  unfold identifier
  split
  · exact .ok _
  · exact .error ⟨_, _, rfl⟩

theorem memberIdentifier_fails (token : String) (unary : Bool) :
    FailsWith IsUnsupported (memberIdentifier token unary) := by
  unfold memberIdentifier
  split
  · exact .ok _
  · split
    · exact .ok _
    · exact identifier_fails token

theorem operandFragment_fails (type : String) :
    FailsWith IsUnsupported (operandFragment type) :=
  (TypeName.base_fails type).map

theorem operandName_fails (name identifier : String) (ps : List Parameter) :
    FailsWith IsUnsupported (operandName name identifier ps) := by
  match ps with
  | [] => exact .error ⟨name, _, rfl⟩
  | [p] => exact (operandFragment_fails p.type).bind fun _ => .ok _
  | p :: q :: _ =>
    exact (operandFragment_fails p.type).bind fun _ =>
      (operandFragment_fails q.type).bind fun _ => .ok _

theorem classify_fails (name : String) (ps : List Parameter) :
    FailsWith IsUnsupported (classify name ps) := by
  unfold classify
  split
  · exact .ok _
  · exact (identifier_fails _).bind fun _ => (operandName_fails name _ ps).bind fun _ => .ok _

end Operator

variable (adapter : Adapter) (path : String)

theorem Callable.emit_fails (f : Callable) :
    FailsWith (fun e => f.isBindable = true ∧ e.Blames path) (f.emit adapter path).outcome := by
  have hobject : FailsWith IsUnsupported f.object :=
    (Operator.classify_fails f.name _).bind fun _ => .ok _
  unfold emit
  split
  · rename_i hf
    rw [Run.outcome_report_bind]
    exact .run_bind (hobject.mapError fun e he => ⟨hf, BindError.inEntity_blames he path⟩)
      fun _ => .ok _
  · exact .ok _

namespace Class

variable (className usertype key : String)

theorem metaKey_fails (methodPath token : String) (s : Signature) :
    FailsWith (Blames methodPath) (metaKey adapter methodPath token s).outcome := by
  unfold metaKey
  refine .run_bind ?_ fun identifier => ?_
  · exact (Operator.memberIdentifier_fails token _).mapError
      fun e he => BindError.inEntity_blames he methodPath
  · cases adapter.metaFunction identifier with
    | some key => exact .ok _
    | none =>
      change FailsWith _ (if adapter.derives identifier then _ else _ : Run (Option String)).outcome
      split
      · exact .ok _
      · exact .error ⟨_, rfl⟩

theorem methodStatements_fails (f : Callable) :
    FailsWith (fun e => f.isBindable = true ∧ e.Blames (Scope.member className f.name))
      (methodStatements adapter className usertype key f).outcome := by
  unfold methodStatements
  split
  · rename_i hf
    split
    · refine .run_bind (.collect fun s _ => ?_) fun _ => .ok _
      exact (metaKey_fails adapter _ _ s).mono fun e he => ⟨hf, he⟩
    · exact .ok _
  · exact .ok _

theorem attributeStatements_fails {P : BindError → Prop} (a : Attribute) :
    FailsWith P (attributeStatements adapter className usertype key a).outcome := by
  unfold attributeStatements
  split
  · exact .ok _
  · exact .ok _

theorem statements_fails (c : Class) :
    FailsWith (fun e => ∃ f ∈ c.methods.values,
      f.isBindable = true ∧ e.Blames (Scope.member path f.name))
      (c.statements adapter path).outcome := by
  refine .run_bind ?_ fun _ => .run_bind ?_ fun _ => .ok _
  · refine .collect fun m hm => ?_
    exact (methodStatements_fails adapter path (c.usertype adapter) m.1 m.2).mono
      fun e he => ⟨m.2, List.mem_map_of_mem hm, he⟩
  · exact .collect fun a _ => attributeStatements_fails adapter path _ a.1 a.2

theorem emit_fails (c : Class) :
    FailsWith (fun e => c.flags.nobind = false ∧ ∃ f ∈ c.methods.values,
      f.isBindable = true ∧ e.Blames (Scope.member path f.name))
      (c.emit adapter path).outcome := by
  unfold emit
  split
  · exact .ok _
  · rename_i hc
    rw [Run.outcome_report_bind]
    refine .run_bind ?_ fun _ => .ok _
    exact (statements_fails adapter path c).mono fun e he => ⟨Bool.eq_false_iff.mpr hc, he⟩

end Class

theorem emitEach_fails {α : Type} {P : BindError → Prop} {emit : String → α → Run BindingSet}
    {c : Catalog α} (h : ∀ e ∈ c.entries, FailsWith P (emit e.1 e.2).outcome) :
    FailsWith P (emitEach emit c).outcome :=
  .run_bind (.collect h) fun _ => .ok _

/-- A failing emission blames a function that is not hidden, or such a method of such a class. -/
theorem Group.emit_fails (g : Group) :
    FailsWith (fun e =>
      (∃ f ∈ g.functions.entries, f.2.isBindable = true ∧ e.Blames f.1) ∨
      ∃ c ∈ g.classes.entries, c.2.flags.nobind = false ∧ ∃ f ∈ c.2.methods.values,
        f.isBindable = true ∧ e.Blames (Scope.member c.1 f.name))
      (g.emit adapter).outcome := by
  refine .run_bind ?_ fun _ => .run_bind ?_ fun _ => .run_bind ?_ fun _ => .run_bind ?_ fun _ =>
    .ok _
  · refine emitEach_fails fun c hc => ?_
    exact (Class.emit_fails adapter c.1 c.2).mono fun e he => .inr ⟨c, hc, he⟩
  · refine emitEach_fails fun v _ => ?_
    rw [Enumeration.outcome_emit]
    exact .ok _
  · refine emitEach_fails fun f hf => ?_
    exact (Callable.emit_fails adapter f.1 f.2).mono fun e he => .inl ⟨f, hf, he⟩
  · refine emitEach_fails fun v _ => ?_
    rw [Global.outcome_emit]
    exact .ok _

end ScriptBindings
