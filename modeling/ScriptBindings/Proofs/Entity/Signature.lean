import ScriptBindings.Entity.Signature
import ScriptBindings.Proofs.Blank

namespace ScriptBindings

open Blank (IsBlankText isBlankText_eq_true)

theorem all_or_exists_first {α : Type} (p : α → Prop) (as : List α) : (∀ a ∈ as, p a) ∨
    ∃ front a back, as = front ++ a :: back ∧ (∀ b ∈ front, p b) ∧ ¬ p a := by
  classical
  cases h : as.find? fun a => ¬ p a with
  | none => exact .inl (by simpa using h)
  | some a =>
    obtain ⟨ha, front, back, rfl, hfront⟩ := List.find?_eq_some_iff_append.mp h
    exact .inr ⟨front, a, back, rfl, by simpa using hfront, by simpa using ha⟩

/-- A parameter that can be declared: neither its type nor its name is blank. -/
structure Parameter.IsDeclarable (p : Parameter) : Prop where
  type : ¬ IsBlankText p.type
  name : ¬ IsBlankText p.name

/-- What a parameter lacks; of a parameter that lacks both, the type is missed first. -/
inductive Parameter.Lacks (p : Parameter) (index : Nat) : Cause → Prop
  | type (h : IsBlankText p.type) : p.Lacks index (.noParameterType index)
  | name (htype : ¬ IsBlankText p.type) (h : IsBlankText p.name) :
    p.Lacks index (.noParameterName index)

namespace Signature

/-- A signature has a name, and a return type where it needs one. -/
structure HasHead (s : Signature) (needsReturn : Bool) : Prop where
  name : s.name ≠ ""
  returnType : needsReturn = true → ¬ IsBlankText s.returnType

/-- A signature that can be declared. Its parameters with default values come last. -/
structure IsWellFormed (s : Signature) (needsReturn : Bool) : Prop where
  head : s.HasHead needsReturn
  parameters : ∀ p ∈ s.parameters, p.IsDeclarable
  defaults : ∃ mandatory optional, s.parameters = mandatory ++ optional ∧
    (∀ p ∈ mandatory, p.hasDefault = false) ∧ ∀ p ∈ optional, p.hasDefault = true

/-- The first check that a signature fails, of those of its name, its return type, its parameters
from left to right, and its default values. -/
inductive FailsFirst (s : Signature) (needsReturn : Bool) : Cause → Prop
  | name (h : s.name = "") : s.FailsFirst needsReturn .noSignatureName
  | returnType (hname : s.name ≠ "") (hneeds : needsReturn = true)
    (h : IsBlankText s.returnType) : s.FailsFirst needsReturn .noReturnType
  | parameter {front back : List Parameter} {p : Parameter} {cause : Cause}
    (hhead : s.HasHead needsReturn) (hsplit : s.parameters = front ++ p :: back)
    (hfront : ∀ q ∈ front, q.IsDeclarable) (h : p.Lacks front.length cause) :
    s.FailsFirst needsReturn cause
  | gap {mandatory optional back : List Parameter} {p : Parameter}
    (hhead : s.HasHead needsReturn) (hall : ∀ q ∈ s.parameters, q.IsDeclarable)
    (hsplit : s.parameters = mandatory ++ (optional ++ p :: back))
    (hmandatory : ∀ q ∈ mandatory, q.hasDefault = false) (hne : optional ≠ [])
    (hoptional : ∀ q ∈ optional, q.hasDefault = true) (h : p.hasDefault = false) :
    s.FailsFirst needsReturn (.gapInDefaults p.name)

variable {s : Signature} {ps front rest : List Parameter} {p : Parameter} {needsReturn : Bool}
  {cause : Cause} {index : Nat}

section Parameters

theorem parameterFault_of_declarable (h : p.IsDeclarable) (index : Nat) (ps : List Parameter) :
    parameterFault index (p :: ps) = parameterFault (index + 1) ps := by
  rw [parameterFault, if_neg (mt isBlankText_eq_true.mp h.type),
    if_neg (mt isBlankText_eq_true.mp h.name)]

theorem parameterFault_of_lacks (h : p.Lacks index cause) (ps : List Parameter) :
    parameterFault index (p :: ps) = some cause := by
  rw [parameterFault]
  cases h with
  | type h => rw [if_pos (isBlankText_eq_true.mpr h)]
  | name htype h =>
    rw [if_neg (mt isBlankText_eq_true.mp htype), if_pos (isBlankText_eq_true.mpr h)]

theorem parameterFault_append (h : ∀ p ∈ front, p.IsDeclarable) (index : Nat)
    (ps : List Parameter) :
    parameterFault index (front ++ ps) = parameterFault (index + front.length) ps := by
  induction front generalizing index with
  | nil => rfl
  | cons p front ih =>
    rw [List.forall_mem_cons] at h
    rw [List.cons_append, parameterFault_of_declarable h.1, ih h.2, List.length_cons,
      Nat.add_assoc, Nat.add_comm 1]

theorem parameterFault_eq_none (h : ∀ p ∈ ps, p.IsDeclarable) : parameterFault index ps = none := by
  have hfault := parameterFault_append h index []
  rwa [List.append_nil] at hfault

theorem exists_lacks (h : ¬ p.IsDeclarable) (index : Nat) : ∃ cause, p.Lacks index cause := by
  by_cases htype : IsBlankText p.type
  · exact ⟨_, .type htype⟩
  · have hname : IsBlankText p.name := by
      by_contra hname
      exact h ⟨htype, hname⟩
    exact ⟨_, .name htype hname⟩

end Parameters

section Defaults

theorem defaultGap_eq_find? (hsplit : s.parameters = front ++ rest)
    (hfront : ∀ p ∈ front, p.hasDefault = false) (hrest : ∀ p ∈ rest.head?, p.hasDefault = true) :
    s.defaultGap = rest.find? fun p => !p.hasDefault := by
  have hcount : s.mandatoryCount = front.length := by
    have hstop : (rest.takeWhile fun p => !p.hasDefault) = [] := by
      cases rest with
      | nil => rfl
      | cons p rest => exact List.takeWhile_cons_of_neg (by simp [hrest p rfl])
    rw [mandatoryCount, hsplit, List.takeWhile_append_of_pos (by simpa using hfront), hstop,
      List.append_nil]
  rw [defaultGap, hcount, hsplit, List.drop_left]

theorem IsWellFormed.defaultGap_eq_none (h : s.IsWellFormed needsReturn) : s.defaultGap = none := by
  obtain ⟨mandatory, optional, hsplit, hmandatory, hoptional⟩ := h.defaults
  rw [defaultGap_eq_find? hsplit hmandatory fun p hp => hoptional p (List.mem_of_mem_head? hp),
    List.find?_eq_none]
  simpa using hoptional

end Defaults

theorem HasHead.fault_eq (h : s.HasHead needsReturn) : s.fault needsReturn =
    (parameterFault 0 s.parameters).or (s.defaultGap.map fun p => .gapInDefaults p.name) := by
  have hreturn : ¬ (needsReturn && Blank.isBlankText s.returnType) = true := by
    rw [Bool.and_eq_true, isBlankText_eq_true, not_and]
    exact h.returnType
  rw [fault, if_neg h.name, if_neg hreturn]

theorem IsWellFormed.fault_eq (h : s.IsWellFormed needsReturn) : s.fault needsReturn = none := by
  rw [h.head.fault_eq, parameterFault_eq_none h.parameters, h.defaultGap_eq_none]
  rfl

theorem FailsFirst.fault_eq (h : s.FailsFirst needsReturn cause) :
    s.fault needsReturn = some cause := by
  cases h with
  | name h => rw [fault, if_pos h]
  | returnType hname hneeds h =>
    rw [fault, if_neg hname, hneeds, isBlankText_eq_true.mpr h]
    rfl
  | parameter hhead hsplit hfront h =>
    rw [hhead.fault_eq, hsplit, parameterFault_append hfront, Nat.zero_add,
      parameterFault_of_lacks h, Option.some_or]
  | @gap mandatory optional back p hhead hall hsplit hmandatory hne hoptional h =>
    obtain ⟨o, os, rfl⟩ := List.exists_cons_of_ne_nil hne
    have hfirst : ∀ q ∈ (o :: os ++ p :: back).head?, q.hasDefault = true := by
      rintro q ⟨⟩
      exact hoptional o List.mem_cons_self
    have hnone : (o :: os).find? (fun q => !q.hasDefault) = none :=
      List.find?_eq_none.mpr (by simpa using hoptional)
    rw [hhead.fault_eq, parameterFault_eq_none hall, defaultGap_eq_find? hsplit hmandatory hfirst,
      List.find?_append, hnone, List.find?_cons_of_pos (by simp [h])]
    rfl

/-- A signature that passes all other checks keeps its default values together, or the first
parameter without one behind them is a gap. -/
theorem exists_failsFirst_of_defaults (hhead : s.HasHead needsReturn)
    (hall : ∀ p ∈ s.parameters, p.IsDeclarable) :
    s.IsWellFormed needsReturn ∨ ∃ cause, s.FailsFirst needsReturn cause := by
  rcases all_or_exists_first (fun p => p.hasDefault = false) s.parameters with
    hnone | ⟨mandatory, o, rest, hsplit, hmandatory, ho⟩
  · exact .inl ⟨hhead, hall, s.parameters, [], (List.append_nil _).symm, hnone, by simp⟩
  · have ho : o.hasDefault = true := eq_true_of_ne_false ho
    rcases all_or_exists_first (fun p => p.hasDefault = true) rest with
      hoptional | ⟨optional, p, back, rfl, hoptional, hp⟩
    · exact .inl ⟨hhead, hall, mandatory, o :: rest, hsplit, hmandatory,
        List.forall_mem_cons.mpr ⟨ho, hoptional⟩⟩
    · exact .inr ⟨_, .gap hhead hall hsplit hmandatory (List.cons_ne_nil o optional)
        (List.forall_mem_cons.mpr ⟨ho, hoptional⟩) (eq_false_of_ne_true hp)⟩

theorem isWellFormed_or_exists_failsFirst (s : Signature) (needsReturn : Bool) :
    s.IsWellFormed needsReturn ∨ ∃ cause, s.FailsFirst needsReturn cause := by
  by_cases hname : s.name = ""
  · exact .inr ⟨_, .name hname⟩
  by_cases hreturn : needsReturn = true ∧ IsBlankText s.returnType
  · exact .inr ⟨_, .returnType hname hreturn.1 hreturn.2⟩
  have hhead : s.HasHead needsReturn := ⟨hname, not_and.mp hreturn⟩
  rcases all_or_exists_first Parameter.IsDeclarable s.parameters with
    hall | ⟨front, p, back, hsplit, hfront, hp⟩
  · exact exists_failsFirst_of_defaults hhead hall
  · obtain ⟨cause, h⟩ := exists_lacks hp front.length
    exact .inr ⟨cause, .parameter hhead hsplit hfront h⟩

theorem fault_eq_none_iff : s.fault needsReturn = none ↔ s.IsWellFormed needsReturn := by
  refine ⟨fun h => ?_, IsWellFormed.fault_eq⟩
  refine (s.isWellFormed_or_exists_failsFirst needsReturn).resolve_right ?_
  rintro ⟨cause, hcause⟩
  rw [hcause.fault_eq] at h
  cases h

theorem fault_eq_some_iff : s.fault needsReturn = some cause ↔ s.FailsFirst needsReturn cause := by
  refine ⟨fun h => ?_, FailsFirst.fault_eq⟩
  rcases s.isWellFormed_or_exists_failsFirst needsReturn with hwell | ⟨first, hfirst⟩
  · rw [hwell.fault_eq] at h
    cases h
  · rw [hfirst.fault_eq] at h
    cases h
    exact hfirst

/-- Validation accepts a signature exactly if it has a name, a return type where one is needed, no
parameter without type or name, and its default values behind one another at the end. Any other
signature is refused in the name of the entity for the first check that it fails, and for no other
reason. -/
theorem validate_accepts (s : Signature) (entity : String) (needsReturn : Bool) :
    (s.validate entity needsReturn = .ok () ↔ s.IsWellFormed needsReturn) ∧
      ∀ e, s.validate entity needsReturn = .error e ↔
        ∃ cause, s.FailsFirst needsReturn cause ∧ e = .malformed entity cause := by
  simp only [← fault_eq_none_iff, ← fault_eq_some_iff, validate]
  cases s.fault needsReturn with
  | none => simp
  | some cause => simp [eq_comm]

-- The first parameter has no name; that is told before the type of the second, and before the gap.
example : (validate { name := "f", returnType := "int", parameters :=
    [⟨" ", "int", some "0"⟩, ⟨"b", "", none⟩] } "ns::f" true).mapError BindError.message =
    .error "Malformed entity ns::f: parameter #0 has no name" := by
  decide

end Signature

end ScriptBindings
