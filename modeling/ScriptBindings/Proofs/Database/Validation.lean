import Mathlib.Data.List.Basic
import ScriptBindings.Database.Validation

namespace ScriptBindings

theorem checks_bind_eq_ok {x : Except BindError Unit} {f : Unit → Except BindError Unit} :
    (x >>= f) = .ok () ↔ x = .ok () ∧ f () = .ok () := by
  cases x with
  | ok u => simp [bind, Except.bind]
  | error e => simp [bind, Except.bind]

theorem checks_forM_eq_ok {α : Type} {as : List α} {f : α → Except BindError Unit} :
    as.forM f = .ok () ↔ ∀ a ∈ as, f a = .ok () := by
  induction as with
  | nil => simp [List.forM, pure, Except.pure]
  | cons a as ih =>
    change (f a >>= fun _ => as.forM f) = .ok () ↔ _
    rw [checks_bind_eq_ok, ih, List.forall_mem_cons]

theorem hidden_or_eq_ok {hidden : Bool} {x : Except BindError Unit} :
    (if hidden then .ok () else x) = .ok () ↔ (hidden = false → x = .ok ()) := by
  cases hidden with
  | true => simp
  | false => simp

theorem requireText_eq_ok {text entity : String} {cause : Cause} :
    requireText text entity cause = .ok () ↔ text ≠ "" := by
  unfold requireText
  split
  · rename_i h
    simp [h]
  · rename_i h
    simp [h]

theorem requireNonblank_eq_ok {text entity : String} {cause : Cause} :
    requireNonblank text entity cause = .ok () ↔ Blank.isBlankText text = false := by
  unfold requireNonblank
  cases Blank.isBlankText text with
  | true => simp
  | false => simp

theorem Signature.validate_eq_ok {s : Signature} {entity : String} {needsReturn : Bool} :
    s.validate entity needsReturn = .ok () ↔ s.fault needsReturn = none := by
  unfold validate
  cases s.fault needsReturn with
  | none => simp
  | some cause => simp

theorem Callable.validate_eq_ok {f : Callable} {entity : String} :
    f.validate entity = .ok () ↔
      f.name ≠ "" ∧ f.hasNoOverloads = false ∧ ∀ s ∈ f.boundSignatures, s.fault true = none := by
  unfold validate
  by_cases hname : f.name = ""
  · simp [hname]
  · cases hoverloads : f.hasNoOverloads with
    | true => simp [hname]
    | false =>
      rw [if_neg hname, if_neg Bool.false_ne_true, checks_forM_eq_ok]
      simp only [Signature.validate_eq_ok, ne_eq, hname, not_false_eq_true, true_and]

theorem Callable.validateFree_eq_ok {f : Callable} {path : String} :
    f.validateFree path = .ok () ↔ (f.flags.nobind = false →
      f.validate path = .ok () ∧ ∀ s ∈ f.boundSignatures, s.location ≠ "") := by
  simp only [validateFree, hidden_or_eq_ok, checks_bind_eq_ok, checks_forM_eq_ok, requireText_eq_ok]

theorem Callable.validateMember_eq_ok {f : Callable} {className key : String} :
    f.validateMember className key = .ok () ↔
      (f.flags.nobind = false → f.validate (Scope.member className key) = .ok ()) :=
  hidden_or_eq_ok

theorem Global.validate_eq_ok {g : Global} {path : String} :
    g.validate path = .ok () ↔ (g.flags.nobind = false →
      g.name ≠ "" ∧ Blank.isBlankText g.type = false ∧ g.location ≠ "") := by
  simp only [validate, hidden_or_eq_ok, checks_bind_eq_ok, requireText_eq_ok, requireNonblank_eq_ok]

theorem Enumeration.validate_eq_ok {e : Enumeration} {path : String} :
    e.validate path = .ok () ↔ (e.flags.nobind = false → e.name ≠ "" ∧ e.location ≠ "") := by
  simp only [validate, hidden_or_eq_ok, checks_bind_eq_ok, requireText_eq_ok]

theorem Attribute.validate_eq_ok {a : Attribute} {className key : String} :
    a.validate className key = .ok () ↔
      (a.flags.nobind = false → Blank.isBlankText a.type = false) := by
  simp only [validate, hidden_or_eq_ok, requireNonblank_eq_ok]

/-- Of the constructors of a class that is not hidden, even the hidden ones are checked. -/
theorem Class.validate_eq_ok {c : Class} {path : String} :
    c.validate path = .ok () ↔ (c.flags.nobind = false →
      c.name ≠ "" ∧ c.location ≠ "" ∧ (∀ s ∈ c.constructors, s.fault false = none) ∧
        (∀ m ∈ c.methods.entries, m.2.validateMember path m.1 = .ok ()) ∧
        ∀ a ∈ c.attributes.entries, a.2.validate path a.1 = .ok ()) := by
  simp only [validate, hidden_or_eq_ok, checks_bind_eq_ok, checks_forM_eq_ok, requireText_eq_ok,
    Signature.validate_eq_ok]

theorem Database.validate_eq_ok {db : Database} :
    db.validate = .ok () ↔
      (∀ f ∈ db.functions.entries, f.2.validateFree f.1 = .ok ()) ∧
        (∀ g ∈ db.globals.entries, g.2.validate g.1 = .ok ()) ∧
        (∀ e ∈ db.enums.entries, e.2.validate e.1 = .ok ()) ∧
        ∀ c ∈ db.classes.entries, c.2.validate c.1 = .ok () := by
  simp only [validate, checks_bind_eq_ok, checks_forM_eq_ok]

end ScriptBindings
