import ScriptBindings.Database.Validation
import ScriptBindings.Proofs.Emission.Failure

namespace ScriptBindings

theorem FailsWith.forM {α : Type} {P : BindError → Prop} {as : List α}
    {f : α → Except BindError Unit} (h : ∀ a ∈ as, FailsWith P (f a)) :
    FailsWith P (as.forM f) := by
  induction as with
  | nil => exact .ok ()
  | cons a as ih =>
    obtain ⟨ha, has⟩ := List.forall_mem_cons.mp h
    change FailsWith P (f a >>= fun _ => as.forM f)
    exact ha.bind fun _ => ih has

theorem FailsWith.hidden_or {P : BindError → Prop} {hidden : Bool} {x : Except BindError Unit}
    (h : FailsWith P x) :
    FailsWith (fun e => hidden = false ∧ P e) (if hidden then .ok () else x) := by
  cases hidden with
  | true => exact .ok ()
  | false => exact h.mono fun e he => ⟨rfl, he⟩

/-- The error calls `entity` malformed. -/
def BindError.Refuses (entity : String) (e : BindError) : Prop :=
  ∃ cause, e = .malformed entity cause

open BindError (Refuses)

theorem requireText_fails (text entity : String) (cause : Cause) :
    FailsWith (Refuses entity) (requireText text entity cause) := by
  unfold requireText
  split
  · exact .error ⟨cause, rfl⟩
  · exact .ok ()

theorem requireNonblank_fails (text entity : String) (cause : Cause) :
    FailsWith (Refuses entity) (requireNonblank text entity cause) := by
  unfold requireNonblank
  split
  · exact .error ⟨cause, rfl⟩
  · exact .ok ()

theorem Signature.validate_fails (s : Signature) (entity : String) (needsReturn : Bool) :
    FailsWith (Refuses entity) (s.validate entity needsReturn) := by
  unfold validate
  split
  · exact .ok ()
  · exact .error ⟨_, rfl⟩

variable (path key : String)

theorem Callable.validate_fails (f : Callable) (entity : String) :
    FailsWith (Refuses entity) (f.validate entity) := by
  unfold validate
  split
  · exact .error ⟨_, rfl⟩
  · split
    · exact .error ⟨_, rfl⟩
    · exact .forM fun s _ => s.validate_fails entity true

theorem Callable.validateFree_fails (f : Callable) :
    FailsWith (fun e => f.flags.nobind = false ∧ e.Refuses path) (f.validateFree path) := by
  refine .hidden_or ((f.validate_fails path).bind fun _ => ?_)
  exact .forM fun s _ => requireText_fails s.location path _

theorem Global.validate_fails (g : Global) :
    FailsWith (fun e => g.flags.nobind = false ∧ e.Refuses path) (g.validate path) := by
  refine .hidden_or ((requireText_fails g.name path _).bind fun _ => ?_)
  exact (requireNonblank_fails g.type path _).bind fun _ => requireText_fails g.location path _

theorem Enumeration.validate_fails (e : Enumeration) :
    FailsWith (fun d => e.flags.nobind = false ∧ d.Refuses path) (e.validate path) :=
  .hidden_or ((requireText_fails e.name path _).bind fun _ => requireText_fails e.location path _)

theorem Callable.validateMember_fails (f : Callable) :
    FailsWith (fun e => f.flags.nobind = false ∧ e.Refuses (Scope.member path key))
      (f.validateMember path key) :=
  .hidden_or (f.validate_fails (Scope.member path key))

theorem Attribute.validate_fails (a : Attribute) :
    FailsWith (fun e => a.flags.nobind = false ∧ e.Refuses (Scope.member path key))
      (a.validate path key) :=
  .hidden_or (requireNonblank_fails a.type (Scope.member path key) _)

theorem Class.validate_fails (c : Class) :
    FailsWith (fun e => c.flags.nobind = false ∧
      (e.Refuses path ∨
        (∃ m ∈ c.methods.entries, m.2.flags.nobind = false ∧ e.Refuses (Scope.member path m.1)) ∨
        ∃ a ∈ c.attributes.entries, a.2.flags.nobind = false ∧ e.Refuses (Scope.member path a.1)))
      (c.validate path) := by
  refine .hidden_or ?_
  refine .bind ((requireText_fails c.name path _).mono fun _ => .inl) fun _ => ?_
  refine .bind ((requireText_fails c.location path _).mono fun _ => .inl) fun _ => ?_
  refine .bind (.forM fun s _ => (s.validate_fails path false).mono fun _ => .inl) fun _ => ?_
  refine .bind (.forM fun m hm => ?_) fun _ => .forM fun a ha => ?_
  · exact (m.2.validateMember_fails path m.1).mono fun e he => .inr (.inl ⟨m, hm, he⟩)
  · exact (a.2.validate_fails path a.1).mono fun e he => .inr (.inr ⟨a, ha, he⟩)

/-- The names by which errors refer to what is not hidden: the keys of entities, and for members of
classes the keys or, for methods, the names below that of the class. -/
inductive Database.Shows (db : Database) : String → Prop
  | function {f : String × Callable} (hf : f ∈ db.functions.entries)
    (hvisible : f.2.flags.nobind = false) : db.Shows f.1
  | global {g : String × Global} (hg : g ∈ db.globals.entries)
    (hvisible : g.2.flags.nobind = false) : db.Shows g.1
  | enumeration {e : String × Enumeration} (he : e ∈ db.enums.entries)
    (hvisible : e.2.flags.nobind = false) : db.Shows e.1
  | class {c : String × Class} (hc : c ∈ db.classes.entries)
    (hvisible : c.2.flags.nobind = false) : db.Shows c.1
  | methodKey {c : String × Class} {m : String × Callable} (hc : c ∈ db.classes.entries)
    (hvisible : c.2.flags.nobind = false) (hm : m ∈ c.2.methods.entries)
    (hmethod : m.2.flags.nobind = false) : db.Shows (Scope.member c.1 m.1)
  | methodName {c : String × Class} {m : String × Callable} (hc : c ∈ db.classes.entries)
    (hvisible : c.2.flags.nobind = false) (hm : m ∈ c.2.methods.entries)
    (hmethod : m.2.flags.nobind = false) : db.Shows (Scope.member c.1 m.2.name)
  | attributeKey {c : String × Class} {a : String × Attribute} (hc : c ∈ db.classes.entries)
    (hvisible : c.2.flags.nobind = false) (ha : a ∈ c.2.attributes.entries)
    (hattribute : a.2.flags.nobind = false) : db.Shows (Scope.member c.1 a.1)

theorem Database.validate_fails (db : Database) :
    FailsWith (fun e => ∃ entity, db.Shows entity ∧ e.Refuses entity) db.validate := by
  refine .bind (.forM fun f hf => ?_) fun _ => .bind (.forM fun g hg => ?_) fun _ =>
    .bind (.forM fun v hv => ?_) fun _ => .forM fun c hc => ?_
  · exact (f.2.validateFree_fails f.1).mono fun e he => ⟨f.1, .function hf he.1, he.2⟩
  · exact (g.2.validate_fails g.1).mono fun e he => ⟨g.1, .global hg he.1, he.2⟩
  · exact (v.2.validate_fails v.1).mono fun e he => ⟨v.1, .enumeration hv he.1, he.2⟩
  · refine (c.2.validate_fails c.1).mono fun e he => ?_
    obtain ⟨hvisible, hclass | ⟨m, hm, hmethod, he⟩ | ⟨a, ha, hattribute, he⟩⟩ := he
    · exact ⟨c.1, .class hc hvisible, hclass⟩
    · exact ⟨_, .methodKey hc hvisible hm hmethod, he⟩
    · exact ⟨_, .attributeKey hc hvisible ha hattribute, he⟩

end ScriptBindings
