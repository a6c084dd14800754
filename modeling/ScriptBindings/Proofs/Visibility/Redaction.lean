import Mathlib.Data.List.Basic
import ScriptBindings.Database.Validation
import ScriptBindings.Proofs.Dictionary

namespace ScriptBindings

theorem forM_congr_of_map_eq {α β : Type} {r : α → β} {f : α → Except BindError Unit}
    {as bs : List α} (h : as.map r = bs.map r)
    (hf : ∀ a ∈ as, ∀ b ∈ bs, r a = r b → f a = f b) : as.forM f = bs.forM f := by
  induction as generalizing bs with
  | nil =>
    rw [List.map_eq_nil_iff.mp h.symm]
  | cons a as ih =>
    cases bs with
    | nil => cases h
    | cons b bs =>
      rw [List.map_cons, List.map_cons, List.cons.injEq] at h
      have hhead : f a = f b := hf a List.mem_cons_self b List.mem_cons_self h.1
      have htail : as.forM f = bs.forM f := by
        apply ih h.2
        intro x hx y hy
        exact hf x (List.mem_cons_of_mem a hx) y (List.mem_cons_of_mem b hy)
      change (f a >>= fun _ => as.forM f) = f b >>= fun _ => bs.forM f
      rw [hhead, htail]

theorem Dictionary.forM_congr {α β : Type} {r : α → β} {f : String → α → Except BindError Unit}
    {c d : Catalog α} (h : c.map r = d.map r)
    (hf : ∀ a ∈ c.entries, ∀ b ∈ d.entries, a.1 = b.1 → r a.2 = r b.2 → f a.1 a.2 = f a.1 b.2) :
    (c.entries.forM fun e => f e.1 e.2) = d.entries.forM fun e => f e.1 e.2 := by
  apply forM_congr_of_map_eq (congrArg Dictionary.entries h)
  intro a ha b hb hr
  obtain ⟨hkey, hr⟩ := Prod.ext_iff.mp hr
  rw [hf a ha b hb hkey hr]
  exact congrArg (fun key => f key b.2) hkey

def Signature.redact (s : Signature) : Signature :=
  if s.flags.nobind then { flags := s.flags } else s

@[simp] theorem Signature.flags_redact (s : Signature) : s.redact.flags = s.flags := by
  unfold redact
  split
  · rfl
  · rfl

theorem Signature.filter_redact (ss : List Signature) :
    ((ss.map redact).filter fun s => !s.flags.nobind) = ss.filter fun s => !s.flags.nobind := by
  induction ss with
  | nil => rfl
  | cons s ss ih =>
    rw [List.map_cons, List.filter_cons, List.filter_cons, ih, flags_redact]
    cases hs : s.flags.nobind with
    | true => rfl
    | false => simp [redact, hs]

namespace Callable

def redact (f : Callable) : Callable :=
  if f.flags.nobind then .single { flags := f.flags }
  else
    match f with
    | .single s => .single s
    | .overloaded set =>
      .overloaded { set with overloads := set.overloads.map Signature.redact }

variable {f : Callable}

@[simp] theorem flags_redact (f : Callable) : f.redact.flags = f.flags := by
  unfold redact
  split
  · rfl
  · cases f with
    | single s => rfl
    | overloaded set => rfl

theorem redact_of_visible (h : f.flags.nobind = false) :
    f.redact.name = f.name ∧ f.redact.hasNoOverloads = f.hasNoOverloads ∧
      f.redact.boundSignatures = f.boundSignatures := by
  unfold redact
  rw [if_neg (Bool.eq_false_iff.mp h)]
  cases f with
  | single s => exact ⟨rfl, rfl, rfl⟩
  | overloaded set => exact ⟨rfl, List.isEmpty_map, Signature.filter_redact set.overloads⟩

theorem validate_redact (h : f.flags.nobind = false) (entity : String) :
    f.redact.validate entity = f.validate entity := by
  obtain ⟨hname, hoverloads, hbound⟩ := redact_of_visible h
  rw [validate, validate, hname, hoverloads, hbound]

theorem validateFree_redact (path : String) (f : Callable) :
    f.redact.validateFree path = f.validateFree path := by
  unfold validateFree
  rw [flags_redact]
  cases h : f.flags.nobind with
  | true => rfl
  | false => rw [validate_redact h, (redact_of_visible h).2.2]

theorem validateMember_redact (className key : String) (f : Callable) :
    f.redact.validateMember className key = f.validateMember className key := by
  unfold validateMember
  rw [flags_redact]
  cases h : f.flags.nobind with
  | true => rfl
  | false => rw [validate_redact h]

end Callable

/-- A check that lets all hidden values pass does not tell one from another. -/
theorem check_redact {α : Type} (flags : α → Flags) (check : α → Except BindError Unit)
    (hcheck : ∀ a, (flags a).nobind = true → check a = .ok ()) {a b : α} (h : flags b = flags a) :
    check (if (flags a).nobind then b else a) = check a := by
  split
  · rename_i ha
    have hb : (flags b).nobind = true := by
      rw [h, ha]
    rw [hcheck a ha, hcheck b hb]
  · rfl

def Attribute.redact (a : Attribute) : Attribute :=
  if a.flags.nobind then { flags := a.flags } else a

theorem Attribute.validate_redact (className key : String) (a : Attribute) :
    a.redact.validate className key = a.validate className key :=
  check_redact Attribute.flags (Attribute.validate className key) (fun _ h => if_pos h) rfl

def Enumeration.redact (e : Enumeration) : Enumeration :=
  if e.flags.nobind then { flags := e.flags } else e

theorem Enumeration.validate_redact (path : String) (e : Enumeration) :
    e.redact.validate path = e.validate path :=
  check_redact Enumeration.flags (Enumeration.validate path) (fun _ h => if_pos h) rfl

def Global.redact (g : Global) : Global :=
  if g.flags.nobind then { flags := g.flags } else g

theorem Global.validate_redact (path : String) (g : Global) :
    g.redact.validate path = g.validate path :=
  check_redact Global.flags (Global.validate path) (fun _ h => if_pos h) rfl

namespace Class

/-- A hidden class without content, or a class whose hidden members have none. -/
def redact (c : Class) : Class :=
  if c.flags.nobind then { flags := c.flags }
  else
    { c with
      constructors := c.constructors.map Signature.redact
      methods := c.methods.map Callable.redact
      attributes := c.attributes.map Attribute.redact }

@[simp] theorem flags_redact (c : Class) : c.redact.flags = c.flags := by
  unfold redact
  split
  · rfl
  · rfl

/-- The first fault among the constructors, hidden ones included. -/
def constructorFault (c : Class) : Option Cause :=
  c.constructors.findSome? fun s => s.fault false

/-- Of the constructors only the first fault matters. -/
theorem forM_validate_constructors (path : String) (ss : List Signature) :
    (ss.forM fun s => s.validate path false) =
      match ss.findSome? fun s => s.fault false with
      | none => .ok ()
      | some cause => .error (.malformed path cause) := by
  induction ss with
  | nil => rfl
  | cons s ss ih =>
    change (s.validate path false >>= fun _ => ss.forM fun s => s.validate path false) = _
    rw [List.findSome?_cons, Signature.validate]
    cases s.fault false with
    | none => exact ih
    | some cause => rfl

theorem validate_congr {c d : Class} (path : String) (h : c.redact = d.redact)
    (hfault : c.flags.nobind = false → c.constructorFault = d.constructorFault) :
    c.validate path = d.validate path := by
  have hflags : c.flags = d.flags := by
    rw [← flags_redact c, h, flags_redact]
  unfold validate
  rw [← hflags]
  cases hc : c.flags.nobind with
  | true => rfl
  | false =>
    unfold redact at h
    rw [← hflags, if_neg (Bool.eq_false_iff.mp hc), if_neg (Bool.eq_false_iff.mp hc),
      Class.mk.injEq] at h
    obtain ⟨hname, _, _, _, hmethods, hattributes, hlocation, _⟩ := h
    -- Hidden constructors are checked as well, so redaction says nothing about this loop.
    have hconstructors : (c.constructors.forM fun s => s.validate path false) =
        d.constructors.forM fun s => s.validate path false := by
      have hfirst : (c.constructors.findSome? fun s => s.fault false) =
          d.constructors.findSome? fun s => s.fault false := hfault hc
      rw [forM_validate_constructors, forM_validate_constructors, hfirst]
    have hmethods' := Dictionary.forM_congr (f := Callable.validateMember path) hmethods
      fun a _ b _ _ hr => by
        rw [← Callable.validateMember_redact, hr, Callable.validateMember_redact]
    have hattributes' := Dictionary.forM_congr (f := Attribute.validate path) hattributes
      fun a _ b _ _ hr => by
        rw [← Attribute.validate_redact, hr, Attribute.validate_redact]
    rw [hname, hlocation, hconstructors, hmethods', hattributes']

end Class

namespace Database

/-- The database in which nothing is left of hidden declarations but that they are hidden. -/
def redact (db : Database) : Database :=
  { db with
    classes := db.classes.map Class.redact
    enums := db.enums.map Enumeration.redact
    functions := db.functions.map Callable.redact
    globals := db.globals.map Global.redact }

/-- Validation sees nothing of hidden declarations but the first fault among the constructors of a
class. -/
theorem validate_eq_of_redact_eq {db db' : Database} (h : db.redact = db'.redact)
    (hfault : ∀ c ∈ db.classes.entries, ∀ d ∈ db'.classes.entries, c.1 = d.1 →
      c.2.flags.nobind = false → c.2.constructorFault = d.2.constructorFault) :
    db.validate = db'.validate := by
  rw [redact, redact, Database.mk.injEq] at h
  obtain ⟨_, hclasses, henums, hfunctions, hglobals, _⟩ := h
  have hfunctions' := Dictionary.forM_congr (f := Callable.validateFree) hfunctions
    fun a _ b _ _ hr => by
      rw [← Callable.validateFree_redact, hr, Callable.validateFree_redact]
  have hglobals' := Dictionary.forM_congr (f := Global.validate) hglobals
    fun a _ b _ _ hr => by rw [← Global.validate_redact, hr, Global.validate_redact]
  have henums' := Dictionary.forM_congr (f := Enumeration.validate) henums
    fun a _ b _ _ hr => by rw [← Enumeration.validate_redact, hr, Enumeration.validate_redact]
  have hclasses' := Dictionary.forM_congr (f := Class.validate) hclasses
    fun c hc d hd hkey hr => Class.validate_congr c.1 hr (hfault c hc d hd hkey)
  rw [validate, validate, hfunctions', hglobals', henums', hclasses']

/-- Hidden declarations of every kind and at every level, filled with `text`. -/
def veiledSample (text : String) : Database where
  classes := .ofEntries [
    ("ns::Hidden", { name := text, flags := ⟨true⟩ }),
    ("ns::Foo", {
      name := "Foo"
      location := "include/foo.hpp"
      constructors := [{ name := "Foo", returnType := text, flags := ⟨true⟩ }]
      methods := .ofEntries [
        ("hidden", .single { name := text, flags := ⟨true⟩ }),
        ("scale", .overloaded {
          name := "scale"
          overloads := [
            { name := "scale", returnType := "void" }, { name := text, flags := ⟨true⟩ }] })]
      attributes := .ofEntries [("hidden", { name := text, flags := ⟨true⟩ })] })]
  enums := .ofEntries [("ns::Color", { name := text, flags := ⟨true⟩ })]
  functions := .ofEntries [
    ("ns::hidden", .overloaded { name := text, flags := ⟨true⟩ }),
    ("ns::load", .overloaded { name := "load", overloads := [{ name := text, flags := ⟨true⟩ }] })]
  globals := .ofEntries [("ns::Limit", { type := text, flags := ⟨true⟩ })]

theorem veiledSample_accepted :
    veiledSample "" ≠ veiledSample "Secret" ∧
      (veiledSample "").redact = (veiledSample "Secret").redact ∧
      (∀ c ∈ (veiledSample "").classes.entries, ∀ d ∈ (veiledSample "Secret").classes.entries,
        c.1 = d.1 → c.2.flags.nobind = false → c.2.constructorFault = d.2.constructorFault) ∧
      (veiledSample "Secret").validate = .ok () ∧
      (veiledSample "").validate = (veiledSample "Secret").validate := by
  have hredact : (veiledSample "").redact = (veiledSample "Secret").redact := by decide +kernel
  have hfault : ∀ c ∈ (veiledSample "").classes.entries,
      ∀ d ∈ (veiledSample "Secret").classes.entries, c.1 = d.1 → c.2.flags.nobind = false →
        c.2.constructorFault = d.2.constructorFault := by decide +kernel
  exact ⟨by decide +kernel, hredact, hfault, rfl, validate_eq_of_redact_eq hredact hfault⟩

/-- A class whose only constructor is hidden and has a parameter of type `type`. -/
def hiddenConstructor (type : String) : Database where
  classes := .ofEntries [
    ("ns::Foo", {
      name := "Foo"
      location := "include/foo.hpp"
      constructors := [
        { name := "Foo", parameters := [⟨"s", type, none⟩], flags := ⟨true⟩ }] })]

/-- What a hidden constructor lacks is held against its class. -/
theorem hiddenConstructor_refused :
    (hiddenConstructor "").redact = (hiddenConstructor "int").redact ∧
      (hiddenConstructor "").validate = .error (.malformed "ns::Foo" (.noParameterType 0)) ∧
      (hiddenConstructor "int").validate = .ok () :=
  ⟨rfl, rfl, rfl⟩

end Database

end ScriptBindings
