import Mathlib.Data.List.TakeWhile
import ScriptBindings.CallShape
import ScriptBindings.Proofs.Database.Validation

namespace ScriptBindings

namespace Signature

variable {s : Signature} {k : Nat}

/-- A call that passes the first `k` parameters leaves out none that it must pass. -/
def OptionalFrom (s : Signature) (k : Nat) : Prop :=
  ∀ p ∈ s.parameters.drop k, p.hasDefault = true

theorem mandatoryCount_le (s : Signature) : s.mandatoryCount ≤ s.parameters.length :=
  (List.takeWhile_sublist _).length_le

theorem OptionalFrom.mandatoryCount_le (h : s.OptionalFrom k) : s.mandatoryCount ≤ k := by
  unfold OptionalFrom at h
  unfold mandatoryCount
  generalize s.parameters = ps at h ⊢
  induction ps generalizing k with
  | nil => exact Nat.zero_le k
  | cons p ps ih =>
    cases k with
    | zero =>
      have hp : p.hasDefault = true := h p List.mem_cons_self
      rw [List.takeWhile_cons_of_neg (by simp [hp])]
      exact Nat.zero_le 0
    | succ k =>
      have hps := ih h
      rw [List.takeWhile_cons]
      split
      · exact Nat.succ_le_succ hps
      · exact Nat.zero_le _

theorem OptionalFrom.mono {j : Nat} (h : s.OptionalFrom j) (hjk : j ≤ k) : s.OptionalFrom k :=
  fun p hp => h p (List.drop_subset_drop_left _ hjk hp)

theorem optionalFrom_iff (h : s.OptionalFrom s.mandatoryCount) :
    s.OptionalFrom k ↔ s.mandatoryCount ≤ k :=
  ⟨OptionalFrom.mandatoryCount_le, h.mono⟩

theorem defaultGap_eq_none : s.defaultGap = none ↔ s.OptionalFrom s.mandatoryCount := by
  rw [defaultGap, List.find?_eq_none]
  simp only [Bool.not_eq_eq_eq_not, Bool.not_true, Bool.not_eq_false, OptionalFrom]

theorem optionalFrom_mandatoryCount {needsReturn : Bool} (h : s.fault needsReturn = none) :
    s.OptionalFrom s.mandatoryCount := by
  unfold fault at h
  split at h
  · cases h
  split at h
  · cases h
  · obtain ⟨_, hgap⟩ := Option.or_eq_none_iff.mp h
    exact defaultGap_eq_none.mp (Option.map_eq_none_iff.mp hgap)

/-- Without a gap, the parameters are the mandatory ones and those that have a default value. -/
theorem mandatoryCount_add_countP (h : s.OptionalFrom s.mandatoryCount) :
    s.mandatoryCount + s.parameters.countP Parameter.hasDefault = s.parameters.length := by
  have hfront : (s.parameters.take s.mandatoryCount).countP Parameter.hasDefault = 0 := by
    have hmandatory : s.parameters.take s.mandatoryCount =
        s.parameters.takeWhile fun p => !p.hasDefault :=
      (List.prefix_iff_eq_take.mp (List.takeWhile_prefix _)).symm
    rw [hmandatory, List.countP_eq_zero]
    intro p hp
    simpa using List.mem_takeWhile_imp hp
  have hback : (s.parameters.drop s.mandatoryCount).countP Parameter.hasDefault =
      s.parameters.length - s.mandatoryCount := by
    rw [List.countP_eq_length.mpr h, List.length_drop]
  have hsplit := congrArg (List.countP Parameter.hasDefault)
    (List.take_append_drop s.mandatoryCount s.parameters)
  rw [List.countP_append, hfront, hback] at hsplit
  have hle := s.mandatoryCount_le
  omega

theorem length_callShapes (s : Signature) :
    s.callShapes.length = s.parameters.length + 1 - s.mandatoryCount := by
  rw [callShapes, List.length_map, List.length_range']

theorem map_arity_callShapes (s : Signature) :
    s.callShapes.map CallShape.arity =
      List.range' s.mandatoryCount (s.parameters.length + 1 - s.mandatoryCount) := by
  rw [callShapes, List.map_map]
  refine (List.map_congr_left fun k hk => ?_).trans (List.map_id _)
  have hk := List.mem_range'_1.mp hk
  have hle := s.mandatoryCount_le
  change (s.parameters.take k).length = k
  rw [List.length_take]
  omega

theorem mem_arities_callShapes :
    k ∈ s.callShapes.map CallShape.arity ↔ s.mandatoryCount ≤ k ∧ k ≤ s.parameters.length := by
  have hle := s.mandatoryCount_le
  rw [map_arity_callShapes, List.mem_range'_1]
  omega

theorem eq_take_of_mem_callShapes {shape : CallShape} (h : shape ∈ s.callShapes) :
    shape = s.parameters.take shape.arity := by
  obtain ⟨k, _, rfl⟩ := List.mem_map.mp h
  exact List.prefix_iff_eq_take.mp (List.take_prefix k s.parameters)

theorem getLast?_callShapes (s : Signature) : s.callShapes.getLast? = some s.parameters := by
  have hle := s.mandatoryCount_le
  have hlength : s.parameters.length + 1 - s.mandatoryCount =
      s.parameters.length - s.mandatoryCount + 1 := by omega
  rw [callShapes, hlength, List.range'_concat, List.map_append, List.map_singleton,
    List.getLast?_concat, Nat.one_mul, Nat.add_sub_cancel' hle, List.take_length]

end Signature

namespace Database

/-- The signatures whose calls the generated code may make: those of visible functions, and those of
bindable methods and of constructors in visible classes. -/
def Offers (db : Database) (s : Signature) : Prop :=
  (∃ f ∈ db.functions.entries, f.2.flags.nobind = false ∧ s ∈ f.2.boundSignatures) ∨
    ∃ c ∈ db.classes.entries, c.2.flags.nobind = false ∧
      ((∃ m ∈ c.2.methods.entries, m.2.isBindable = true ∧ s ∈ m.2.boundSignatures) ∨
        s ∈ c.2.constructors)

variable {db : Database} {s : Signature}

/-- All three loops of validation refuse a gap in the defaults. -/
theorem Offers.optionalFrom (hs : db.Offers s) (h : db.validate = .ok ()) :
    s.OptionalFrom s.mandatoryCount := by
  obtain ⟨hfunctions, _, _, hclasses⟩ := validate_eq_ok.mp h
  rcases hs with ⟨f, hf, hvisible, hs⟩ | ⟨c, hc, hvisible, hs⟩
  · obtain ⟨hvalid, _⟩ := Callable.validateFree_eq_ok.mp (hfunctions f hf) hvisible
    obtain ⟨_, _, hfaults⟩ := Callable.validate_eq_ok.mp hvalid
    exact Signature.optionalFrom_mandatoryCount (hfaults s hs)
  · obtain ⟨_, _, hconstructors, hmethods, _⟩ := Class.validate_eq_ok.mp (hclasses c hc) hvisible
    rcases hs with ⟨m, hm, hbindable, hs⟩ | hs
    · have hvalid := Callable.validateMember_eq_ok.mp (hmethods m hm)
        (Bool.not_eq_eq_eq_not.mp (Bool.and_eq_true_iff.mp hbindable).1)
      obtain ⟨_, _, hfaults⟩ := Callable.validate_eq_ok.mp hvalid
      exact Signature.optionalFrom_mandatoryCount (hfaults s hs)
    · exact Signature.optionalFrom_mandatoryCount (hconstructors s hs)

/-- In an accepted database the shapes of a signature pass its leading parameters, in all the
numbers that leave out only parameters with a default value, in increasing order up to the full
list. -/
theorem callShapes_complete (h : db.validate = .ok ()) (hs : db.Offers s) :
    (s.callShapes.map CallShape.arity).Pairwise (· < ·) ∧
      (∀ k, k ∈ s.callShapes.map CallShape.arity ↔ k ≤ s.parameters.length ∧ s.OptionalFrom k) ∧
      s.callShapes.getLast? = some s.parameters ∧
      s.callShapes.length = s.parameters.countP Parameter.hasDefault + 1 ∧
      ∀ shape ∈ s.callShapes, shape = s.parameters.take shape.arity := by
  have hoptional := hs.optionalFrom h
  refine ⟨?_, fun k => ?_, s.getLast?_callShapes, ?_, fun _ => Signature.eq_take_of_mem_callShapes⟩
  · rw [Signature.map_arity_callShapes]
    exact List.pairwise_lt_range'
  · rw [Signature.mem_arities_callShapes, Signature.optionalFrom_iff hoptional, and_comm]
  · have hcount := Signature.mandatoryCount_add_countP hoptional
    rw [Signature.length_callShapes]
    omega

/-- A function, a method and a constructor with default values. -/
def defaultsSample : Database where
  functions := .ofEntries [
    ("ns::resize", .overloaded {
      name := "resize"
      overloads := [
        { name := "resize", returnType := "void", location := "include/resize.hpp",
          parameters := [⟨"w", "int", none⟩, ⟨"h", "int", some "1"⟩, ⟨"d", "int", some "1"⟩] },
        { name := "resize", parameters := [⟨"w", "int", some "1"⟩, ⟨"h", "", none⟩],
          flags := ⟨true⟩ }] })]
  classes := .ofEntries [
    ("ns::Box", {
      name := "Box"
      location := "include/box.hpp"
      constructors := [{ name := "Box", parameters := [⟨"size", "int", some "0"⟩] }]
      methods := .ofEntries [
        ("scale", .single {
          name := "scale", returnType := "void"
          parameters := [⟨"x", "float", none⟩, ⟨"y", "float", some "x"⟩] })] })]

theorem defaultsSample_callShapes :
    defaultsSample.validate = .ok () ∧
      ∃ resize scale make : Signature, defaultsSample.Offers resize ∧
        defaultsSample.Offers scale ∧ defaultsSample.Offers make ∧
        resize.callShapes.map CallShape.arity = [1, 2, 3] ∧
        scale.callShapes.map CallShape.arity = [1, 2] ∧
        make.callShapes.map CallShape.arity = [0, 1] ∧
        resize.callShapes.getLast? = some resize.parameters ∧
        scale.callShapes.length = scale.parameters.countP Parameter.hasDefault + 1 ∧
        ∀ k, k ∈ make.callShapes.map CallShape.arity ↔
          k ≤ make.parameters.length ∧ make.OptionalFrom k := by
  have hvalid : defaultsSample.validate = .ok () := rfl
  have hresize : defaultsSample.Offers _ :=
    .inl ⟨_, List.mem_cons_self, rfl, List.mem_cons_self⟩
  have hscale : defaultsSample.Offers _ :=
    .inr ⟨_, List.mem_cons_self, rfl, .inl ⟨_, List.mem_cons_self, rfl, List.mem_cons_self⟩⟩
  have hmake : defaultsSample.Offers _ :=
    .inr ⟨_, List.mem_cons_self, rfl, .inr List.mem_cons_self⟩
  obtain ⟨_, _, hlast, _⟩ := callShapes_complete hvalid hresize
  obtain ⟨_, _, _, hlength, _⟩ := callShapes_complete hvalid hscale
  obtain ⟨_, harities, _⟩ := callShapes_complete hvalid hmake
  exact ⟨hvalid, _, _, _, hresize, hscale, hmake, rfl, rfl, rfl, hlast, hlength, harities⟩

end Database

end ScriptBindings
