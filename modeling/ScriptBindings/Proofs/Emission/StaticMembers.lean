import ScriptBindings.Emission.Class
import ScriptBindings.Proofs.Emission.Expression

namespace ScriptBindings

variable {className : String} {f : Callable} {s : Signature} {ss : List Signature}

theorem candidatesOf_congr {target other : Signature → CallTarget}
    (h : ∀ s ∈ ss, target s = other s) : candidatesOf target ss = candidatesOf other ss := by
  unfold candidatesOf
  apply List.flatMap_congr
  intro s hs
  rw [h s hs]

theorem CallTarget.address_ofMethod (className method : String) (s : Signature) :
    (ofMethod className method (Scope.member className method) s).address =
      "&" ++ Scope.member className method := by
  unfold ofMethod
  split
  · rfl
  · rfl

namespace Callable

theorem candidatesOf_static (className method path : String) (h : ∀ s ∈ ss, s.isStatic = true) :
    candidatesOf (.ofMethod className method path) ss = candidatesOf (fun _ => .free path) ss := by
  apply candidatesOf_congr
  intro s hs
  rw [CallTarget.ofMethod, if_pos (h s hs)]

theorem methodExpression_static (adapter : Adapter) (hf : f.isBindable = true)
    (h : ∀ s ∈ f.boundSignatures, s.isStatic = true) :
    Class.methodExpression adapter className f f.boundSignatures =
      f.expression adapter (Scope.member className f.name) := by
  have hcandidates := candidatesOf_static className f.name (Scope.member className f.name) h
  cases f with
  | overloaded set => exact congrArg adapter.merge hcandidates
  | single s =>
    -- A single declaration that is bindable is the one signature that is bound.
    rw [expression, candidates, ← hcandidates,
      eq_of_sublist_single (boundSignatures_ne_nil hf) (.refl _)]
    simp only [Class.methodExpression, isPlain]
    by_cases hdefaults : s.hasDefaults = true
    · simp only [hdefaults, if_true, Bool.not_true, Bool.false_eq_true, if_false]
    · simp only [Bool.not_eq_true] at hdefaults
      simp only [hdefaults, Bool.false_eq_true, if_false, Bool.not_false, if_true]

/-- A static method that is no operator is bound like the free function at its path, whether it is
declared once or overloaded, with or without default values or hidden overloads. The candidates of a
method, static or not, all take the address of that path. -/
theorem static_bound_free (adapter : Adapter) (className : String) (f : Callable) :
    (f.isBindable = true → Operator.token? f.name = none →
      (∀ s ∈ f.boundSignatures, s.isStatic = true) → ∀ usertype key,
        (Class.methodStatements adapter className usertype key f).outcome =
          .ok [adapter.bindMember usertype f.name
            (f.expression adapter (Scope.member className f.name))]) ∧
      ∀ s ∈ f.boundSignatures,
        (CallTarget.ofMethod className f.name (Scope.member className f.name) s).address =
          "&" ++ Scope.member className f.name := by
  constructor
  · intro hf htoken hstatic usertype key
    rw [Class.methodStatements, if_pos hf, htoken, ← methodExpression_static adapter hf hstatic]
    rfl
  · intro s _
    exact CallTarget.address_ofMethod className f.name s

/-- A static method with defaults in one overload, and a hidden overload that is not static. -/
def lerpSample : Callable :=
  .overloaded {
    name := "lerp"
    overloads := [
      { name := "lerp", returnType := "float", isStatic := true,
        parameters := [⟨"a", "float", none⟩, ⟨"t", "float", some "0.5f"⟩] },
      { name := "lerp", returnType := "int", isStatic := true,
        parameters := [⟨"a", "int", none⟩] },
      { name := "lerp", returnType := "void", flags := ⟨true⟩ }] }

theorem lerpSample_bound_free :
    lerpSample.isBindable = true ∧ Operator.token? lerpSample.name = none ∧
      (∀ s ∈ lerpSample.boundSignatures, s.isStatic = true) ∧
      (Class.methodStatements .sol3 "ns::Math" "bindMath" "lerp" lerpSample).outcome =
        .ok [Adapter.sol3.bindMember "bindMath" "lerp"
          (lerpSample.expression .sol3 "ns::Math::lerp")] := by
  have hbindable : lerpSample.isBindable = true := rfl
  have htoken : Operator.token? lerpSample.name = none := by decide
  have hstatic : ∀ s ∈ lerpSample.boundSignatures, s.isStatic = true := by decide
  exact ⟨hbindable, htoken, hstatic,
    (static_bound_free .sol3 "ns::Math" lerpSample).1 hbindable htoken hstatic "bindMath" "lerp"⟩

end Callable

end ScriptBindings
