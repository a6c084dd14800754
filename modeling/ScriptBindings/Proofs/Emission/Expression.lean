import ScriptBindings.Adapter.Sol3
import ScriptBindings.Emission.Class
import ScriptBindings.Proofs.CallShape
import ScriptBindings.Proofs.Outcome

namespace ScriptBindings

/-- What the candidates of a signature are: one cast if no parameter has a default value, and else
wrappers that pass leading parameters, in an accepted signature one for each number of them. -/
structure Signature.Expands (s : Signature) (target : CallTarget) (cs : List Candidate) : Prop where
  ne_nil : cs ≠ []
  cast : s.hasDefaults = false → cs = [.ofCast target s]
  wrapper : s.hasDefaults = true → ∀ c ∈ cs, c = .ofShape target s (s.parameters.take c.arity)
  arities : ∀ entity needsReturn, s.validate entity needsReturn = .ok () →
    cs.map Candidate.arity =
        List.range' s.mandatoryCount (s.parameters.countP Parameter.hasDefault + 1) ∧
      s.mandatoryCount + s.parameters.countP Parameter.hasDefault = s.parameters.length

/-- The candidates of some signatures, one signature after the other. -/
inductive Expansion (target : Signature → CallTarget) : List Signature → List Candidate → Prop
  | nil : Expansion target [] []
  | cons {s : Signature} {ss : List Signature} {cs ds : List Candidate}
      (h : s.Expands (target s) cs) (hs : Expansion target ss ds) :
      Expansion target (s :: ss) (cs ++ ds)

def CandidateForm.opening : CandidateForm → String
  | .cast => "static_cast<"
  | .wrapper => "[]("

/-- The code is a cast or a lambda, as its form says. -/
def Candidate.IsExplicit (c : Candidate) : Prop :=
  ∃ rest, c.code = c.form.opening ++ rest

/-- The expressions under which an adapter binds some signatures of the callable at `path`. -/
inductive Callable.Bound (f : Callable) (adapter : Adapter) (path : String)
    (target : Signature → CallTarget) (ss : List Signature) : String → Prop
  | address (h : f.isPlain = true) : Bound f adapter path target ss ("&" ++ path)
  | sole {c : Candidate} (h : f.isPlain = false) (hc : Expansion target ss [c])
      (hexplicit : c.IsExplicit ∧ c.code ≠ "&" ++ path) : Bound f adapter path target ss c.code
  | overload {cs : List Candidate} (h : f.isPlain = false) (hcs : Expansion target ss cs)
      (hlength : 2 ≤ cs.length) (hexplicit : ∀ c ∈ cs, c.IsExplicit ∧ c.code ≠ "&" ++ path) :
      Bound f adapter path target ss (adapter.overload (cs.map Candidate.code))

theorem Candidate.IsExplicit.ne_address {c : Candidate} (h : c.IsExplicit) (path : String) :
    c.code ≠ "&" ++ path := by
  obtain ⟨rest, hrest⟩ := h
  intro heq
  have hlist := congrArg String.toList (hrest.symm.trans heq)
  rw [String.toList_append, String.toList_append] at hlist
  generalize c.form = form at hlist
  cases form with
  | cast => simp [CandidateForm.opening] at hlist
  | wrapper => simp [CandidateForm.opening] at hlist

theorem Candidate.ofCast_explicit (target : CallTarget) (s : Signature) :
    (ofCast target s).IsExplicit :=
  ⟨_, castCode_eq target s⟩

theorem Candidate.ofShape_explicit (target : CallTarget) (s : Signature) (shape : CallShape) :
    (ofShape target s shape).IsExplicit := by
  cases target with
  | free path => exact ⟨_, wrapperCode_free path s shape⟩
  | member className method => exact ⟨_, wrapperCode_member className method s shape⟩

namespace Signature

variable {s : Signature} {target : CallTarget} {cs : List Candidate}

theorem callShapes_ne_nil (s : Signature) : s.callShapes ≠ [] := by
  have hlength := s.length_callShapes
  have hle := s.mandatoryCount_le
  intro h
  rw [h, List.length_nil] at hlength
  omega

theorem countP_of_no_defaults (h : s.hasDefaults = false) :
    s.parameters.countP Parameter.hasDefault = 0 := by
  rw [List.countP_eq_zero]
  intro p hp hdefault
  have hany : s.hasDefaults = true := List.any_eq_true.mpr ⟨p, hp, hdefault⟩
  rw [h] at hany
  cases hany

theorem map_arity_candidates (h : s.OptionalFrom s.mandatoryCount) :
    (s.candidates target).map Candidate.arity =
      List.range' s.mandatoryCount (s.parameters.countP Parameter.hasDefault + 1) := by
  have hcount := mandatoryCount_add_countP h
  unfold candidates
  cases hdefaults : s.hasDefaults with
  | false =>
    have hzero := countP_of_no_defaults hdefaults
    have hfull : s.parameters.length = s.mandatoryCount := by omega
    simp [Candidate.ofCast, hzero, hfull]
  | true =>
    have hlength : s.parameters.length + 1 - s.mandatoryCount =
        s.parameters.countP Parameter.hasDefault + 1 := by omega
    rw [← hlength, ← map_arity_callShapes, if_pos rfl, List.map_map]
    rfl

theorem candidates_expands (s : Signature) (target : CallTarget) :
    s.Expands target (s.candidates target) := by
  constructor
  case ne_nil =>
    unfold candidates
    split
    · exact mt List.map_eq_nil_iff.mp s.callShapes_ne_nil
    · exact List.cons_ne_nil _ _
  case cast =>
    intro h
    rw [candidates, h]
    rfl
  case wrapper =>
    intro h c hc
    rw [candidates, if_pos h] at hc
    obtain ⟨shape, hshape, rfl⟩ := List.mem_map.mp hc
    exact congrArg (Candidate.ofShape target s) (eq_take_of_mem_callShapes hshape)
  case arities =>
    intro entity needsReturn h
    have hoptional := optionalFrom_mandatoryCount (validate_eq_ok.mp h)
    exact ⟨map_arity_candidates hoptional, mandatoryCount_add_countP hoptional⟩

theorem Expands.explicit (h : s.Expands target cs) {c : Candidate} (hc : c ∈ cs) :
    c.IsExplicit := by
  cases hdefaults : s.hasDefaults with
  | false =>
    rw [h.cast hdefaults, List.mem_singleton] at hc
    subst c
    exact Candidate.ofCast_explicit target s
  | true =>
    rw [h.wrapper hdefaults c hc]
    exact Candidate.ofShape_explicit target s _

end Signature

namespace Expansion

variable {target : Signature → CallTarget} {ss : List Signature} {cs : List Candidate}

theorem candidatesOf (target : Signature → CallTarget) (ss : List Signature) :
    Expansion target ss (candidatesOf target ss) := by
  induction ss with
  | nil => exact .nil
  | cons s ss ih => exact .cons (s.candidates_expands (target s)) ih

theorem explicit (h : Expansion target ss cs) : ∀ c ∈ cs, c.IsExplicit := by
  induction h with
  | nil =>
    intro c hc
    cases hc
  | cons hs _ ih =>
    intro c hc
    rcases List.mem_append.mp hc with hc | hc
    · exact hs.explicit hc
    · exact ih c hc

theorem ne_nil (h : Expansion target ss cs) (hss : ss ≠ []) : cs ≠ [] := by
  cases h with
  | nil => exact absurd rfl hss
  | cons hs _ => exact List.append_ne_nil_of_left_ne_nil hs.ne_nil _

end Expansion

namespace Callable

variable {f : Callable} (adapter : Adapter) (path : String) (target : Signature → CallTarget)
  {ss : List Signature}

theorem merge_bound (h : f.isPlain = false) (hss : ss ≠ []) :
    f.Bound adapter path target ss (adapter.merge (candidatesOf target ss)) := by
  have hexpansion := Expansion.candidatesOf target ss
  have hne := hexpansion.ne_nil hss
  have hexplicit : ∀ c ∈ candidatesOf target ss, c.IsExplicit ∧ c.code ≠ "&" ++ path := by
    intro c hc
    have hc := hexpansion.explicit c hc
    exact ⟨hc, hc.ne_address path⟩
  generalize candidatesOf target ss = cs at hexpansion hne hexplicit
  -- The cases are those of the merge; without candidates there would be nothing to bind.
  match cs with
  | [] => exact absurd rfl hne
  | [c] => exact .sole h hexpansion (hexplicit c List.mem_cons_self)
  | _ :: _ :: _ => exact .overload h hexpansion (Nat.le_add_left 2 _) hexplicit

theorem boundSignatures_ne_nil (h : f.isBindable = true) : f.boundSignatures ≠ [] := by
  have hsome := (Bool.and_eq_true_iff.mp h).2
  intro hnil
  rw [hnil] at hsome
  cases hsome

theorem eq_of_sublist_single {s : Signature} (hss : ss ≠ [])
    (h : ss.Sublist (single s).boundSignatures) : ss = [s] := by
  have hone : ss.Sublist [s] := h.trans List.filter_sublist
  rcases List.sublist_singleton.mp hone with hnil | hsingle
  · exact absurd hnil hss
  · exact hsingle

theorem methodExpression_bound (className : String) (hss : ss ≠ [])
    (h : ss.Sublist f.boundSignatures) :
    f.Bound adapter (Scope.member className f.name)
      (.ofMethod className f.name (Scope.member className f.name)) ss
      (Class.methodExpression adapter className f ss) := by
  cases f with
  | overloaded set => exact merge_bound adapter _ _ rfl hss
  | single s =>
    rw [eq_of_sublist_single hss h]
    simp only [Class.methodExpression]
    split
    · rename_i hdefaults
      have hplain : (single s).isPlain = false := by rw [isPlain, hdefaults, Bool.not_true]
      exact merge_bound adapter _ _ hplain (List.cons_ne_nil s [])
    · rename_i hdefaults
      have hplain : (single s).isPlain = true := by
        rw [isPlain, Bool.eq_false_iff.mpr hdefaults, Bool.not_false]
      exact .address hplain

-- An overload set of which one member is visible is still overloaded where it is declared.
example :
    (Callable.overloaded {
      name := "pick"
      overloads := [
        { name := "pick", returnType := "int", parameters := [⟨"index", "int", none⟩] },
        { name := "pick", flags := ⟨true⟩ }] }).expression .sol3 "ns::pick" =
      "static_cast<int (*)(int)>(&ns::pick)" := by
  decide

end Callable

end ScriptBindings
