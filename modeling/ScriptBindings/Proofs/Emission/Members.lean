import ScriptBindings.Proofs.Emission
import ScriptBindings.Proofs.Emission.Expression
import ScriptBindings.Proofs.Emission.Operators

namespace ScriptBindings

section Lists

variable {α β : Type} {as : List α} {bs : List (List β)}

theorem exists_forall₂_filter {p : α → Bool} {R : α → List β → Prop}
    (h : List.Forall₂ (fun a b => if p a then R a b else b = []) as bs) :
    ∃ cs, List.Forall₂ R (as.filter p) cs ∧ bs.flatten = cs.flatten := by
  induction h with
  | nil => exact ⟨[], .nil, rfl⟩
  | @cons a b as bs hab _ ih =>
    obtain ⟨cs, hall, hflatten⟩ := ih
    cases hp : p a with
    | true =>
      rw [hp, if_pos rfl] at hab
      rw [List.filter_cons_of_pos hp]
      exact ⟨b :: cs, .cons hab hall, congrArg (b ++ ·) hflatten⟩
    | false =>
      simp only [hp] at hab
      rw [List.filter_cons_of_neg (by simp [hp]), hab]
      exact ⟨cs, hall, hflatten⟩

theorem flatten_eq_map {f : α → β} (h : List.Forall₂ (fun a b => b = [f a]) as bs) :
    bs.flatten = as.map f := by
  induction h with
  | nil => rfl
  | cons hab _ ih => rw [List.flatten_cons, hab, ih, List.map_cons, List.singleton_append]

end Lists

namespace Class

/-- The statement binds signatures of a method under a meta-function. -/
def BindsUnder (adapter : Adapter) (className usertype : String) (m : Callable)
    (g : String × List Signature) (statement : String) : Prop :=
  ∃ e, statement = adapter.bindMetaFunction usertype g.1 e ∧
    m.Bound adapter (Scope.member className m.name)
      (.ofMethod className m.name (Scope.member className m.name)) g.2 e

/-- The statements that bind a method. -/
inductive BindsMethod (adapter : Adapter) (className usertype : String) (m : Callable) :
    List String → Prop
  | member {e : String} (h : Operator.token? m.name = none)
      (he : m.Bound adapter (Scope.member className m.name)
        (.ofMethod className m.name (Scope.member className m.name)) m.boundSignatures e) :
      BindsMethod adapter className usertype m [adapter.bindMember usertype m.name e]
  | operator {token : String} {groups : List (String × List Signature)} {statements : List String}
      (h : Operator.token? m.name = some token)
      (hgroups : Splits adapter token m.boundSignatures groups)
      (hstatements : List.Forall₂ (BindsUnder adapter className usertype m) groups statements) :
      BindsMethod adapter className usertype m statements

variable {adapter : Adapter} {className usertype key token : String} {m : Callable}

/-- An operator is bound by one statement under each meta-function, in the order of first use. -/
theorem BindsMethod.exists_keyed {statements : List String}
    (h : BindsMethod adapter className usertype m statements)
    (htoken : Operator.token? m.name = some token) :
    List.Forall₂ (fun key statement => ∃ e, statement = adapter.bindMetaFunction usertype key e)
      (m.boundSignatures.filterMap (keyOf? adapter token)).eraseDups statements := by
  cases h with
  | member hnone =>
    rw [hnone] at htoken
    cases htoken
  | operator hsome hgroups hstatements =>
    obtain rfl := Option.some.inj (hsome.symm.trans htoken)
    rw [← hgroups.keys_eq, List.forall₂_map_left_iff]
    apply hstatements.imp
    rintro g _ ⟨e, rfl, _⟩
    exact ⟨e, rfl⟩

theorem operatorStatements_binds {statements : List String}
    (htoken : Operator.token? m.name = some token)
    (h : (operatorStatements adapter className usertype token m).outcome = .ok statements) :
    BindsMethod adapter className usertype m statements := by
  obtain ⟨groups, hsplits, rfl⟩ := exists_splits h
  apply BindsMethod.operator htoken hsplits
  rw [List.forall₂_map_right_iff, List.forall₂_same]
  intro g hg
  have hsublist : g.2.Sublist m.boundSignatures := by
    rw [hsplits.signatures_eq g hg]
    exact List.filter_sublist
  exact ⟨_, rfl, Callable.methodExpression_bound adapter className
    (hsplits.signatures_ne_nil hg) hsublist⟩

theorem methodStatements_binds {statements : List String} (hm : m.isBindable = true)
    (h : (methodStatements adapter className usertype key m).outcome = .ok statements) :
    BindsMethod adapter className usertype m statements := by
  rw [methodStatements, if_pos hm] at h
  cases htoken : Operator.token? m.name with
  | some token =>
    simp only [htoken] at h
    exact operatorStatements_binds htoken h
  | none =>
    simp only [htoken] at h
    obtain rfl := Except.ok.inj h
    exact .member htoken (Callable.methodExpression_bound adapter className
      (Callable.boundSignatures_ne_nil hm) (.refl _))

theorem outcome_methodStatements_skipped (hm : m.isBindable = false) :
    (methodStatements adapter className usertype key m).outcome = .ok [] := by
  rw [methodStatements, hm]
  rfl

/-- A signature of a bindable operator that cannot be bound. -/
def IsBlocked (adapter : Adapter) (m : Callable) : Prop :=
  m.isBindable = true ∧ ∃ token, Operator.token? m.name = some token ∧
    ∃ s ∈ m.boundSignatures, IsStranded adapter token s

theorem exists_methodStatements_iff :
    (∃ b, (methodStatements adapter className usertype key m).outcome = .ok b) ↔
      ¬ IsBlocked adapter m := by
  unfold methodStatements IsBlocked
  cases m.isBindable with
  | false => simp
  | true =>
    cases Operator.token? m.name with
    | none => simp
    | some token =>
      simp only [if_true, exists_operatorStatements_iff, true_and, Option.some.injEq]
      simp

variable {path : String} {c : Class}

/-- The statement that binds an attribute. -/
def attributeStatement (adapter : Adapter) (path : String) (c : Class) (a : Attribute) : String :=
  adapter.bindMember (c.usertype adapter) a.name ("&" ++ Scope.member path a.name)

theorem outcome_attributeStatements (a : Attribute) :
    (attributeStatements adapter path (c.usertype adapter) key a).outcome =
      .ok (if a.flags.nobind then [] else [attributeStatement adapter path c a]) := by
  unfold attributeStatements
  cases a.flags.nobind with
  | true => rfl
  | false => rfl

theorem exists_statements_iff :
    (∃ b, (c.statements adapter path).outcome = .ok b) ↔
      ∀ m ∈ c.methods.values, ¬ IsBlocked adapter m := by
  have hattributes : ∃ b, (Run.collect (fun e : String × Attribute =>
      attributeStatements adapter path (c.usertype adapter) e.1 e.2)
      c.attributes.entries).outcome = .ok b := by
    rw [Run.exists_outcome_collect_iff]
    intro e _
    exact ⟨_, outcome_attributeStatements e.2⟩
  obtain ⟨attributes, hattributes⟩ := hattributes
  -- Attributes never fail, so it is left to the methods whether the class does.
  have hmethods : (∃ b, (c.statements adapter path).outcome = .ok b) ↔
      ∃ b, (Run.collect (fun e : String × Callable =>
        methodStatements adapter path (c.usertype adapter) e.1 e.2)
        c.methods.entries).outcome = .ok b := by
    constructor
    · rintro ⟨_, h⟩
      obtain ⟨methods, h, _⟩ := Run.outcome_bind_eq_ok.mp h
      exact ⟨methods, h⟩
    · rintro ⟨methods, h⟩
      exact ⟨_, Run.outcome_bind_eq_ok.mpr
        ⟨methods, h, Run.outcome_bind_eq_ok.mpr ⟨attributes, hattributes, rfl⟩⟩⟩
  rw [hmethods, Run.exists_outcome_collect_iff, Dictionary.values, List.forall_mem_map]
  apply forall₂_congr
  intro e _
  exact exists_methodStatements_iff

theorem statements_binds {statements : List String}
    (h : (c.statements adapter path).outcome = .ok statements) :
    ∃ blocks,
      List.Forall₂ (BindsMethod adapter path (c.usertype adapter))
        (c.methods.values.filter Callable.isBindable) blocks ∧
      statements = c.declaration adapter path ++ blocks.flatten ++
        (c.attributes.values.filter fun a => !a.flags.nobind).map
          (attributeStatement adapter path c) := by
  obtain ⟨methods, hmethods, h⟩ := Run.outcome_bind_eq_ok.mp h
  obtain ⟨attributes, hattributes, h⟩ := Run.outcome_bind_eq_ok.mp h
  obtain rfl := Except.ok.inj h
  have hblocks : List.Forall₂ (fun (m : Callable) b =>
      if m.isBindable then BindsMethod adapter path (c.usertype adapter) m b else b = [])
      c.methods.values methods := by
    rw [Dictionary.values, List.forall₂_map_left_iff]
    apply (Run.outcome_collect_eq_ok.mp hmethods).imp
    intro e b hb
    split
    · rename_i hm
      exact methodStatements_binds hm hb
    · rename_i hm
      rw [outcome_methodStatements_skipped (Bool.eq_false_iff.mpr hm)] at hb
      exact (Except.ok.inj hb).symm
  have hbound : List.Forall₂ (fun (a : Attribute) b =>
      if !a.flags.nobind then b = [attributeStatement adapter path c a] else b = [])
      c.attributes.values attributes := by
    rw [Dictionary.values, List.forall₂_map_left_iff]
    apply (Run.outcome_collect_eq_ok.mp hattributes).imp
    intro e b hb
    rw [outcome_attributeStatements] at hb
    obtain rfl := Except.ok.inj hb
    cases e.2.flags.nobind with
    | true => rfl
    | false => rfl
  obtain ⟨blocks, hall, hflatten⟩ := exists_forall₂_filter hblocks
  obtain ⟨members, hmembers, hattributes⟩ := exists_forall₂_filter hbound
  refine ⟨blocks, hall, ?_⟩
  rw [hflatten, hattributes, flatten_eq_map hmembers]

/-- A visible class is bound by the declaration of its user type, what binds each bindable method,
and one statement for each visible attribute. Its emission fails exactly where a bound signature of
an operator has an unknown token, or an identifier without meta-function that the runtime does not
derive. -/
theorem emit_binds_members (adapter : Adapter) (path : String) {c : Class}
    (h : c.flags.nobind = false) :
    (∀ b, (c.emit adapter path).outcome = .ok b → ∃ blocks,
      List.Forall₂ (BindsMethod adapter path (c.usertype adapter))
        (c.methods.values.filter Callable.isBindable) blocks ∧
      b = .single [c.location] (.of adapter c.object
        (adapter.fetchTable (tableOf path) ::
          adapter.newUsertype (adapter.tableVariable (tableOf path)) (c.usertype adapter) c.name
            path (c.constructorList path) c.bases ::
          (blocks.flatten ++ (c.attributes.values.filter fun a => !a.flags.nobind).map fun a =>
            adapter.bindMember (c.usertype adapter) a.name ("&" ++ Scope.member path a.name))))) ∧
      ((∃ e, (c.emit adapter path).outcome = .error e) ↔
        ∃ m ∈ c.methods.values, m.isBindable = true ∧
          ∃ token, Operator.token? m.name = some token ∧
            ∃ s ∈ m.boundSignatures, IsStranded adapter token s) := by
  constructor
  · intro b hb
    rcases outcome_emit_eq_ok.mp hb with ⟨hhidden, _⟩ | ⟨_, statements, hs, rfl⟩
    · rw [h] at hhidden
      cases hhidden
    · obtain ⟨blocks, hall, rfl⟩ := statements_binds hs
      exact ⟨blocks, hall, rfl⟩
  · have hemit : (∃ b, (c.emit adapter path).outcome = .ok b) ↔
        ∃ b, (c.statements adapter path).outcome = .ok b := by
      simp [outcome_emit_eq_ok, h]
    rw [Run.exists_eq_error_iff, hemit, exists_statements_iff]
    simp only [IsBlocked, not_forall, not_not, exists_prop]

/-- A class with both forms of one operator, and with one that its runtime derives. -/
def vectorSample : Class where
  name := "Vec"
  location := "include/vec.hpp"
  methods := .ofEntries [
    ("minus", .overloaded {
      name := "operator-"
      overloads := [
        { name := "operator-", returnType := "ns::Vec",
          parameters := [⟨"other", "ns::Vec", none⟩] },
        { name := "operator-", returnType := "ns::Vec" }] }),
    ("differs", .single {
      name := "operator!=", returnType := "bool", parameters := [⟨"other", "ns::Vec", none⟩] }),
    ("length", .single { name := "length", returnType := "float" })]
  attributes := .ofEntries [
    ("x", { name := "x", type := "float" }), ("raw", { name := "raw", flags := ⟨true⟩ })]

/-- A class with an operator that its runtime does not know. -/
def counterSample : Class where
  name := "Counter"
  methods := .ofEntries [
    ("next", .single { name := "operator++", returnType := "ns::Counter" })]

theorem vectorSample_binds_members :
    vectorSample.flags.nobind = false ∧ counterSample.flags.nobind = false ∧
      (∃ b blocks e e', (vectorSample.emit .sol3 "ns::Vec").outcome = .ok b ∧
        List.Forall₂ (BindsMethod .sol3 "ns::Vec" "bindVec") vectorSample.methods.values blocks ∧
        blocks.head? = some
          [Adapter.sol3.bindMetaFunction "bindVec" "sol::meta_function::subtraction" e,
            Adapter.sol3.bindMetaFunction "bindVec" "sol::meta_function::unary_minus" e'] ∧
        b = .single ["include/vec.hpp"] (.of .sol3 "ClassVec"
          (Adapter.sol3.fetchTable ["ns"] ::
            Adapter.sol3.newUsertype "nsNamespace" "bindVec" "Vec" "ns::Vec" [] [] ::
            (blocks.flatten ++ [Adapter.sol3.bindMember "bindVec" "x" "&ns::Vec::x"])))) ∧
      ∃ e, (counterSample.emit .sol3 "ns::Counter").outcome = .error e := by
  have hvector : vectorSample.flags.nobind = false := rfl
  have hcounter : counterSample.flags.nobind = false := rfl
  obtain ⟨hbinds, _⟩ := emit_binds_members .sol3 "ns::Vec" hvector
  obtain ⟨_, hfails⟩ := emit_binds_members .sol3 "ns::Counter" hcounter
  refine ⟨hvector, hcounter, ?_, hfails.mpr ?_⟩
  · have hok : (vectorSample.emit .sol3 "ns::Vec").outcome.isOk = true := by decide +kernel
    cases hb : (vectorSample.emit .sol3 "ns::Vec").outcome with
    | error e =>
      rw [hb] at hok
      cases hok
    | ok b =>
      obtain ⟨blocks, hall, heq⟩ := hbinds b hb
      cases hall with
      | @cons _ minus _ blocks hminus hrest =>
        have hkeyed : List.Forall₂ _
            ["sol::meta_function::subtraction", "sol::meta_function::unary_minus"] minus :=
          hminus.exists_keyed (rfl : _ = some "-")
        obtain _ | ⟨⟨e, rfl⟩, _ | ⟨⟨e', rfl⟩, _ | _⟩⟩ := hkeyed
        exact ⟨b, _, e, e', rfl, .cons hminus hrest, rfl, heq⟩
  · refine ⟨_, List.mem_cons_self, rfl, "++", by decide, _, List.mem_cons_self, .inr ?_⟩
    exact ⟨"increment", rfl, rfl, rfl⟩

end Class

end ScriptBindings
