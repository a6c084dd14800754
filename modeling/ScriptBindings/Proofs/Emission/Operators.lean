import ScriptBindings.Emission.Class
import ScriptBindings.Proofs.Dictionary
import ScriptBindings.Proofs.Outcome

namespace ScriptBindings

open Operator (memberIdentifier)

namespace Class

/-- The meta-function under which a signature of the operator `token` is bound. -/
def keyOf? (adapter : Adapter) (token : String) (s : Signature) : Option String :=
  (memberIdentifier token (isUnary s)).toOption.bind adapter.metaFunction

/-- The runtime itself provides what a signature of the operator `token` would be bound as. -/
def IsDerived (adapter : Adapter) (token : String) (s : Signature) : Prop :=
  ∃ identifier, memberIdentifier token (isUnary s) = .ok identifier ∧
    adapter.metaFunction identifier = none ∧ adapter.derives identifier = true

/-- A signature of an operator without identifier, or with one that the runtime does not know. -/
def IsStranded (adapter : Adapter) (token : String) (s : Signature) : Prop :=
  token ∉ Operator.table.map Prod.fst ∨
    ∃ identifier, memberIdentifier token (isUnary s) = .ok identifier ∧
      adapter.metaFunction identifier = none ∧ adapter.derives identifier = false

/-- Signatures of the operator `token`, split by their meta-functions: these stand in the order of
their first use, and under each the signatures keep their order. -/
structure Splits (adapter : Adapter) (token : String) (ss : List Signature)
    (groups : List (String × List Signature)) : Prop where
  filed : groups = (Dictionary.fileAll (keyOf? adapter token) ss).entries
  keys_eq : groups.map Prod.fst = (ss.filterMap (keyOf? adapter token)).eraseDups
  nodup : (groups.map Prod.fst).Nodup
  signatures_eq : ∀ g ∈ groups, g.2 = ss.filter fun s => keyOf? adapter token s = some g.1
  derived : ∀ s ∈ ss, keyOf? adapter token s = none → IsDerived adapter token s

end Class

namespace Operator

theorem exists_identifier_iff {token : String} :
    (∃ i, identifier token = .ok i) ↔ token ∈ table.map Prod.fst := by
  have hlookup : (∃ i, identifier token = .ok i) ↔ (table.lookup token).isSome = true := by
    unfold identifier
    cases table.lookup token with
    | none => simp
    | some i => simp
  rw [hlookup, List.lookup_isSome_iff, List.mem_map]
  apply exists_congr
  intro p
  rw [beq_iff_eq, eq_comm]

theorem exists_memberIdentifier_iff {token : String} (unary : Bool) :
    (∃ i, memberIdentifier token unary = .ok i) ↔ token ∈ table.map Prod.fst := by
  unfold memberIdentifier
  split
  · rename_i h
    have htoken : token = "-" := by simpa using (Bool.and_eq_true_iff.mp h).2
    simp [htoken, table]
  · split
    · rename_i h
      have htoken : token = "+" := by simpa using (Bool.and_eq_true_iff.mp h).2
      simp [htoken, table]
    · exact exists_identifier_iff

end Operator

namespace Class

variable {adapter : Adapter} {className usertype methodPath token : String} {s : Signature}
  {m : Callable}

theorem isUnary_iff : isUnary s = true ↔ s.isStatic = false ∧ s.parameters = [] := by
  rw [isUnary, Bool.and_eq_true, Bool.not_eq_true', List.isEmpty_iff]

theorem metaKey_eq_ok {k : Option String} :
    (metaKey adapter methodPath token s).outcome = .ok k ↔
      ∃ identifier, memberIdentifier token (isUnary s) = .ok identifier ∧
        adapter.metaFunction identifier = k ∧ (k = none → adapter.derives identifier = true) := by
  unfold metaKey
  rw [Run.outcome_bind_eq_ok]
  apply exists_congr
  intro identifier
  apply and_congr
  · rw [Run.outcome_ofExcept]
    cases memberIdentifier token (isUnary s) with
    | error e => simp [Except.mapError]
    | ok i => simp [Except.mapError]
  · cases adapter.metaFunction identifier with
    | some key =>
      rw [Run.outcome_ok, Except.ok.injEq, iff_self_and]
      rintro rfl hnone
      cases hnone
    | none =>
      cases adapter.derives identifier with
      | true => simp
      | false => simp [eq_comm]

/-- The key of a signature that can be bound depends on its operator and on whether it is unary. -/
theorem keyOf?_of_metaKey {k : Option String}
    (h : (metaKey adapter methodPath token s).outcome = .ok k) :
    keyOf? adapter token s = k ∧ (k = none → IsDerived adapter token s) := by
  obtain ⟨identifier, hidentifier, hkey, hderives⟩ := metaKey_eq_ok.mp h
  constructor
  · rw [keyOf?, hidentifier]
    exact hkey
  · intro hk
    exact ⟨identifier, hidentifier, hkey.trans hk, hderives hk⟩

theorem exists_metaKey_iff :
    (∃ k, (metaKey adapter methodPath token s).outcome = .ok k) ↔
      ¬ IsStranded adapter token s := by
  rw [IsStranded, ← Operator.exists_memberIdentifier_iff (isUnary s), not_or, not_not]
  constructor
  · rintro ⟨k, h⟩
    obtain ⟨identifier, hidentifier, hkey, hderives⟩ := metaKey_eq_ok.mp h
    refine ⟨⟨identifier, hidentifier⟩, ?_⟩
    rintro ⟨other, hother, hnone, hfalse⟩
    obtain rfl : identifier = other := Except.ok.inj (hidentifier.symm.trans hother)
    rw [hderives (hkey.symm.trans hnone)] at hfalse
    cases hfalse
  · rintro ⟨⟨identifier, hidentifier⟩, hstranded⟩
    refine ⟨adapter.metaFunction identifier, metaKey_eq_ok.mpr ⟨identifier, hidentifier, rfl, ?_⟩⟩
    intro hnone
    rw [← Bool.not_eq_false]
    intro hfalse
    exact hstranded ⟨identifier, hidentifier, hnone, hfalse⟩

theorem groupByKey_map (f : Signature → Option String) (ss : List Signature) :
    groupByKey ((ss.map f).zip ss) = (Dictionary.fileAll f ss).entries := by
  rw [Dictionary.entries_fileAll, ← List.map_prod_right_eq_zip, groupByKey, List.filterMap_map]
  apply List.map_congr_left
  intro k _
  simp only [List.filter_map, List.map_map, Function.comp_def, List.map_id', beq_eq_decide]

theorem splits_fileAll {ss : List Signature}
    (h : ∀ s ∈ ss, keyOf? adapter token s = none → IsDerived adapter token s) :
    Splits adapter token ss (Dictionary.fileAll (keyOf? adapter token) ss).entries := by
  constructor
  case filed => rfl
  case keys_eq => exact Dictionary.keys_fileAll _ ss
  case nodup => exact Dictionary.nodup _
  case signatures_eq =>
    intro g hg
    rw [Dictionary.entries_fileAll] at hg
    obtain ⟨k, _, rfl⟩ := List.mem_map.mp hg
    rfl
  case derived => exact h

theorem Splits.signatures_ne_nil {ss : List Signature} {groups : List (String × List Signature)}
    (h : Splits adapter token ss groups) {g : String × List Signature} (hg : g ∈ groups) :
    g.2 ≠ [] := by
  have hkey : g.1 ∈ ss.filterMap (keyOf? adapter token) := by
    rw [← List.mem_eraseDups, ← h.keys_eq]
    exact List.mem_map_of_mem hg
  obtain ⟨s, hs, hkey⟩ := List.mem_filterMap.mp hkey
  rw [h.signatures_eq g hg]
  exact List.ne_nil_of_mem (List.mem_filter.mpr ⟨hs, decide_eq_true hkey⟩)

/-- The statements of an operator stand for the groups into which its signatures are split. -/
theorem exists_splits {statements : List String}
    (h : (operatorStatements adapter className usertype token m).outcome = .ok statements) :
    ∃ groups, Splits adapter token m.boundSignatures groups ∧
      statements = groups.map fun g =>
        adapter.bindMetaFunction usertype g.1 (methodExpression adapter className m g.2) := by
  obtain ⟨keys, hkeys, h⟩ := Run.outcome_bind_eq_ok.mp h
  have hall := Run.outcome_collect_eq_ok.mp hkeys
  -- Each signature has been given the key that its operator and its operands decide.
  have hmap : keys = m.boundSignatures.map (keyOf? adapter token) := by
    rw [← List.forall₂_eq_eq_eq, List.forall₂_map_right_iff]
    exact hall.flip.imp fun _ _ h => (keyOf?_of_metaKey h).1.symm
  have hderived : ∀ s ∈ m.boundSignatures, keyOf? adapter token s = none →
      IsDerived adapter token s := by
    intro s hs hnone
    obtain ⟨k, _, hk⟩ := Run.exists_result_of_mem hkeys hs
    obtain ⟨heq, hderived⟩ := keyOf?_of_metaKey hk
    exact hderived (heq.symm.trans hnone)
  rw [hmap, groupByKey_map] at h
  exact ⟨_, splits_fileAll hderived, (Except.ok.inj h).symm⟩

theorem exists_operatorStatements_iff :
    (∃ b, (operatorStatements adapter className usertype token m).outcome = .ok b) ↔
      ∀ s ∈ m.boundSignatures, ¬ IsStranded adapter token s := by
  rw [operatorStatements, Run.exists_outcome_bind_ok_iff, Run.exists_outcome_collect_iff]
  apply forall₂_congr
  intro s _
  exact exists_metaKey_iff

end Class

end ScriptBindings
