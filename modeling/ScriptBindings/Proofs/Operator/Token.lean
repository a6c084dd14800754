import ScriptBindings.Adapter.Sol3
import ScriptBindings.Emission.Class
import ScriptBindings.Proofs.Blank
import ScriptBindings.Proofs.Name.Identifier

namespace ScriptBindings

namespace Operator

/-- The name of a function as it is written: letters, digits and underscores, and no digit in front.
Beyond ASCII every character that is not blank passes for a letter. -/
structure IsWritten (name : String) : Prop where
  ne_empty : name ≠ ""
  initial : ∀ c ∈ name.toList.head?, c.isDigit = false
  letters : ∀ c ∈ name.toList,
    Identifier.isWordChar c = true ∨ (128 ≤ c.toNat ∧ Blank.isBlank c = false)

/-- Names that are read as if a blank stood behind the word `operator`. -/
def IsMisread (name : String) : Prop :=
  name ∈ ["operatornew", "operatordelete"] ∨
    ∃ c rest, name.toList = keyword ++ c :: rest ∧ 128 ≤ c.toNat

end Operator

theorem Identifier.IsIdentifier.isWritten {name : String} (h : IsIdentifier name) :
    Operator.IsWritten name := by
  constructor
  case ne_empty => exact h.ne_empty
  case initial =>
    intro c hc
    have hfirst := h.1
    rw [hc] at hfirst
    exact Bool.not_eq_eq_eq_not.mp hfirst
  case letters =>
    intro c hc
    exact .inl (h.2 c hc)

namespace Operator

variable {name : String} {rest : List Char}

theorem IsWritten.no_blanks (h : IsWritten name) : ∀ c ∈ name.toList, Blank.isBlank c = false := by
  intro c hc
  rcases h.letters c hc with hword | ⟨_, hblank⟩
  · exact Identifier.isBlank_of_isWordChar hword
  · exact hblank

theorem token?_of_not_keyword (h : ¬ keyword <+: name.toList) : token? name = none := by
  rw [token?, tail?, if_neg (by rwa [List.isPrefixOf_iff_prefix])]

theorem token?_of_keyword (hname : name.toList = keyword ++ rest)
    (h : ∀ c ∈ rest, Blank.isBlank c = false) :
    token? name = if rest = [] then none
      else if startsWord (String.ofList rest) && String.ofList rest ∉ allocationTokens then none
      else some (String.ofList rest) := by
  have htail : tail? name = some (String.ofList rest) := by
    rw [tail?, if_pos (List.isPrefixOf_iff_prefix.mpr ⟨rest, hname.symm⟩), hname,
      List.drop_left, Blank.trim_of_no_blanks h]
  rw [token?, htail]
  simp only [String.ofList_eq_empty_iff]

theorem startsWord_ofList (c : Char) (rest : List Char) :
    startsWord (String.ofList (c :: rest)) = Identifier.isWordChar c := by
  rw [startsWord, String.toList_ofList]
  rfl

/-- Of the allocation tokens an identifier can only end in the two without brackets. -/
theorem mem_allocationTokens_iff (h : IsWritten name) (hname : name.toList = keyword ++ rest) :
    String.ofList rest ∈ allocationTokens ↔ name ∈ ["operatornew", "operatordelete"] := by
  have hjoined : ∀ token : String, String.ofList rest = token ↔ name = "operator" ++ token := by
    intro token
    rw [String.ext_iff, String.toList_ofList, String.ext_iff, String.toList_append, hname]
    exact (List.append_right_inj keyword).symm
  have hbracket : ∀ token : String, '[' ∈ token.toList → name ≠ "operator" ++ token := by
    rintro token hmem rfl
    have hletter := h.letters '[' (by rw [String.toList_append]; exact List.mem_append_right _ hmem)
    revert hletter
    decide
  have harray : name ≠ "operator" ++ "new[]" := hbracket "new[]" (by decide)
  have harrays : name ≠ "operator" ++ "delete[]" := hbracket "delete[]" (by decide)
  simp only [allocationTokens, List.mem_cons, List.not_mem_nil, or_false, hjoined, harray, harrays]
  rfl

theorem IsMisread.begins (h : IsMisread name) : keyword <+: name.toList := by
  rcases h with h | ⟨c, rest, hname, _⟩
  · have hall : ∀ name ∈ ["operatornew", "operatordelete"], keyword <+: name.toList := by decide
    exact hall name h
  · exact ⟨c :: rest, hname.symm⟩

theorem isMisread_iff (h : IsWritten name) (hname : name.toList = keyword ++ rest) :
    IsMisread name ↔
      String.ofList rest ∈ allocationTokens ∨ ∃ c ∈ rest.head?, 128 ≤ c.toNat := by
  rw [IsMisread, mem_allocationTokens_iff h hname, hname]
  simp only [List.append_cancel_left_eq]
  cases rest with
  | nil => simp
  | cons c rest => simp

theorem token?_eq_none_iff (h : IsWritten name) : token? name = none ↔ ¬ IsMisread name := by
  by_cases hkeyword : keyword <+: name.toList
  · obtain ⟨rest, hname⟩ := hkeyword
    have hletters : ∀ c ∈ rest, c ∈ name.toList := fun c hc =>
      hname ▸ List.mem_append_right keyword hc
    rw [token?_of_keyword hname.symm fun c hc => h.no_blanks c (hletters c hc),
      isMisread_iff h hname.symm]
    -- What is read depends on the letter that is joined to the word.
    cases rest with
    | nil => simp [allocationTokens]
    | cons c rest =>
      rw [if_neg (List.cons_ne_nil c rest), startsWord_ofList]
      rcases h.letters c (hletters c List.mem_cons_self) with hword | ⟨hforeign, _⟩
      · have hrange := Identifier.toNat_of_isWordChar hword
        have hascii : ¬ 128 ≤ c.toNat := by omega
        simp [hword, hascii]
      · have hword : Identifier.isWordChar c = false := by
          rw [← Bool.not_eq_true]
          intro hword
          have hrange := Identifier.toNat_of_isWordChar hword
          omega
        simp [hword, hforeign]
  · rw [token?_of_not_keyword hkeyword]
    exact iff_of_true rfl (mt IsMisread.begins hkeyword)

theorem classify_eq_function_iff {parameters : List Parameter} :
    classify name parameters = .ok (.function name) ↔ token? name = none := by
  unfold classify
  cases token? name with
  | none => simp
  | some token =>
    cases hidentifier : identifier token with
    | error e => simp [hidentifier, bind, Except.bind]
    | ok i =>
      cases hshown : operandName name i parameters with
      | error e => simp [hidentifier, hshown, bind, Except.bind]
      | ok shown => simp [hidentifier, hshown, bind, Except.bind]

/-- An identifier is taken for an operator only where it joins the word `operator` to an allocation
keyword or to a letter beyond ASCII. Any other names a function, under its own name and whatever its
parameters are, and a method so named is bound as an ordinary member of its class. -/
theorem identifier_names_function (h : IsWritten name) :
    (token? name = none ↔ ¬ IsMisread name) ∧
      (∀ parameters, classify name parameters = .ok (.function name) ↔ ¬ IsMisread name) ∧
      (¬ IsMisread name → ∀ adapter className usertype key f, f.name = name →
        f.isBindable = true →
        (Class.methodStatements adapter className usertype key f).outcome =
          .ok [adapter.bindMember usertype name
            (Class.methodExpression adapter className f f.boundSignatures)]) := by
  refine ⟨token?_eq_none_iff h, fun parameters => ?_, ?_⟩
  · rw [classify_eq_function_iff, token?_eq_none_iff h]
  · rintro hread adapter className usertype key f rfl hf
    rw [Class.methodStatements, if_pos hf, (token?_eq_none_iff h).mpr hread]
    rfl

/-- A counter of operators. -/
def countSample : Callable :=
  .single { name := "operator_count", returnType := "int" }

theorem countSample_names_function :
    IsWritten "operator_count" ∧ ¬ IsMisread "operator_count" ∧
      token? "operator_count" = none ∧
      classify "operator_count" [⟨"kind", "int", none⟩] = .ok (.function "operator_count") ∧
      countSample.isBindable = true ∧
      (Class.methodStatements .sol3 "ns::Parser" "bindParser" "count" countSample).outcome =
        .ok [Adapter.sol3.bindMember "bindParser" "operator_count"
          "&ns::Parser::operator_count"] := by
  have hwritten : IsWritten "operator_count" :=
    Identifier.IsIdentifier.isWritten (by decide)
  obtain ⟨htoken, hclassify, hmethod⟩ := identifier_names_function hwritten
  have hnone : token? "operator_count" = none := by decide
  have hread := htoken.mp hnone
  have hbindable : countSample.isBindable = true := rfl
  exact ⟨hwritten, hread, hnone, (hclassify _).mpr hread, hbindable,
    hmethod hread .sol3 "ns::Parser" "bindParser" "count" countSample rfl hbindable⟩

/-- A method whose name is an identifier. -/
def poolSample : Callable :=
  .single { name := "operatornew", returnType := "int" }

theorem operatornew_misread :
    IsWritten "operatornew" ∧ token? "operatornew" = some "new" ∧
      classify "operatornew" [] = .error (.unsupported "operatornew" .noOperands) ∧
      poolSample.isBindable = true ∧
      (Class.methodStatements .sol3 "ns::Pool" "bindPool" "operatornew" poolSample).outcome =
        .error (.unsupported "ns::Pool::operatornew" (.noMetaFunction "allocate")) := by
  refine ⟨Identifier.IsIdentifier.isWritten (by decide), by decide, by decide, rfl, ?_⟩
  decide +kernel

end Operator

end ScriptBindings
