import ScriptBindings.Operator
import ScriptBindings.Proofs.Name.TypeName

namespace ScriptBindings.TypeName

variable {type other : String} {token head stem markers : List Char}

theorem ofList_template (head args : List Char) :
    String.ofList (head ++ '<' :: args) = String.ofList head ++ "<" ++ String.ofList args := by
  rw [← String.toList_inj]
  simp

theorem base_of_tokens (h : tokens type = [token]) :
    base type = .ok (String.ofList (Scope.lastOf token)) := by
  rw [base, h]

/-- The base name of a template, by whether its arguments hold a separator. -/
theorem exists_arguments {token : String} (htype : tokens type = [token.toList])
    (hopen : '<' ∈ token.toList) :
    ∃ args, token = Scope.templateHead token ++ "<" ++ args ∧
      (¬ [':', ':'] <:+: args.toList →
        base type = .ok (Scope.last (Scope.templateHead token) ++ "<" ++ args)) ∧
      ([':', ':'] <:+: args.toList → base type = .ok (Scope.last args)) := by
  obtain ⟨head, args, htoken, hhead⟩ := List.eq_append_cons_of_mem hopen
  have htemplate := Scope.templateHead_eq hhead htoken
  refine ⟨String.ofList args, ?_, ?_, ?_⟩
  · rw [htemplate, ← ofList_template, ← htoken, String.ofList_toList]
  · intro hargs
    rw [String.toList_ofList] at hargs
    rw [base_of_tokens htype, htoken, Scope.lastOf_append_cons (by decide) hargs, htemplate,
      Scope.last, String.toList_ofList, ofList_template]
  · intro hargs
    rw [String.toList_ofList] at hargs
    rw [base_of_tokens htype, htoken, List.append_cons, Scope.lastOf_append_of_infix hargs,
      Scope.last, String.toList_ofList]

theorem operandFragment_of_tokens (h : tokens type = [token]) :
    Operator.operandFragment type =
      .ok (String.ofList (Identifier.clean (Scope.lastOf token))) := by
  rw [Operator.operandFragment, base_of_tokens h, Except.map, Identifier.fragment,
    String.toList_ofList]

theorem of_mem_closing {c : Char} (hmarkers : ∀ c ∈ markers, isMarker c = true)
    (hc : c ∈ markers ++ ['>']) : Identifier.isWordChar c = false ∧ c ≠ ':' := by
  rcases List.mem_append.mp hc with hc | hc
  · rcases Bool.or_eq_true_iff.mp (hmarkers c hc) with h | h
    · rw [beq_iff_eq.mp h]
      decide
    · rw [beq_iff_eq.mp h]
      decide
  · rw [List.mem_singleton.mp hc]
    decide

/-- A template with a single argument has the fragment of that argument exactly where the argument
is qualified or the template's own name has no word characters. -/
theorem operandFragment_template_eq_iff
    (htype : tokens type = [head ++ '<' :: (stem ++ (markers ++ ['>']))])
    (hmarkers : ∀ c ∈ markers, isMarker c = true) (hother : tokens other = [stem]) :
    Operator.operandFragment type = Operator.operandFragment other ↔
      [':', ':'] <:+: stem ∨ Identifier.clean (Scope.lastOf head) = [] := by
  have hcolon : ':' ∉ markers ++ ['>'] := fun hc => (of_mem_closing hmarkers hc).2 rfl
  have hclean (cs : List Char) :
      Identifier.clean (cs ++ (markers ++ ['>'])) = Identifier.clean cs :=
    Identifier.clean_append_of_no_words (fun c hc => (of_mem_closing hmarkers hc).1) cs
  rw [operandFragment_of_tokens htype, operandFragment_of_tokens hother, Except.ok.injEq,
    String.ofList_inj]
  by_cases hstem : [':', ':'] <:+: stem
  · have hargs : [':', ':'] <:+: stem ++ (markers ++ ['>']) :=
      (Scope.infix_append_of_not_mem hcolon).mpr hstem
    rw [List.append_cons, Scope.lastOf_append_of_infix hargs,
      Scope.lastOf_append_of_not_mem hcolon, hclean]
    exact iff_of_true rfl (.inl hstem)
  · have hargs : ¬ [':', ':'] <:+: stem ++ (markers ++ ['>']) :=
      mt (Scope.infix_append_of_not_mem hcolon).mp hstem
    rw [Scope.lastOf_append_cons (by decide) hargs, Scope.lastOf_eq_iff.mpr (.whole hstem),
      List.append_cons, ← List.append_assoc, hclean, Identifier.clean_append_eq_iff,
      Identifier.clean_append_of_no_words (List.forall_mem_singleton.mpr (by decide)),
      or_iff_right hstem]

/-- The base name of a template type begins with the template's own name as far as no argument is
qualified: of qualified arguments it is the end of the last that is left, behind the last separator,
whatever the template is called. A template with one argument then has the fragment of the argument,
and has another one otherwise, if its own name shows in it. -/
theorem template_base (type : String) :
    (∀ token, tokens type = [token.toList] → '<' ∈ token.toList →
      ∃ args, token = Scope.templateHead token ++ "<" ++ args ∧
        (¬ [':', ':'] <:+: args.toList →
          base type = .ok (Scope.last (Scope.templateHead token) ++ "<" ++ args)) ∧
        ([':', ':'] <:+: args.toList → base type = .ok (Scope.last args)) ∧
        ((∃ rest, base type = .ok (Scope.last (Scope.templateHead token) ++ "<" ++ rest)) ↔
          ([':', ':'] <:+: args.toList →
            ∃ rest, Scope.last args = Scope.last (Scope.templateHead token) ++ "<" ++ rest))) ∧
    ∀ other head stem markers,
      tokens type = [head ++ '<' :: (stem ++ (markers ++ ['>']))] →
      (∀ c ∈ markers, isMarker c = true) → tokens other = [stem] →
      (Operator.operandFragment type = Operator.operandFragment other ↔
        [':', ':'] <:+: stem ∨ Identifier.fragment (Scope.last (String.ofList head)) = "") := by
  constructor
  · intro token htype hopen
    obtain ⟨args, htoken, hplain, hqualified⟩ := exists_arguments htype hopen
    refine ⟨args, htoken, hplain, hqualified, ?_⟩
    by_cases hargs : [':', ':'] <:+: args.toList
    · rw [hqualified hargs]
      simp only [Except.ok.injEq, hargs, true_imp_iff]
    · exact iff_of_true ⟨args, hplain hargs⟩ fun h => absurd h hargs
  · intro other head stem markers htype hmarkers hother
    rw [operandFragment_template_eq_iff htype hmarkers hother, Identifier.fragment, Scope.last,
      String.toList_ofList, String.toList_ofList, ← String.toList_eq_nil_iff, String.toList_ofList]

/-- Unqualified arguments stay behind the name of the template, and keep its fragment apart. -/
theorem pair_base :
    base "const std::pair<int,int> &" = .ok "pair<int,int>" ∧
      base "ns::Box<a::Foo>" = .ok "Foo>" ∧
      Operator.operandFragment "ns::Box<Foo*>" ≠ Operator.operandFragment "const Foo &" ∧
      Operator.operandFragment "ns::Box<a::Foo>" = Operator.operandFragment "a::Foo" := by
  refine ⟨?_, ?_, ?_, ?_⟩
  · obtain ⟨args, hargs, hplain, _⟩ := (template_base "const std::pair<int,int> &").1
      "std::pair<int,int>" (by decide) (by decide)
    have hhead : Scope.templateHead "std::pair<int,int>" = "std::pair" := by decide
    rw [hhead] at hargs hplain
    have hsplit : "std::pair<int,int>" = "std::pair" ++ "<" ++ "int,int>" := by decide
    obtain rfl := (String.append_right_inj _).mp (hargs.symm.trans hsplit)
    have hname : Scope.last "std::pair" ++ "<" ++ "int,int>" = "pair<int,int>" := by decide
    rw [hplain (Scope.cutLast_eq_none_iff.mp (by decide)), hname]
  · obtain ⟨args, hargs, _, hqualified, _⟩ := (template_base "ns::Box<a::Foo>").1
      "ns::Box<a::Foo>" (by decide) (by decide)
    have hhead : Scope.templateHead "ns::Box<a::Foo>" = "ns::Box" := by decide
    rw [hhead] at hargs
    have hsplit : "ns::Box<a::Foo>" = "ns::Box" ++ "<" ++ "a::Foo>" := by decide
    obtain rfl := (String.append_right_inj _).mp (hargs.symm.trans hsplit)
    have hname : Scope.last "a::Foo>" = "Foo>" := by decide
    rw [hqualified ⟨['a'], "Foo>".toList, by decide⟩, hname]
  · rw [Ne, (template_base "ns::Box<Foo*>").2 "const Foo &" "ns::Box".toList "Foo".toList ['*']
      (by decide) (List.forall_mem_singleton.mpr (by decide)) (by decide)]
    rintro (hqualified | hempty)
    · exact Scope.cutLast_eq_none_iff.mp (by decide) hqualified
    · exact absurd hempty (by decide)
  · exact ((template_base "ns::Box<a::Foo>").2 "a::Foo" "ns::Box".toList "a::Foo".toList []
      (by decide) (List.forall_mem_nil _) (by decide)).mpr
        (.inl ⟨['a'], "Foo".toList, by decide⟩)

/-- The name of the template is lost with its qualified argument, though the namespace of the same
name is found in front of its argument list. -/
theorem box_base_cut :
    tokens "ns::Box<a::Foo>" = ["ns::Box<a::Foo>".toList] ∧ '<' ∈ "ns::Box<a::Foo>".toList ∧
      Scope.templateHead "ns::Box<a::Foo>" = "ns::Box" ∧ Scope.last "ns::Box" = "Box" ∧
      base "ns::Box<a::Foo>" = .ok "Foo>" ∧ (∀ rest, "Foo>" ≠ "Box" ++ "<" ++ rest) ∧
      Operator.operandFragment "ns::Box<a::Foo>" = .ok "Foo" ∧
      Operator.operandFragment "a::Foo" = .ok "Foo" ∧ Scope.parent "ns::Box<a::Foo>" = "ns" := by
  refine ⟨by decide, by decide, by decide, by decide, by decide, ?_, by decide, by decide,
    by decide⟩
  intro rest h
  have hlist := congrArg String.toList h
  rw [String.toList_append, String.toList_append, List.append_assoc] at hlist
  exact absurd (List.cons.inj hlist).1 (by decide)

end ScriptBindings.TypeName
