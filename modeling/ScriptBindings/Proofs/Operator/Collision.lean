import ScriptBindings.Proofs.Name.TypeName
import ScriptBindings.Proofs.Operator.Overlap
import ScriptBindings.Proofs.Plan.Completeness

namespace ScriptBindings

open Identifier (IsCapitalised)

/-- The parameters after which a callable is named where it is an operator. -/
def Callable.operands (f : Callable) : List Parameter :=
  (f.firstSignature.map Signature.parameters).getD []

namespace Operator

/-- The operations are the same, or they overlap. -/
def Operation.Clashes (a b : Operation) : Prop :=
  (a.token = b.token ∧ a.types = b.types) ∨ a.Overlaps b ∨ b.Overlaps a

theorem operandFragment_of_isCapitalised {type : String} (h : IsCapitalised type) :
    operandFragment type = .ok type := by
  rw [operandFragment, TypeName.base_of_isCapitalised h]
  exact congrArg Except.ok (Identifier.fragment_of_isCapitalised h)

namespace Operation

variable {a b o : Operation} {name : String} {parameters : List Parameter}

theorem clashes_iff : a.Clashes b ↔ a.shown = b.shown := by
  rw [shown_eq_iff, ext_iff, Clashes]

theorem exists_denotes_iff : (∃ o : Operation, o.Denotes name parameters) ↔
    (∃ token ∈ table.map Prod.fst, token? name = some token) ∧
      (parameters.length = 1 ∨ parameters.length = 2) ∧
      ∀ p ∈ parameters, IsCapitalised p.type := by
  constructor
  · rintro ⟨o, htoken, htypes⟩
    refine ⟨⟨o.token, o.known, htoken⟩, ?_, ?_⟩
    · rw [← List.length_map Parameter.type, htypes, types]
      cases o.right with
      | none => exact .inl rfl
      | some type => exact .inr rfl
    · intro p hp
      have htype : p.type ∈ o.types := htypes ▸ List.mem_map_of_mem hp
      rcases List.mem_cons.mp htype with hleft | hright
      · exact hleft ▸ o.left_type
      · exact o.right_type _ (Option.mem_toList.mp hright)
  · rintro ⟨⟨token, hknown, htoken⟩, hlength, htypes⟩
    rcases hlength with hlength | hlength
    · obtain ⟨p, rfl⟩ := List.length_eq_one_iff.mp hlength
      rw [List.forall_mem_singleton] at htypes
      refine ⟨⟨token, p.type, none, hknown, htypes, ?_⟩, htoken, rfl⟩
      rintro _ ⟨⟩
    · obtain ⟨p, q, rfl⟩ := List.length_eq_two.mp hlength
      rw [List.forall_mem_cons, List.forall_mem_singleton] at htypes
      refine ⟨⟨token, p.type, some q.type, hknown, htypes.1, ?_⟩, htoken, rfl⟩
      rintro _ ⟨⟩
      exact htypes.2

/-- A declaration of the operation, its token joined to the keyword. -/
def declaration (o : Operation) : Callable :=
  .single { name := "operator" ++ o.token
            returnType := o.left
            parameters := o.types.map fun type => { type := type } }

theorem token?_joined : ∀ token ∈ table.map Prod.fst, token? ("operator" ++ token) = some token := by
  decide +kernel

theorem denotes_declaration (o : Operation) :
    o.Denotes o.declaration.name o.declaration.operands := by
  constructor
  case token_eq => exact token?_joined o.token o.known
  case types_eq =>
    change (o.types.map fun type => ({ type := type } : Parameter)).map Parameter.type = o.types
    rw [List.map_map]
    exact List.map_id o.types

theorem operandName_eq (h : parameters.map Parameter.type = o.types) (identifier : String) :
    operandName name identifier parameters =
      .ok (o.left ++ Identifier.camel identifier ++ o.ending) := by
  have hleft := operandFragment_of_isCapitalised o.left_type
  unfold types at h
  unfold ending
  cases hright : o.right with
  | none =>
    rw [hright] at h
    obtain ⟨p, rfl, hp⟩ := List.map_eq_singleton_iff.mp h
    rw [operandName, hp, hleft, Option.getD_none, String.append_empty]
    rfl
  | some type =>
    rw [hright] at h
    obtain ⟨p, ps, rfl, hp, hps⟩ := List.map_eq_cons_iff.mp h
    obtain ⟨q, rfl, hq⟩ := List.map_eq_singleton_iff.mp hps
    rw [operandName, hp, hleft, hq, operandFragment_of_isCapitalised (o.right_type type hright)]
    rfl

theorem Denotes.classify_eq (h : o.Denotes name parameters) :
    classify name parameters = .ok (.operator o.shown) := by
  obtain ⟨i, _, hidentifier, hwords⟩ := exists_mem_table o.known
  unfold classify
  rw [h.token_eq]
  change (identifier o.token >>= fun i => operandName name i parameters >>= _) = _
  rw [hidentifier, shown, hwords]
  change (operandName name i parameters >>= _) = _
  rw [operandName_eq h.types_eq]
  rfl

theorem isCapitalised_shown (o : Operation) : IsCapitalised o.shown := by
  have hending : ∀ c ∈ o.ending.toList, Identifier.isWordChar c = true := by
    unfold ending
    cases hright : o.right with
    | none => exact List.forall_mem_nil _
    | some type => exact (o.right_type type hright).2
  rw [IsCapitalised, toList_shown]
  constructor
  · obtain ⟨c, cs, hleft, hc⟩ := o.left_type.exists_cons
    rw [hleft]
    exact hc
  · intro c hc
    rcases List.mem_append.mp hc with hc | hc
    · exact o.left_type.2 c hc
    · rcases List.mem_append.mp hc with hc | hc
      · exact (isCapitalised_words o.known).2 c hc
      · exact hending c hc

theorem Denotes.object_eq {f : Callable} (h : o.Denotes f.name f.operands) :
    f.object = .ok ("Operator" ++ o.shown) := by
  unfold Callable.object
  change (classify f.name f.operands >>= _) = _
  rw [h.classify_eq]
  change Except.ok ("Operator" ++ Identifier.fragment o.shown) = _
  rw [Identifier.fragment_of_isCapitalised o.isCapitalised_shown]

end Operation

end Operator

namespace Group

variable {adapter : Adapter} {g : Group} {path other shown : String} {f f' : Callable}

/-- The group has the callable at the path, and it is to be bound. -/
def Binds (g : Group) (path : String) (f : Callable) : Prop :=
  (path, f) ∈ g.functions.entries ∧ f.isBindable = true

theorem Binds.mem_bindables (h : g.Binds path f) : (path, f.object) ∈ g.bindables := by
  have hfunction : (path, f.object) ∈ objectsOf Callable.isBindable Callable.object g.functions :=
    List.mem_map.mpr ⟨(path, f), List.mem_filter.mpr h, rfl⟩
  exact List.mem_append_left _ (List.mem_append_right _ hfunction)

theorem collides_of_objects_eq (hname : g.name ≠ "") {objects : List String}
    (hemits : g.Emits adapter objects) (h : g.Binds path f) (h' : g.Binds other f')
    (hpath : path ≠ other) (hobject : f.object = f'.object) :
    ∃ object, (g.unit adapter).outcome = .error (.collision g.name object) := by
  have hobjects : objects.map Except.ok = g.bindables.map Prod.snd := by
    obtain ⟨b, hb, rfl⟩ := emits_iff.mp hemits
    exact emit_objects hb
  have hrepeat : ¬ objects.Nodup := by
    intro hnodup
    have hdistinct : (g.bindables.map Prod.snd).Nodup :=
      hobjects ▸ hnodup.map fun _ _ => Except.ok.inj
    exact hpath (congrArg Prod.fst
      (List.inj_on_of_nodup_map hdistinct h.mem_bindables h'.mem_bindables hobject))
  obtain ⟨object, hfirst⟩ := exists_isFirstRepeat.mpr hrepeat
  exact ⟨object, (collides_iff hname).mpr ⟨rfl, objects, hemits, hfirst⟩⟩

theorem filter_objectsOf_eq_nil {α : Type} {p : α → Bool} {name : α → String} {object : String}
    (h : ∀ x, name x ≠ object) (c : Catalog α) :
    ((objectsOf p (fun x => .ok (name x)) c).filter fun e => e.2 = .ok object) = [] := by
  rw [List.filter_eq_nil_iff]
  intro e he
  obtain ⟨x, _, rfl⟩ := List.mem_map.mp he
  exact mt of_decide_eq_true (mt Except.ok.inj (h x.2))

theorem append_ne_operator {word name : String} (h : ∃ c ∈ word.toList.head?, c ≠ 'O') :
    word ++ name ≠ "Operator" ++ shown := by
  obtain ⟨c, hc, hne⟩ := h
  obtain ⟨cs, hword⟩ := List.head?_eq_some_iff.mp hc
  intro heq
  rw [String.ext_iff, String.toList_append, String.toList_append, hword] at heq
  exact hne (List.cons.inj heq).1

/-- Only functions have the objects of operators. -/
theorem operators_sublist (g : Group) (shown : String) :
    (g.bindables.filter fun e => e.2 = .ok ("Operator" ++ shown)).Sublist
      (objectsOf Callable.isBindable Callable.object g.functions) := by
  have hclass : ∀ c : Class, c.object ≠ "Operator" ++ shown :=
    fun c => append_ne_operator ⟨'C', rfl, by decide⟩
  have henum : ∀ e : Enumeration, e.object ≠ "Operator" ++ shown :=
    fun e => append_ne_operator ⟨'E', rfl, by decide⟩
  have hglobal : ∀ v : Global, v.object ≠ "Operator" ++ shown :=
    fun v => append_ne_operator ⟨'G', rfl, by decide⟩
  simp only [bindables, List.filter_append, filter_objectsOf_eq_nil hclass,
    filter_objectsOf_eq_nil henum, filter_objectsOf_eq_nil hglobal, List.nil_append,
    List.append_nil]
  exact List.filter_sublist

theorem binds_of_pair {d d' : String × Except BindError String}
    (h : [d, d'].Sublist (objectsOf Callable.isBindable Callable.object g.functions)) :
    ∃ path f other f', g.Binds path f ∧ g.Binds other f' ∧ path ≠ other ∧
      f.object = d.2 ∧ f'.object = d'.2 := by
  obtain ⟨entries, hentries, hpair⟩ := List.sublist_map_iff.mp h
  obtain ⟨e, es, rfl, rfl, hes⟩ := List.map_eq_cons_iff.mp hpair.symm
  obtain ⟨e', rfl, rfl⟩ := List.map_eq_singleton_iff.mp hes
  have hbinds : ∀ x ∈ [e, e'], g.Binds x.1 x.2 :=
    fun x hx => List.mem_filter.mp (hentries.subset hx)
  have hkeys : ([e, e'].map Prod.fst).Nodup :=
    g.functions.nodup.sublist ((hentries.trans List.filter_sublist).map Prod.fst)
  refine ⟨e.1, e.2, e'.1, e'.2, hbinds e (by simp), hbinds e' (by simp), ?_, rfl, rfl⟩
  intro heq
  simp [heq] at hkeys

/-- A group that is refused for the object of an operator binds two functions with that object. -/
theorem exists_binds_of_collision (hname : g.name ≠ "") {scope : String}
    (h : (g.unit adapter).outcome = .error (.collision scope ("Operator" ++ shown))) :
    ∃ path f other f', g.Binds path f ∧ g.Binds other f' ∧ path ≠ other ∧
      f.object = .ok ("Operator" ++ shown) ∧ f'.object = .ok ("Operator" ++ shown) := by
  obtain ⟨_, objects, hemits, earlier, later, rfl, _, hmem⟩ := (collides_iff hname).mp h
  obtain ⟨b, hb, hobjects⟩ := emits_iff.mp hemits
  have hall := emit_objects hb
  rw [hobjects] at hall
  have hrepeat : ["Operator" ++ shown, "Operator" ++ shown].Sublist
      (earlier ++ ("Operator" ++ shown) :: later) :=
    (List.singleton_sublist.mpr hmem).append (List.singleton_sublist.mpr List.mem_cons_self)
  obtain ⟨pair, hsub, hpair⟩ := List.sublist_map_iff.mp (hall ▸ hrepeat.map Except.ok)
  -- Both entries of the pair have the object of an operator, and so both of them are functions.
  obtain ⟨d, ds, rfl, hd, hds⟩ := List.map_eq_cons_iff.mp hpair.symm
  obtain ⟨d', rfl, hd'⟩ := List.map_eq_singleton_iff.mp hds
  have hfilter := hsub.filter fun e => e.2 = .ok ("Operator" ++ shown)
  rw [List.filter_eq_self.mpr (by simp [hd, hd'])] at hfilter
  obtain ⟨path, f, other, f', hf, hf', hpath, hobject, hobject'⟩ :=
    binds_of_pair (hfilter.trans (operators_sublist g shown))
  exact ⟨path, f, other, f', hf, hf', hpath, hobject.trans hd, hobject'.trans hd'⟩

end Group

namespace Operator

open Operation (Clashes)

/-- Operators on capitalised types are shown alike exactly where they clash: they are the same
operation, or their identifiers can be read in two ways. A namespace that binds two operations that
clash is refused, and it is refused for the object of an operator only where two of its functions
share that object: as far as these have capitalised operands, they clash. -/
theorem operations_clash :
    (∀ name parameters, (∃ o : Operation, o.Denotes name parameters) ↔
      (∃ token ∈ table.map Prod.fst, token? name = some token) ∧
        (parameters.length = 1 ∨ parameters.length = 2) ∧
        ∀ p ∈ parameters, IsCapitalised p.type) ∧
    (∀ (a b : Operation) name parameters other parameters', a.Denotes name parameters →
      b.Denotes other parameters' →
      ((∃ shown, classify name parameters = .ok (.operator shown) ∧
        classify other parameters' = .ok (.operator shown)) ↔ a.Clashes b)) ∧
    ∀ (adapter : Adapter) (g : Group), g.name ≠ "" →
      (∀ (a b : Operation) path f other f' objects, g.Binds path f → g.Binds other f' →
        path ≠ other → a.Denotes f.name f.operands → b.Denotes f'.name f'.operands →
        a.Clashes b → g.Emits adapter objects →
        ∃ object, (g.unit adapter).outcome = .error (.collision g.name object)) ∧
      ∀ scope shown, (g.unit adapter).outcome = .error (.collision scope ("Operator" ++ shown)) →
        ∃ path f other f', g.Binds path f ∧ g.Binds other f' ∧ path ≠ other ∧
          f.object = .ok ("Operator" ++ shown) ∧ f'.object = .ok ("Operator" ++ shown) ∧
          ∀ a b : Operation, a.Denotes f.name f.operands → b.Denotes f'.name f'.operands →
            a.Clashes b := by
  refine ⟨fun name parameters => Operation.exists_denotes_iff, ?_, fun adapter g hname => ⟨?_, ?_⟩⟩
  · intro a b name parameters other parameters' ha hb
    rw [ha.classify_eq, hb.classify_eq, Operation.clashes_iff]
    simp [eq_comm]
  · intro a b path f other f' objects hf hf' hpath ha hb hclash hemits
    have hobject : f.object = f'.object := by
      rw [ha.object_eq, hb.object_eq, Operation.clashes_iff.mp hclash]
    exact Group.collides_of_objects_eq hname hemits hf hf' hpath hobject
  · intro scope shown h
    obtain ⟨path, f, other, f', hf, hf', hpath, ho, ho'⟩ := Group.exists_binds_of_collision hname h
    refine ⟨path, f, other, f', hf, hf', hpath, ho, ho', ?_⟩
    intro a b ha hb
    have hshown : "Operator" ++ a.shown = "Operator" ++ b.shown :=
      Except.ok.inj (ha.object_eq.symm.trans ((ho.trans ho'.symm).trans hb.object_eq))
    exact Operation.clashes_iff.mpr ((String.append_right_inj _).mp hshown)

/-- A sum whose second type looks like a difference. -/
def sumSample : Operation where
  token := "+"
  left := "Point"
  right := some "OffsetSubtractScale"

/-- A difference whose first type looks like a sum. -/
def differenceSample : Operation where
  token := "-"
  left := "PointAddOffset"
  right := some "Scale"

def differencesSample : Group where
  name := "ns"
  functions := .ofEntries
    [("ns::operator+", sumSample.declaration), ("ns::operator-", differenceSample.declaration)]

theorem differencesSample_clash :
    sumSample.Clashes differenceSample ∧
      (∃ shown, classify "operator+" sumSample.declaration.operands = .ok (.operator shown) ∧
        classify "operator-" differenceSample.declaration.operands = .ok (.operator shown)) ∧
      (∃ object, (differencesSample.unit .sol3).outcome = .error (.collision "ns" object)) ∧
      (differencesSample.unit .sol3).outcome =
        .error (.collision "ns" ("Operator" ++ "PointAddOffsetSubtractScale")) ∧
      ∃ path f other f', differencesSample.Binds path f ∧ differencesSample.Binds other f' ∧
        path ≠ other := by
  obtain ⟨_, hclassify, hgroup⟩ := operations_clash
  obtain ⟨hrefused, hblamed⟩ := hgroup .sol3 differencesSample (by decide)
  have hsum := sumSample.denotes_declaration
  have hdifference := differenceSample.denotes_declaration
  have hclash : sumSample.Clashes differenceSample :=
    .inr (.inl (@Operation.Overlaps.operand _ _ "Offset" (by decide) (by decide)))
  have hbinds : differencesSample.Binds "ns::operator+" sumSample.declaration :=
    ⟨by decide, rfl⟩
  have hbinds' : differencesSample.Binds "ns::operator-" differenceSample.declaration :=
    ⟨by decide, rfl⟩
  have hemits : differencesSample.Emits .sol3
      ["OperatorPointAddOffsetSubtractScale", "OperatorPointAddOffsetSubtractScale"] :=
    Group.emits_iff.mpr ⟨_, rfl, rfl⟩
  have hobject : (differencesSample.unit .sol3).outcome =
      .error (.collision "ns" ("Operator" ++ "PointAddOffsetSubtractScale")) :=
    (Group.collides_iff (by decide)).mpr ⟨rfl, _, hemits, ["OperatorPointAddOffsetSubtractScale"],
      [], rfl, List.nodup_singleton _, List.mem_singleton_self _⟩
  obtain ⟨path, f, other, f', hf, hf', hpath, _⟩ := hblamed _ _ hobject
  exact ⟨hclash, (hclassify _ _ _ _ _ _ hsum hdifference).mpr hclash,
    hrefused _ _ _ _ _ _ _ hbinds hbinds' (by decide) hsum hdifference hclash hemits, hobject,
    path, f, other, f', hf, hf', hpath⟩

/-- A sum whose second type begins with a word of assignments. -/
def addSample : Operation where
  token := "+"
  left := "Foo"
  right := some "AssignBar"

def addAssignSample : Operation where
  token := "+="
  left := "Foo"
  right := some "Bar"

def assignmentsSample : Group where
  name := "ns"
  functions := .ofEntries
    [("ns::operator+=", addAssignSample.declaration), ("ns::operator+", addSample.declaration)]

/-- Two operators that differ in their tokens and in their types, with one identifier. -/
theorem assignmentsSample_refused :
    addAssignSample.Denotes "operator+=" addAssignSample.declaration.operands ∧
      addSample.Denotes "operator+" addSample.declaration.operands ∧
      classify "operator+=" addAssignSample.declaration.operands =
        .ok (.operator "FooAddAssignBar") ∧
      classify "operator+" addSample.declaration.operands = .ok (.operator "FooAddAssignBar") ∧
      addAssignSample.token ≠ addSample.token ∧ addAssignSample.types ≠ addSample.types ∧
      (assignmentsSample.unit .sol3).outcome =
        .error (.collision "ns" "OperatorFooAddAssignBar") := by
  refine ⟨addAssignSample.denotes_declaration, addSample.denotes_declaration, by decide,
    by decide, by decide, by decide, ?_⟩
  decide +kernel

end Operator

end ScriptBindings
