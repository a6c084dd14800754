import ScriptBindings.Proofs.Database.Refusal
import ScriptBindings.Proofs.Plan.Completeness

namespace ScriptBindings

/-- The objects of these entries begin with one of some letters, and no object is that of two
entries with one key. -/
structure Distinguished (letters : List Char) (es : List (String × Except BindError String)) :
    Prop where
  initial : ∀ e ∈ es, ∀ object, e.2 = .ok object → ∃ c ∈ letters, object.toList.head? = some c
  pairwise : es.Pairwise fun e f => e.1 ≠ f.1 ∨ ∀ object, e.2 = .ok object → f.2 ≠ .ok object

namespace Distinguished

variable {letters letters' : List Char} {es fs : List (String × Except BindError String)}

theorem append (h : Distinguished letters es) (h' : Distinguished letters' fs)
    (hdisjoint : letters.Disjoint letters') : Distinguished (letters ++ letters') (es ++ fs) := by
  constructor
  · intro e he object hobject
    rcases List.mem_append.mp he with he | he
    · obtain ⟨c, hc, hhead⟩ := h.initial e he object hobject
      exact ⟨c, List.mem_append_left letters' hc, hhead⟩
    · obtain ⟨c, hc, hhead⟩ := h'.initial e he object hobject
      exact ⟨c, List.mem_append_right letters hc, hhead⟩
  · refine List.pairwise_append.mpr ⟨h.pairwise, h'.pairwise, fun e he f hf => .inr ?_⟩
    intro object hobject hsame
    obtain ⟨c, hc, hhead⟩ := h.initial e he object hobject
    obtain ⟨d, hd, hhead'⟩ := h'.initial f hf object hsame
    obtain rfl : c = d := Option.some.inj (hhead.symm.trans hhead')
    exact hdisjoint hc hd

theorem of_catalog {α : Type} {p : α → Bool} {object : α → Except BindError String}
    (h : ∀ a text, object a = .ok text → ∃ c ∈ letters, text.toList.head? = some c)
    (c : Catalog α) : Distinguished letters (objectsOf p object c) := by
  constructor
  · intro e he text htext
    obtain ⟨a, _, rfl⟩ := List.mem_map.mp he
    exact h a.2 text htext
  · have hkeys : ((c.entries.filter fun e => p e.2).map Prod.fst).Nodup :=
      c.nodup.sublist (List.filter_sublist.map Prod.fst)
    rw [objectsOf, List.pairwise_map]
    exact (List.pairwise_map.mp hkeys).imp fun hne => .inl hne

end Distinguished

namespace Group

variable {adapter : Adapter} {g : Group}

theorem exists_head_of_append (word : String) {name text : String} {letters : List Char} {c : Char}
    (hc : c ∈ letters) (hword : word.toList.head? = some c) (htext : word ++ name = text) :
    ∃ c ∈ letters, text.toList.head? = some c := by
  refine ⟨c, hc, ?_⟩
  rw [← htext, String.toList_append, List.head?_append, hword]
  rfl

-- Each kind of entity puts a word of its own in front of the names of its objects.
theorem distinguished_bindables (g : Group) :
    Distinguished ['C', 'E', 'F', 'O', 'G'] g.bindables := by
  have hclasses : Distinguished ['C'] (objectsOf (fun c => !c.flags.nobind)
      (fun c => .ok c.object) g.classes) := .of_catalog (fun c text htext =>
    exists_head_of_append "Class" (by decide) rfl (Except.ok.inj htext)) _
  have henums : Distinguished ['E'] (objectsOf (fun e => !e.flags.nobind)
      (fun e => .ok e.object) g.enums) := .of_catalog (fun e text htext =>
    exists_head_of_append "Enum" (by decide) rfl (Except.ok.inj htext)) _
  have hfunctions : Distinguished ['F', 'O'] (objectsOf Callable.isBindable Callable.object
      g.functions) := by
    refine .of_catalog (fun f text htext => ?_) _
    obtain ⟨d, _, rfl⟩ := Callable.object_eq_ok_iff.mp htext
    cases d with
    | function name =>
      exact exists_head_of_append "Function" (by decide) rfl rfl
    | operator name =>
      exact exists_head_of_append "Operator" (by decide) rfl rfl
  have hglobals : Distinguished ['G'] (objectsOf (fun v => !v.flags.nobind)
      (fun v => .ok v.object) g.globals) := .of_catalog (fun v text htext =>
    exists_head_of_append "Global" (by decide) rfl (Except.ok.inj htext)) _
  refine ((hclasses.append henums ?_).append hfunctions ?_).append hglobals ?_
  all_goals simp

/-- Where an object is repeated, it is that of two entities with different keys. -/
theorem exists_same_object {b : BindingSet} (hb : (g.emit adapter).outcome = .ok b) {o : String}
    (ho : IsFirstRepeat o b.objects) :
    ∃ first second, first ≠ second ∧ (first, .ok o) ∈ g.bindables ∧
      (second, .ok o) ∈ g.bindables := by
  obtain ⟨earlier, later, heq, _, hmem⟩ := ho
  have hobjects := emit_objects hb
  rw [heq, List.map_append, List.map_cons] at hobjects
  obtain ⟨before, rest, hsplit, hbefore, hrest⟩ := List.map_eq_append_iff.mp hobjects.symm
  obtain ⟨second, after, rfl, hsecond, _⟩ := List.map_eq_cons_iff.mp hrest
  have hfirst : (.ok o : Except BindError String) ∈ before.map Prod.snd := by
    rw [hbefore]
    exact List.mem_map_of_mem hmem
  obtain ⟨first, hfirst, hobject⟩ := List.mem_map.mp hfirst
  have hpair := (List.pairwise_append.mp (hsplit ▸ (distinguished_bindables g).pairwise)).2.2
    first hfirst second List.mem_cons_self
  refine ⟨first.1, second.1, ?_, ?_, ?_⟩
  · exact hpair.resolve_right fun hne => hne o hobject hsecond
  · rw [hsplit, ← hobject]
    exact List.mem_append_left _ hfirst
  · rw [hsplit, ← hsecond]
    exact List.mem_append_right before List.mem_cons_self

end Group

namespace Database

variable {adapter : Adapter} {db : Database} {e : BindError}

theorem shows_of_mem_bindables {b : String × Except BindError String} (h : b ∈ db.bindables) :
    db.Shows b.1 := by
  have hvisible {α : Type} {p : α → Bool} {object : α → Except BindError String} {c : Catalog α}
      (hb : b ∈ objectsOf p object c) : ∃ a ∈ c.entries, p a.2 = true ∧ a.1 = b.1 := by
    obtain ⟨a, ha, rfl⟩ := List.mem_map.mp hb
    exact ⟨a, (List.mem_filter.mp ha).1, (List.mem_filter.mp ha).2, rfl⟩
  simp only [bindables, Group.bindables, asGroup, List.mem_append] at h
  rcases h with ((h | h) | h) | h
  all_goals
    obtain ⟨a, ha, hp, hkey⟩ := hvisible h
    rw [← hkey]
  · exact .class ha (Bool.not_eq_eq_eq_not.mp hp)
  · exact .enumeration ha (Bool.not_eq_eq_eq_not.mp hp)
  · exact .function ha (Callable.visible_of_isBindable hp)
  · exact .global ha (Bool.not_eq_eq_eq_not.mp hp)

/-- The error says that one of the entities that are not hidden is malformed or cannot be bound. -/
def BlamesVisible (db : Database) (e : BindError) : Prop :=
  ∃ entity, db.Shows entity ∧ (e.Refuses entity ∨ e.Blames entity)

/-- The error says that two entities of one namespace, with different keys, have one object. -/
def BlamesPair (db : Database) (e : BindError) : Prop :=
  ∃ scope object first second, e = .collision scope object ∧ first ≠ second ∧
    ∀ key ∈ [first, second], Scope.parent key = scope ∧ (key, .ok object) ∈ db.bindables

theorem emit_blames {scope : String} (h : ((db.group scope).emit adapter).outcome = .error e) :
    db.BlamesVisible e := by
  rcases Group.emit_fails adapter (db.group scope) e h with
    ⟨f, hf, hbindable, he⟩ | ⟨c, hc, hvisible, _, hmethod, hbindable, he⟩
  · exact ⟨f.1, .function (List.mem_filter.mp hf).1 (Callable.visible_of_isBindable hbindable),
      .inr he⟩
  · obtain ⟨m, hm, rfl⟩ := List.mem_map.mp hmethod
    exact ⟨_, .methodName (List.mem_filter.mp hc).1 hvisible hm
      (Callable.visible_of_isBindable hbindable), .inr he⟩

theorem unit_blames {scope : String} (h : ((db.group scope).unit adapter).outcome = .error e) :
    db.BlamesVisible e ∨ db.BlamesPair e := by
  have hmem {b : String × Except BindError String} (hb : b ∈ (db.group scope).bindables) :
      b ∈ db.bindables ∧ Scope.parent b.1 = scope := by
    rw [bindables_group] at hb
    exact ⟨(List.mem_filter.mp hb).1, of_decide_eq_true (List.mem_filter.mp hb).2⟩
  by_cases hname : scope = ""
  · -- There is no table for the global namespace, so its first entity is to blame.
    rw [Group.unit, if_pos (show (db.group scope).name = "" from hname),
      Group.firstBindable_eq] at h
    cases hhead : (db.group scope).bindables.head? with
    | none =>
      rw [hhead] at h
      cases h
    | some b =>
      rw [hhead] at h
      cases h
      exact .inl ⟨b.1, shows_of_mem_bindables (hmem (List.mem_of_mem_head? hhead)).1,
        .inr ⟨_, rfl⟩⟩
  · rw [Group.outcome_unit hname] at h
    cases hb : ((db.group scope).emit adapter).outcome with
    | error d =>
      rw [hb] at h
      cases h
      exact .inl (emit_blames hb)
    | ok b =>
      rw [hb] at h
      obtain ⟨o, ho, rfl⟩ := Group.assemble_eq_error.mp h
      obtain ⟨first, second, hne, hfirst, hsecond⟩ := Group.exists_same_object hb ho
      refine .inr ⟨scope, o, first, second, rfl, hne, ?_⟩
      simp only [List.forall_mem_cons, List.not_mem_nil, false_imp_iff, implies_true, and_true]
      exact ⟨(hmem hfirst).symm, (hmem hsecond).symm⟩

/-- A plan fails in two ways only: an entity that is not hidden is malformed or cannot be bound, or
two bindable entities of a namespace have one object. -/
theorem plan_blames (h : (db.plan adapter).outcome = .error e) :
    db.BlamesVisible e ∨ db.BlamesPair e := by
  unfold plan at h
  rcases Run.outcome_bind_eq_error.mp h with h | ⟨_, _, h⟩
  · obtain ⟨entity, hshows, he⟩ := db.validate_fails e h
    exact .inl ⟨entity, hshows, .inl he⟩
  rcases Run.outcome_bind_eq_error.mp h with h | ⟨_, _, h⟩
  · obtain ⟨g, hg, hunit⟩ := Run.exists_of_collect_eq_error h
    obtain ⟨scope, _, rfl⟩ := List.mem_map.mp hg
    exact unit_blames hunit
  · cases h

/-- A class with a hidden method and with an operator that has no name, each under a key of its
own. -/
def oddOperatorSample : Database where
  classes := .ofEntries [("ns::Foo", {
    name := "Foo"
    location := "include/foo.hpp"
    methods := .ofEntries [
      ("first", .single { name := "operator#", returnType := "int", flags := ⟨true⟩ }),
      ("second", .single { name := "operator@", returnType := "int" })] })]

def clashDatabase : Database where
  functions := clashSample.functions

theorem oddOperatorSample_blames :
    (oddOperatorSample.plan .sol3).outcome =
      .error (.unsupported "ns::Foo::operator@" (.seenIn .unnamedOperator "operator@")) ∧
    (clashDatabase.plan .sol3).outcome = .error (.collision "ns" "FunctionAdd") ∧
    oddOperatorSample.BlamesVisible
      (.unsupported "ns::Foo::operator@" (.seenIn .unnamedOperator "operator@")) ∧
    clashDatabase.BlamesPair (.collision "ns" "FunctionAdd") := by
  have hodd : (oddOperatorSample.plan .sol3).outcome =
      .error (.unsupported "ns::Foo::operator@" (.seenIn .unnamedOperator "operator@")) := by
    decide +kernel
  have hclash : (clashDatabase.plan .sol3).outcome =
      .error (.collision "ns" "FunctionAdd") := by
    decide +kernel
  refine ⟨hodd, hclash, ?_, ?_⟩
  · refine (plan_blames hodd).resolve_right ?_
    rintro ⟨scope, object, first, second, he, _⟩
    cases he
  · refine (plan_blames hclash).resolve_left ?_
    rintro ⟨entity, _, ⟨cause, he⟩ | ⟨cause, he⟩⟩
    · cases he
    · cases he

end Database

end ScriptBindings
