import ScriptBindings.Proofs.Operator.Collision
import ScriptBindings.Proofs.Plan.Blame

namespace ScriptBindings

/-- What a generated object stands for. -/
inductive ObjectKind where
  | usertype
  | enumeration
  | function
  | operator
  | global
deriving DecidableEq, Repr, Inhabited

namespace ObjectKind

/-- The word in front of the objects of a kind. -/
def word : ObjectKind → String
  | .usertype => "Class"
  | .enumeration => "Enum"
  | .function => "Function"
  | .operator => "Operator"
  | .global => "Global"

/-- The letter by which the objects of a kind are told from all others. -/
def initial : ObjectKind → Char
  | .usertype => 'C'
  | .enumeration => 'E'
  | .function => 'F'
  | .operator => 'O'
  | .global => 'G'

theorem isCapitalised_word (k : ObjectKind) : Identifier.IsCapitalised k.word := by
  cases k <;> decide

theorem head?_word (k : ObjectKind) : k.word.toList.head? = some k.initial := by
  cases k <;> rfl

theorem initial_injective : Function.Injective initial := by
  intro k k' h
  cases k <;> cases k' <;> first | rfl | exact absurd h (by decide)

end ObjectKind

/-- What an object is named after. -/
structure Label where
  kind : ObjectKind
  name : String
deriving DecidableEq, Repr, Inhabited

namespace Label

def object (l : Label) : String := l.kind.word ++ Identifier.fragment l.name

/-- The kinds are the same, and so are the fragments of the names. -/
def Alike (l l' : Label) : Prop :=
  l.kind = l'.kind ∧ Identifier.fragment l.name = Identifier.fragment l'.name

variable {l l' : Label}

theorem isCapitalised_object (l : Label) : Identifier.IsCapitalised l.object :=
  l.kind.isCapitalised_word.append_fragment l.name

theorem head?_object (l : Label) : l.object.toList.head? = some l.kind.initial := by
  rw [object, String.toList_append, List.head?_append, l.kind.head?_word]
  rfl

theorem object_eq_iff : l.object = l'.object ↔ l.Alike l' := by
  constructor
  · intro h
    -- The first letter gives the kind, and what follows the word of the kind is the fragment.
    have hinitial : some l.kind.initial = some l'.kind.initial := by
      rw [← head?_object, ← head?_object, h]
    have hkind : l.kind = l'.kind := ObjectKind.initial_injective (Option.some.inj hinitial)
    rw [object, object, hkind] at h
    exact ⟨hkind, (String.append_right_inj _).mp h⟩
  · rintro ⟨hkind, hfragment⟩
    rw [object, object, hkind, hfragment]

end Label

def Operator.Designation.label : Operator.Designation → Label
  | .function name => ⟨.function, name⟩
  | .operator name => ⟨.operator, name⟩

theorem Operator.Designation.object_label (d : Operator.Designation) :
    d.label.object = d.word ++ Identifier.fragment d.name := by
  cases d <;> rfl

namespace Group

/-- The group has an entity to bind at the path, and this is the kind and the name of its object. -/
inductive Labels (g : Group) (path : String) : Label → Prop
  | class {c : Class} (hc : (path, c) ∈ g.classes.entries) (hvisible : c.flags.nobind = false) :
    g.Labels path ⟨.usertype, c.name⟩
  | enumeration {e : Enumeration} (he : (path, e) ∈ g.enums.entries)
    (hvisible : e.flags.nobind = false) : g.Labels path ⟨.enumeration, e.name⟩
  | function {f : Callable} {d : Operator.Designation} (hf : g.Binds path f)
    (hd : Operator.classify f.name f.operands = .ok d) : g.Labels path d.label
  | global {v : Global} (hv : (path, v) ∈ g.globals.entries) (hvisible : v.flags.nobind = false) :
    g.Labels path ⟨.global, v.name⟩

variable {adapter : Adapter} {g : Group} {path scope o : String} {objects : List String}

theorem mem_bindables_iff :
    (path, .ok o) ∈ g.bindables ↔ ∃ l, g.Labels path l ∧ l.object = o := by
  simp only [bindables, List.mem_append, mem_objectsOf, Except.ok.injEq,
    Callable.object_eq_ok_iff, ← Operator.Designation.object_label]
  constructor
  · rintro (((⟨c, hc, hvisible, rfl⟩ | ⟨e, he, hvisible, rfl⟩) | ⟨f, hf, hbindable, d, hd, rfl⟩) |
      ⟨v, hv, hvisible, rfl⟩)
    · exact ⟨_, .class hc (Bool.not_eq_eq_eq_not.mp hvisible), rfl⟩
    · exact ⟨_, .enumeration he (Bool.not_eq_eq_eq_not.mp hvisible), rfl⟩
    · exact ⟨_, .function ⟨hf, hbindable⟩ hd, rfl⟩
    · exact ⟨_, .global hv (Bool.not_eq_eq_eq_not.mp hvisible), rfl⟩
  · rintro ⟨_, hl, rfl⟩
    cases hl with
    | @«class» c hc hvisible =>
      exact .inl (.inl (.inl ⟨c, hc, Bool.not_eq_eq_eq_not.mpr hvisible, rfl⟩))
    | @enumeration e he hvisible =>
      exact .inl (.inl (.inr ⟨e, he, Bool.not_eq_eq_eq_not.mpr hvisible, rfl⟩))
    | @function f d hf hd => exact .inl (.inr ⟨f, hf.1, hf.2, d, hd, rfl⟩)
    | @global v hv hvisible => exact .inr ⟨v, hv, Bool.not_eq_eq_eq_not.mpr hvisible, rfl⟩

theorem Emits.exists_labels (h : g.Emits adapter objects) :
    ∃ label : String × Except BindError String → Label,
      objects = g.bindables.map (fun e => (label e).object) ∧
      ∀ e ∈ g.bindables, g.Labels e.1 (label e) ∧ e.2 = .ok (label e).object := by
  obtain ⟨b, hb, rfl⟩ := emits_iff.mp h
  have hobjects := emit_objects hb
  have hlabel : ∀ e ∈ g.bindables, ∃ l, g.Labels e.1 l ∧ e.2 = .ok l.object := by
    intro e he
    have hmem : e.2 ∈ b.objects.map Except.ok := hobjects ▸ List.mem_map_of_mem he
    obtain ⟨o, _, ho⟩ := List.mem_map.mp hmem
    obtain ⟨l, hl, rfl⟩ := mem_bindables_iff.mp (show (e.1, .ok o) ∈ g.bindables from ho ▸ he)
    exact ⟨l, hl, ho.symm⟩
  choose! label hlabel using hlabel
  refine ⟨label, ?_, hlabel⟩
  apply List.map_injective_iff.mpr fun o o' => Except.ok.inj
  rw [hobjects, List.map_map]
  exact List.map_congr_left fun e he => (hlabel e he).2

theorem exists_labels_of_collision (h : (g.unit adapter).outcome = .error (.collision scope o)) :
    ∃ first second l l', first ≠ second ∧ g.Labels first l ∧ g.Labels second l' ∧
      l.object = o ∧ l'.object = o := by
  by_cases hname : g.name = ""
  · rw [unit, if_pos hname] at h
    cases hfirst : g.firstBindable with
    | none =>
      rw [hfirst] at h
      cases h
    | some entity =>
      rw [hfirst] at h
      cases h
  · obtain ⟨_, b, hb, ho⟩ := (unit_eq_collision hname).mp h
    obtain ⟨first, second, hne, hfirst, hsecond⟩ := exists_same_object hb ho
    obtain ⟨l, hl, hobject⟩ := mem_bindables_iff.mp hfirst
    obtain ⟨l', hl', hobject'⟩ := mem_bindables_iff.mp hsecond
    exact ⟨first, second, l, l', hne, hl, hl', hobject, hobject'⟩

end Group

namespace Database

open Identifier (IsCapitalised)

/-- The objects of a plan are capitalised identifiers, each made of the word of its kind and of the
fragment of a name. Among the objects of a group two are equal only where both are of one kind and
their names have one fragment, and so a group is refused only for entities of one kind. -/
theorem objects_labelled (adapter : Adapter) (db : Database) :
    (∀ units, (db.plan adapter).outcome = .ok units → ∀ u ∈ units, ∀ o ∈ u.objects,
      IsCapitalised o ∧ ∃ path l, (db.group u.scope).Labels path l ∧ l.object = o) ∧
    ∀ g : Group,
      (∀ objects, g.Emits adapter objects → ∃ entities : List (String × Label),
        entities.map Prod.fst = g.bindables.map Prod.fst ∧
        entities.map (fun e => e.2.object) = objects ∧
        (∀ e ∈ entities, g.Labels e.1 e.2) ∧
        entities.Pairwise fun e f => e.2.object = f.2.object → e.1 ≠ f.1 ∧ e.2.Alike f.2) ∧
      ∀ scope o, (g.unit adapter).outcome = .error (.collision scope o) →
        ∃ first second l l', first ≠ second ∧ g.Labels first l ∧ g.Labels second l' ∧
          l.object = o ∧ l.Alike l' ∧
          ∀ path k, g.Labels path k → k.object = o → k.Alike l := by
  refine ⟨?_, fun g => ⟨?_, ?_⟩⟩
  · intro units hplan u hu o ho
    have hmem : (.ok o : Except BindError String) ∈
        (db.group u.scope).bindables.map Prod.snd := by
      rw [bindables_group, ← objects_eq hplan hu]
      exact List.mem_map_of_mem ho
    obtain ⟨e, he, hobject⟩ := List.mem_map.mp hmem
    obtain ⟨l, hl, rfl⟩ := Group.mem_bindables_iff.mp
      (show (e.1, .ok o) ∈ (db.group u.scope).bindables from hobject ▸ he)
    exact ⟨l.isCapitalised_object, e.1, l, hl, rfl⟩
  · intro objects hemits
    obtain ⟨label, hobjects, hlabel⟩ := hemits.exists_labels
    refine ⟨g.bindables.map fun e => (e.1, label e), ?_, ?_, ?_, ?_⟩
    · rw [List.map_map]
      rfl
    · rw [hobjects, List.map_map]
      rfl
    · rw [List.forall_mem_map]
      exact fun e he => (hlabel e he).1
    · rw [List.pairwise_map]
      refine (Group.distinguished_bindables g).pairwise.imp_of_mem ?_
      intro e f he hf hdistinct hobject
      refine ⟨hdistinct.resolve_right fun hne => hne _ (hlabel e he).2 ?_,
        Label.object_eq_iff.mp hobject⟩
      rw [(hlabel f hf).2, hobject]
  · intro scope o hcollision
    obtain ⟨first, second, l, l', hne, hl, hl', rfl, hobject⟩ :=
      Group.exists_labels_of_collision hcollision
    refine ⟨first, second, l, l', hne, hl, hl', rfl, Label.object_eq_iff.mp hobject.symm, ?_⟩
    exact fun path k _ hk => Label.object_eq_iff.mp hk

/-- Entities of all kinds whose names have one fragment, and two whose names have an empty one. -/
def umlautSample : Database where
  classes := .ofEntries [
    ("ns::größe", { name := "größe", location := "include/foo.hpp" }),
    ("ns::ß", { name := "ß", location := "include/foo.hpp" })]
  enums := .ofEntries [("ns::Größe", { name := "Größe", location := "include/foo.hpp" })]
  functions := .ofEntries [
    ("ns::größe", .single { name := "größe", returnType := "int", location := "include/foo.hpp" }),
    ("ns::operator~", .single {
      name := "operator~"
      returnType := "int"
      parameters := [{ name := "value", type := "const ns::größe &" }]
      location := "include/foo.hpp" })]
  globals := .ofEntries [
    ("ns::größe", { name := "größe", type := "int", location := "include/foo.hpp" }),
    ("ns::ß", { name := "ß", type := "int", location := "include/foo.hpp" })]

theorem umlautSample_labelled :
    (∃ units, (umlautSample.plan .sol3).outcome = .ok units ∧
      units.map BindingUnit.objects = [["ClassGre", "Class", "EnumGre", "FunctionGre",
        "OperatorGreComplement", "GlobalGre", "Global"]] ∧
      ∀ u ∈ units, ∀ o ∈ u.objects, IsCapitalised o) ∧
    (∃ entities : List (String × Label),
      entities.map (fun e => e.2.object) = ["FunctionAdd", "FunctionAdd"] ∧
      entities.Pairwise fun e f => e.2.object = f.2.object → e.1 ≠ f.1 ∧ e.2.Alike f.2) ∧
    ∃ first second l l', first ≠ second ∧ clashSample.Labels first l ∧
      clashSample.Labels second l' ∧ l.object = "FunctionAdd" ∧ l.Alike l' := by
  obtain ⟨hplan, hgroup⟩ := objects_labelled .sol3 umlautSample
  have hobjects : (umlautSample.plan .sol3).outcome.map (List.map BindingUnit.objects) =
      .ok [["ClassGre", "Class", "EnumGre", "FunctionGre", "OperatorGreComplement", "GlobalGre",
        "Global"]] := by
    decide +kernel
  obtain ⟨hemits, hcollision⟩ := hgroup clashSample
  obtain ⟨entities, _, hentities, _, hdistinct⟩ :=
    hemits ["FunctionAdd", "FunctionAdd"] (Group.emits_iff.mpr ⟨_, rfl, rfl⟩)
  have hclash : (clashSample.unit .sol3).outcome = .error (.collision "ns" "FunctionAdd") := by
    decide +kernel
  obtain ⟨first, second, l, l', hne, hl, hl', hobject, halike, _⟩ := hcollision _ _ hclash
  refine ⟨?_, ⟨entities, hentities, hdistinct⟩, first, second, l, l', hne, hl, hl', hobject,
    halike⟩
  cases hunits : (umlautSample.plan .sol3).outcome with
  | error e =>
    rw [hunits] at hobjects
    cases hobjects
  | ok units =>
    rw [hunits] at hobjects
    exact ⟨units, rfl, Except.ok.inj hobjects,
      fun u hu o ho => (hplan units hunits u hu o ho).1⟩

end Database

end ScriptBindings
