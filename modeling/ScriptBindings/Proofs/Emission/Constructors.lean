import ScriptBindings.Adapter.Sol3
import ScriptBindings.Proofs.CallShape
import ScriptBindings.Proofs.Emission
import ScriptBindings.Proofs.FirstOccurrence

namespace ScriptBindings.Class

/-- The text is the constructor of a class with the shape of this arity, made from the visible
declaration at the index. -/
inductive Constructs (path : String) (c : Class) (index arity : Nat) : String → Prop
  | of {s : Signature} {shape : CallShape} (hs : c.constructors[index]? = some s)
    (hvisible : s.flags.nobind = false) (hshape : shape ∈ s.callShapes)
    (harity : shape.arity = arity) :
    Constructs path c index arity (path ++ "(" ++ shape.types ++ ")")

/-- The place of a constructor comes earlier: its declaration does, or its arity is smaller. -/
def Earlier (p q : Nat × Nat) : Prop := p.1 < q.1 ∨ p.1 = q.1 ∧ p.2 < q.2

variable {path : String} {c : Class} {s : Signature} {text : String} {i k : Nat}

/-- The constructors for the call shapes of one declaration. -/
def shapeTexts (path : String) (s : Signature) : List String :=
  s.callShapes.map fun shape => path ++ "(" ++ shape.types ++ ")"

/-- The constructors of the visible declarations, repetitions included. -/
def declaredTexts (path : String) (ss : List Signature) : List String :=
  (ss.filter fun s => !s.flags.nobind).flatMap (shapeTexts path)

/-- All constructors of a class with their places. -/
def places (path : String) (c : Class) : List ((Nat × Nat) × String) :=
  (c.constructors.zipIdx.filter fun e => !e.1.flags.nobind).flatMap fun e =>
    e.1.callShapes.map fun shape => ((e.2, shape.arity), path ++ "(" ++ shape.types ++ ")")

theorem mem_places_iff : ((i, k), text) ∈ places path c ↔ Constructs path c i k text := by
  unfold places
  simp only [List.mem_flatMap, List.mem_map, List.mem_filter, List.mem_zipIdx_iff_getElem?]
  constructor
  · rintro ⟨e, ⟨hs, hvisible⟩, shape, hshape, heq⟩
    cases heq
    exact .of hs (by simpa using hvisible) hshape rfl
  · rintro ⟨hs, hvisible, hshape, rfl⟩
    exact ⟨(_, i), ⟨hs, by simpa using hvisible⟩, _, hshape, rfl⟩

theorem pairwise_places (path : String) (c : Class) :
    (places path c).Pairwise fun p q => Earlier p.1 q.1 := by
  have hindices : c.constructors.zipIdx.Pairwise fun e e' => e.2 < e'.2 := by
    have hrange := List.pairwise_lt_range' (s := 0) (n := c.constructors.length) 1
    rw [← List.zipIdx_map_snd] at hrange
    exact List.pairwise_map.mp hrange
  refine List.pairwise_flatMap.mpr ⟨fun e _ => ?_, ?_⟩
  · have harities : (e.1.callShapes.map CallShape.arity).Pairwise (· < ·) := by
      rw [Signature.map_arity_callShapes]
      exact List.pairwise_lt_range'
    rw [List.pairwise_map]
    exact (List.pairwise_map.mp harities).imp fun h => .inr ⟨rfl, h⟩
  · apply (hindices.filter _).imp
    intro e e' hlt p hp q hq
    obtain ⟨_, _, rfl⟩ := List.mem_map.mp hp
    obtain ⟨_, _, rfl⟩ := List.mem_map.mp hq
    exact .inl hlt

theorem map_snd_places (path : String) (c : Class) :
    (places path c).map Prod.snd = declaredTexts path c.constructors := by
  have hvisible : c.constructors.filter (fun s => !s.flags.nobind) =
      (c.constructors.zipIdx.filter fun e => !e.1.flags.nobind).map Prod.fst := by
    have hfilter := List.filter_map (f := Prod.fst) (p := fun s : Signature => !s.flags.nobind)
      (l := c.constructors.zipIdx)
    rwa [List.zipIdx_map_fst] at hfilter
  rw [declaredTexts, hvisible, List.flatMap_map, places, List.map_flatMap]
  simp only [List.map_map, shapeTexts]
  rfl

theorem mem_declaredTexts_iff {ss : List Signature} : text ∈ declaredTexts path ss ↔
    ∃ s ∈ ss, s.flags.nobind = false ∧
      ∃ shape ∈ s.callShapes, path ++ "(" ++ shape.types ++ ")" = text := by
  simp [declaredTexts, shapeTexts, and_assoc]

theorem constructorList_eq (path : String) (c : Class) : c.constructorList path =
    if c.isAbstract then [] else (declaredTexts path c.constructors).eraseDups :=
  rfl

theorem exists_constructs_iff :
    (∃ i k, Constructs path c i k text) ↔ text ∈ declaredTexts path c.constructors := by
  rw [← map_snd_places]
  simp only [← mem_places_iff, List.mem_map, Prod.exists, exists_eq_right]

theorem mem_constructorList_iff (h : c.isAbstract = false) :
    text ∈ c.constructorList path ↔ ∃ i k, Constructs path c i k text := by
  rw [constructorList_eq, h, if_neg Bool.false_ne_true, List.mem_eraseDups, exists_constructs_iff]

theorem pairwise_constructorList (h : c.isAbstract = false) :
    (c.constructorList path).Pairwise fun a b => ∃ i k, Constructs path c i k a ∧
      ∀ j m, Constructs path c j m b → Earlier (i, k) (j, m) := by
  rw [constructorList_eq, h, if_neg Bool.false_ne_true, ← map_snd_places]
  apply (pairwise_eraseDups (pairwise_places path c)).imp
  rintro a b ⟨⟨i, k⟩, ha, hfirst⟩
  exact ⟨i, k, mem_places_iff.mp ha, fun j m hb => hfirst (j, m) (mem_places_iff.mpr hb)⟩

theorem not_earlier_self (p : Nat × Nat) : ¬ Earlier p p := by
  rintro (h | ⟨_, h⟩)
  · exact Nat.lt_irrefl _ h
  · exact Nat.lt_irrefl _ h

theorem nodup_constructorList (h : c.isAbstract = false) : (c.constructorList path).Nodup := by
  apply (pairwise_constructorList h).imp
  rintro a _ ⟨i, k, ha, hfirst⟩ rfl
  exact not_earlier_self (i, k) (hfirst i k ha)

theorem declaredTexts_append (path : String) (ss ss' : List Signature) :
    declaredTexts path (ss ++ ss') = declaredTexts path ss ++ declaredTexts path ss' := by
  rw [declaredTexts, List.filter_append, List.flatMap_append]
  rfl

/-- A declaration adds nothing where its constructors have all been declared before it. -/
theorem constructorList_insert {front back : List Signature}
    (h : declaredTexts path [s] ⊆ declaredTexts path front) :
    { c with constructors := front ++ s :: back }.constructorList path =
      { c with constructors := front ++ back }.constructorList path := by
  have hsplit : front ++ s :: back = front ++ ([s] ++ back) := rfl
  rw [constructorList_eq, constructorList_eq]
  simp only [hsplit, declaredTexts_append, eraseDups_append_of_subset h]

theorem constructorList_repeat {front back : List Signature} (hc : c.constructors = front ++ back)
    (h : s ∈ front) : { c with constructors := front ++ s :: back }.constructorList path =
      c.constructorList path := by
  have hsubset : declaredTexts path [s] ⊆ declaredTexts path front := by
    intro text htext
    obtain ⟨r, hr, hdeclared⟩ := mem_declaredTexts_iff.mp htext
    obtain rfl := List.mem_singleton.mp hr
    exact mem_declaredTexts_iff.mpr ⟨r, h, hdeclared⟩
  rw [constructorList_insert hsubset, ← hc]

theorem constructorList_covered (h : s.flags.nobind = false → ∀ shape ∈ s.callShapes,
      ∃ i k, Constructs path c i k (path ++ "(" ++ shape.types ++ ")")) :
    { c with constructors := c.constructors ++ [s] }.constructorList path =
      c.constructorList path := by
  have hsubset : declaredTexts path [s] ⊆ declaredTexts path c.constructors := by
    intro text htext
    obtain ⟨r, hr, hvisible, shape, hshape, rfl⟩ := mem_declaredTexts_iff.mp htext
    obtain rfl := List.mem_singleton.mp hr
    exact exists_constructs_iff.mp (h hvisible shape hshape)
  rw [constructorList_insert hsubset, List.append_nil]

/-- The user type of a class that is not abstract is made with one constructor for each call shape
of a visible declaration, each once, in the order in which they occur first: by declarations, then
by arities. An abstract class has none. Neither a declaration that comes again nor one whose shapes
are all there already changes the list. -/
theorem constructorList_ordered (path : String) (c : Class) :
    (c.isAbstract = false →
      (c.constructorList path).Nodup ∧
      (∀ text, text ∈ c.constructorList path ↔ ∃ i k, Constructs path c i k text) ∧
      (c.constructorList path).Pairwise fun a b => ∃ i k, Constructs path c i k a ∧
        ∀ j m, Constructs path c j m b → Earlier (i, k) (j, m)) ∧
    (c.isAbstract = true → c.constructorList path = []) ∧
    (∀ adapter statements, (c.statements adapter path).outcome = .ok statements →
      ∃ members, statements = adapter.fetchTable (tableOf path) ::
        adapter.newUsertype (adapter.tableVariable (tableOf path)) (c.usertype adapter) c.name path
          (c.constructorList path) c.bases :: members) ∧
    (∀ front s back, c.constructors = front ++ back → s ∈ front →
      { c with constructors := front ++ s :: back }.constructorList path =
        c.constructorList path) ∧
    ∀ s : Signature, (s.flags.nobind = false → ∀ shape ∈ s.callShapes,
        ∃ i k, Constructs path c i k (path ++ "(" ++ shape.types ++ ")")) →
      { c with constructors := c.constructors ++ [s] }.constructorList path =
        c.constructorList path := by
  refine ⟨fun h => ?_, fun h => ?_, fun adapter statements h => ?_, ?_, ?_⟩
  · exact ⟨nodup_constructorList h, fun text => mem_constructorList_iff h,
      pairwise_constructorList h⟩
  · rw [constructorList_eq, if_pos h]
  · obtain ⟨members, rfl⟩ := statements_eq_ok h
    exact ⟨members, rfl⟩
  · intro front s back hc hs
    exact constructorList_repeat hc hs
  · intro s hs
    exact constructorList_covered hs

/-- A class with a default value, a hidden constructor, and one whose only shape is there
already. -/
def boxSample : Class where
  name := "Box"
  location := "include/box.hpp"
  constructors := [
    { name := "Box", parameters := [⟨"w", "int", none⟩, ⟨"h", "int", some "1"⟩] },
    { name := "Box", parameters := [⟨"key", "ns::Key", none⟩], flags := ⟨true⟩ },
    { name := "Box", parameters := [⟨"side", "int", none⟩] },
    { name := "Box", parameters := [⟨"scale", "float", some "1.f"⟩] }]

/-- A constructor with the shape of the last one of `boxSample` that passes nothing. -/
def bareSample : Signature := { name := "Box" }

/-- The same class, with a member left to others to define. -/
def shapeSample : Class := { boxSample with isAbstract := true }

theorem boxSample_constructorList :
    boxSample.isAbstract = false ∧ shapeSample.isAbstract = true ∧
      boxSample.constructorList "ns::Box" =
        ["ns::Box(int)", "ns::Box(int, int)", "ns::Box()", "ns::Box(float)"] ∧
      (boxSample.constructorList "ns::Box").Nodup ∧
      (∃ i k, Constructs "ns::Box" boxSample i k "ns::Box(float)") ∧
      shapeSample.constructorList "ns::Box" = [] ∧
      (∀ s ∈ boxSample.constructors,
        { boxSample with constructors := boxSample.constructors ++ [s] }.constructorList "ns::Box" =
          boxSample.constructorList "ns::Box") ∧
      { boxSample with constructors :=
          boxSample.constructors ++ [bareSample] }.constructorList "ns::Box" =
        boxSample.constructorList "ns::Box" ∧
      ∃ statements members, (boxSample.statements .sol3 "ns::Box").outcome = .ok statements ∧
        statements = Adapter.sol3.fetchTable ["ns"] ::
          Adapter.sol3.newUsertype "nsNamespace" "bindBox" "Box" "ns::Box"
            (boxSample.constructorList "ns::Box") [] :: members := by
  have hbox : boxSample.isAbstract = false := rfl
  have hshape : shapeSample.isAbstract = true := rfl
  obtain ⟨hlist, _, hstatements, hrepeat, hcovered⟩ := constructorList_ordered "ns::Box" boxSample
  obtain ⟨_, habstract, _⟩ := constructorList_ordered "ns::Box" shapeSample
  obtain ⟨hnodup, hmem, _⟩ := hlist hbox
  have hbare : ∃ i k, Constructs "ns::Box" boxSample i k "ns::Box()" :=
    (hmem "ns::Box()").mp (by decide)
  refine ⟨hbox, hshape, by decide, hnodup, (hmem _).mp (by decide), habstract hshape, ?_, ?_, ?_⟩
  · intro s hs
    exact hrepeat boxSample.constructors s [] (List.append_nil _).symm hs
  · refine hcovered bareSample fun _ shape h => ?_
    obtain rfl := List.mem_singleton.mp h
    exact hbare
  · obtain ⟨members, hmembers⟩ := hstatements .sol3 _ rfl
    exact ⟨_, members, rfl, hmembers⟩

end ScriptBindings.Class
