import ScriptBindings.Proofs.ByteOrder
import ScriptBindings.Proofs.Emission.Objects
import ScriptBindings.Proofs.Plan.Units

namespace ScriptBindings

/-- The places at which the entries of a catalog are declared, as far as they satisfy `p`. -/
def locationsOf {α : Type} (p : α → Bool) (locations : α → List String) (c : Catalog α) :
    List String :=
  (c.entries.filter fun e => p e.2).flatMap fun e => locations e.2

/-- The places at which a group declares what it binds, one for each declaration. -/
def Group.locations (g : Group) : List String :=
  locationsOf (fun c => !c.flags.nobind) (fun c => [c.location]) g.classes ++
    locationsOf (fun e => !e.flags.nobind) (fun e => [e.location]) g.enums ++
    locationsOf Callable.isBindable (fun f => f.boundSignatures.map Signature.location)
      g.functions ++
    locationsOf (fun v => !v.flags.nobind) (fun v => [v.location]) g.globals

/-- A group declares something that it binds at a place. -/
inductive Group.DeclaresAt (g : Group) : String → Prop
  | ofClass {key : String} {c : Class} (h : (key, c) ∈ g.classes.entries)
      (hvisible : c.flags.nobind = false) : DeclaresAt g c.location
  | ofEnumeration {key : String} {e : Enumeration} (h : (key, e) ∈ g.enums.entries)
      (hvisible : e.flags.nobind = false) : DeclaresAt g e.location
  | ofCallable {key : String} {f : Callable} {s : Signature} (h : (key, f) ∈ g.functions.entries)
      (hbindable : f.isBindable = true) (hs : s ∈ f.boundSignatures) : DeclaresAt g s.location
  | ofGlobal {key : String} {v : Global} (h : (key, v) ∈ g.globals.entries)
      (hvisible : v.flags.nobind = false) : DeclaresAt g v.location

/-- The headers without which the loaders of a group do not compile: those that declare what it
binds, unless they are sources, and those that its namespace asks for, whatever they are. -/
inductive Group.Needs (g : Group) (header : String) : Prop
  | declaring (location : String) (h : g.DeclaresAt location)
      (heq : IncludePath.ofLocation location = header)
      (hheader : ∀ ending ∈ [".cpp", ".cc", ".cxx", ".c"], ¬ ending.toList <:+ header.toList)
  | requested (h : header ∈ g.info.additionalIncludes)

/-- The same overloads in another order. -/
inductive Callable.Reordered : Callable → Callable → Prop
  | single (s : Signature) : Reordered (.single s) (.single s)
  | overloaded {set : OverloadSet} {overloads : List Signature}
      (h : overloads.Perm set.overloads) :
      Reordered (.overloaded set) (.overloaded { set with overloads := overloads })

/-- The same entities, overloads and requests in another order. -/
structure Group.Reordered (g g' : Group) : Prop where
  classes : g'.classes.entries.Perm g.classes.entries
  enums : g'.enums.entries.Perm g.enums.entries
  functions : ∃ es, es.Perm g.functions.entries ∧
    List.Forall₂ (fun e e' => e.1 = e'.1 ∧ e.2.Reordered e'.2) es g'.functions.entries
  globals : g'.globals.entries.Perm g.globals.entries
  requests : g'.info.additionalIncludes.Perm g.info.additionalIncludes

/-- Ways to write a group down anew: in another order, or so that places of declarations and
requests come more often or less often, as long as each comes at all. -/
inductive Group.Rewritten (g g' : Group) : Prop
  | reordered (h : g.Reordered g')
  | repeated (hlocations : ∀ location, g'.DeclaresAt location ↔ g.DeclaresAt location)
      (hrequests : ∀ header, header ∈ g'.info.additionalIncludes ↔
        header ∈ g.info.additionalIncludes)

/-- The source of a unit with the loaders of a group includes `headers`, line by line, between its
own header and that of the runtime. -/
def Group.Includes (adapter : Adapter) (g : Group) (u : BindingUnit) (headers : List String) :
    Prop :=
  ∃ b, (g.emit adapter).outcome = .ok b ∧
    u.source = "#include <" ++ u.headerInclude ++ ">\n\n" ++
      "\n".intercalate (headers.map fun header => "#include <" ++ header ++ ">") ++
      "\n\n#include <" ++ adapter.runtimeHeader ++ ">\n\nnamespace " ++ g.name ++
      "::Bindings\n\x7b\n" ++ "\n".intercalate b.bodies ++ "\n\x7d;\n"

theorem IncludePath.isSource_eq_false_iff {path : String} : isSource path = false ↔
    ∀ ending ∈ [".cpp", ".cc", ".cxx", ".c"], ¬ ending.toList <:+ path.toList := by
  rw [isSource, sourceEndings, List.any_eq_false]
  simp only [List.isSuffixOf_iff_suffix]

section Catalogs

variable {α : Type} {p : α → Bool} {locations : α → List String}

theorem mem_locationsOf {c : Catalog α} {location : String} :
    location ∈ locationsOf p locations c ↔
      ∃ key a, (key, a) ∈ c.entries ∧ p a = true ∧ location ∈ locations a := by
  simp [locationsOf, and_assoc]

theorem emitEach_includes (emit : String → α → Run BindingSet) {c : Catalog α} {b : BindingSet}
    (hemit : ∀ path a s, (emit path a).outcome = .ok s →
      s.includes = if p a then (locations a).map IncludePath.ofLocation else [])
    (h : (emitEach emit c).outcome = .ok b) :
    b.includes = (locationsOf p locations c).map IncludePath.ofLocation := by
  unfold emitEach at h
  obtain ⟨sets, hsets, h⟩ := Run.outcome_bind_eq_ok.mp h
  cases h
  change sets.flatMap BindingSet.includes = _
  rw [locationsOf]
  have hall := Run.outcome_collect_eq_ok.mp hsets
  -- The induction is on the entries alone, so that the sets vary with them.
  clear hsets h
  generalize c.entries = entries at hall ⊢
  induction hall with
  | nil => rfl
  | @cons e s es sets hs _ ih =>
    rw [List.flatMap_cons, ih, hemit e.1 e.2 s hs, List.filter_cons]
    split
    · rw [List.flatMap_cons, List.map_append]
    · rfl

end Catalogs

section Entities

variable {adapter : Adapter} {path : String} {s : BindingSet}

theorem Class.emit_includes {c : Class} (h : (c.emit adapter path).outcome = .ok s) :
    s.includes =
      if !c.flags.nobind then [c.location].map IncludePath.ofLocation else [] := by
  rcases outcome_emit_eq_ok.mp h with ⟨hc, rfl⟩ | ⟨hc, _, _, rfl⟩
  · rw [hc]
    rfl
  · rw [hc]
    rfl

theorem Enumeration.emit_includes {e : Enumeration} (h : (e.emit adapter path).outcome = .ok s) :
    s.includes =
      if !e.flags.nobind then [e.location].map IncludePath.ofLocation else [] := by
  rw [outcome_emit] at h
  cases h
  cases e.flags.nobind with
  | true => rfl
  | false => rfl

theorem Callable.emit_includes {f : Callable} (h : (f.emit adapter path).outcome = .ok s) :
    s.includes = if f.isBindable then
      (f.boundSignatures.map Signature.location).map IncludePath.ofLocation else [] := by
  rcases outcome_emit_eq_ok.mp h with ⟨hf, rfl⟩ | ⟨hf, _, _, rfl⟩
  · rw [hf]
    rfl
  · rw [hf]
    rfl

theorem Global.emit_includes {v : Global} (h : (v.emit adapter path).outcome = .ok s) :
    s.includes =
      if !v.flags.nobind then [v.location].map IncludePath.ofLocation else [] := by
  rw [outcome_emit] at h
  cases h
  cases v.flags.nobind with
  | true => rfl
  | false => rfl

end Entities

namespace Group

variable {adapter : Adapter} {g g' : Group} {b : BindingSet} {header : String}

theorem mem_locations_iff {location : String} : location ∈ g.locations ↔ g.DeclaresAt location := by
  simp only [locations, List.mem_append, mem_locationsOf, List.mem_singleton, List.mem_map,
    Bool.not_eq_true']
  constructor
  · rintro (((⟨key, c, h, hvisible, rfl⟩ | ⟨key, e, h, hvisible, rfl⟩) |
      ⟨key, f, h, hbindable, s, hs, rfl⟩) | ⟨key, v, h, hvisible, rfl⟩)
    · exact .ofClass h hvisible
    · exact .ofEnumeration h hvisible
    · exact .ofCallable h hbindable hs
    · exact .ofGlobal h hvisible
  · intro h
    cases h with
    | ofClass h hvisible => exact .inl (.inl (.inl ⟨_, _, h, hvisible, rfl⟩))
    | ofEnumeration h hvisible => exact .inl (.inl (.inr ⟨_, _, h, hvisible, rfl⟩))
    | ofCallable h hbindable hs => exact .inl (.inr ⟨_, _, h, hbindable, _, hs, rfl⟩)
    | ofGlobal h hvisible => exact .inr ⟨_, _, h, hvisible, rfl⟩

theorem emit_includes (h : (g.emit adapter).outcome = .ok b) :
    b.includes = g.locations.map IncludePath.ofLocation := by
  obtain ⟨classes, enums, functions, globals, hc, he, hf, hg, rfl⟩ := emit_eq_ok.mp h
  change classes.includes ++ enums.includes ++ functions.includes ++ globals.includes = _
  simp only [locations, List.map_append,
    emitEach_includes (Class.emit adapter) (fun path c s => Class.emit_includes) hc,
    emitEach_includes (Enumeration.emit adapter) (fun path e s => Enumeration.emit_includes) he,
    emitEach_includes (Callable.emit adapter) (fun path f s => Callable.emit_includes) hf,
    emitEach_includes (Global.emit adapter) (fun path v s => Global.emit_includes) hg]

theorem mem_includesOf_iff (h : (g.emit adapter).outcome = .ok b) :
    header ∈ BindingUnit.includesOf b g.info ↔ g.Needs header := by
  rw [BindingUnit.includesOf, SortedSet.mem_ofList, List.mem_append, emit_includes h]
  simp only [List.mem_filter, List.mem_map, mem_locations_iff, Bool.not_eq_true',
    IncludePath.isSource_eq_false_iff]
  constructor
  · rintro (⟨⟨location, hl, heq⟩, hheader⟩ | hrequested)
    · exact .declaring location hl heq hheader
    · exact .requested hrequested
  · intro h
    cases h with
    | declaring location hl heq hheader => exact .inl ⟨⟨location, hl, heq⟩, hheader⟩
    | requested h => exact .inr h

theorem Needs.mono (hlocations : ∀ location, g.DeclaresAt location → g'.DeclaresAt location)
    (hrequests : g.info.additionalIncludes ⊆ g'.info.additionalIncludes) (h : g.Needs header) :
    g'.Needs header := by
  cases h with
  | declaring location hl heq hheader => exact .declaring location (hlocations _ hl) heq hheader
  | requested h => exact .requested (hrequests h)

end Group

namespace Callable.Reordered

variable {f f' : Callable}

theorem boundSignatures_perm (h : f.Reordered f') :
    f'.boundSignatures.Perm f.boundSignatures := by
  cases h with
  | single s => exact List.Perm.refl _
  | overloaded h => exact h.filter _

theorem isBindable_eq (h : f.Reordered f') : f'.isBindable = f.isBindable := by
  have hflags : f'.flags = f.flags := by
    cases h with
    | single s => rfl
    | overloaded h => rfl
  rw [isBindable, isBindable, hflags, h.boundSignatures_perm.isEmpty_eq]

end Callable.Reordered

namespace Group

variable {adapter : Adapter} {g g' : Group} {u : BindingUnit}

theorem locationsOf_perm {α : Type} {p : α → Bool} {locations : α → List String}
    {c c' : Catalog α} (h : c'.entries.Perm c.entries) :
    (locationsOf p locations c').Perm (locationsOf p locations c) :=
  (h.filter _).flatMap_right _

theorem Reordered.locations_perm (h : g.Reordered g') : g'.locations.Perm g.locations := by
  refine ((((locationsOf_perm h.classes).append (locationsOf_perm h.enums)).append ?_).append
    (locationsOf_perm h.globals))
  obtain ⟨es, hperm, hall⟩ := h.functions
  refine List.Perm.trans ?_ ((hperm.filter _).flatMap_right _)
  unfold locationsOf
  generalize g'.functions.entries = es' at hall
  clear hperm
  induction hall with
  | nil => exact List.Perm.nil
  | @cons e e' es es' he _ ih =>
    rw [List.filter_cons, List.filter_cons, he.2.isBindable_eq]
    split
    · exact (he.2.boundSignatures_perm.map _).append ih
    · exact ih

theorem Rewritten.needs_iff (h : g.Rewritten g') (header : String) :
    g'.Needs header ↔ g.Needs header := by
  obtain ⟨hlocations, hrequests⟩ : (∀ location, g'.DeclaresAt location ↔ g.DeclaresAt location) ∧
      ∀ header, header ∈ g'.info.additionalIncludes ↔ header ∈ g.info.additionalIncludes := by
    cases h with
    | reordered h =>
      refine ⟨fun location => ?_, fun header => h.requests.mem_iff⟩
      rw [← mem_locations_iff, ← mem_locations_iff]
      exact h.locations_perm.mem_iff
    | repeated hlocations hrequests => exact ⟨hlocations, hrequests⟩
  constructor
  · exact Needs.mono (fun l => (hlocations l).mp) fun i => (hrequests i).mp
  · exact Needs.mono (fun l => (hlocations l).mpr) fun i => (hrequests i).mpr

/-- The headers of a unit are those that its group needs, in order. -/
theorem exists_includes (h : (g.unit adapter).outcome = .ok (some u)) :
    ∃ headers, g.Includes adapter u headers ∧ headers.Pairwise (· < ·) ∧
      ∀ header, header ∈ headers ↔ g.Needs header := by
  obtain ⟨_, b, hb, _, _, rfl⟩ := unit_eq_some.mp h
  refine ⟨BindingUnit.includesOf b g.info, ⟨b, hb, ?_⟩, SortedSet.pairwise_ofList _,
    fun header => mem_includesOf_iff hb⟩
  exact BindingUnit.sourceText_eq _ _ _ _ _

/-- A unit includes exactly the headers that its group needs, each by one line, in the order of
their bytes. No other group with the same needs includes anything else, whatever it binds and for
which runtime. So no order of entities, overloads or requests plays a part, and no repetition of a
place. -/
theorem unit_includes_needed (h : (g.unit adapter).outcome = .ok (some u)) :
    ∃ headers : List String,
      g.Includes adapter u headers ∧
      headers.Pairwise (fun header header' => bytes header < bytes header') ∧
      (∀ header, header ∈ headers ↔ g.Needs header) ∧
      (∀ (adapter' : Adapter) (g' : Group) (u' : BindingUnit),
        (g'.unit adapter').outcome = .ok (some u') →
          (∀ header, g'.Needs header ↔ g.Needs header) → g'.Includes adapter' u' headers) ∧
      ∀ (adapter' : Adapter) (g' : Group) (u' : BindingUnit),
        (g'.unit adapter').outcome = .ok (some u') → g.Rewritten g' →
          g'.Includes adapter' u' headers := by
  obtain ⟨headers, hincludes, hsorted, hmem⟩ := exists_includes h
  have hsame (adapter' : Adapter) (g' : Group) (u' : BindingUnit)
      (h' : (g'.unit adapter').outcome = .ok (some u'))
      (hneeds : ∀ header, g'.Needs header ↔ g.Needs header) : g'.Includes adapter' u' headers := by
    obtain ⟨headers', hincludes', hsorted', hmem'⟩ := exists_includes h'
    have heq : headers' = headers := hsorted'.eq_of_mem_iff hsorted fun header => by
      rw [hmem', hmem, hneeds]
    rwa [heq] at hincludes'
  exact ⟨headers, hincludes, hsorted.imp bytes_lt, hmem, hsame,
    fun adapter' g' u' h' hrewritten => hsame adapter' g' u' h' hrewritten.needs_iff⟩

/-- Declarations in headers and in a source, hidden ones among them, and requests in no order. -/
def scatteredSample : Group where
  name := "ns"
  info := { additionalIncludes := ["ns/limits.cpp", "base.hpp"] }
  classes := .ofEntries [
    ("ns::Foo", { name := "Foo", location := "include/ns/foo.hpp" }),
    ("ns::Bar", { name := "Bar", location := "include/ns/bar.hpp", flags := ⟨true⟩ })]
  functions := .ofEntries [
    ("ns::f", .overloaded {
      name := "f"
      overloads := [
        { name := "f", returnType := "int", location := "lib\\include\\ns\\f.hpp" },
        { name := "f", returnType := "int", location := "include/ns/foo.hpp",
          parameters := [⟨"x", "int", none⟩] },
        { name := "f", returnType := "int", location := "include/ns/secret.hpp",
          parameters := [⟨"key", "Key", none⟩], flags := ⟨true⟩ }] })]
  globals := .ofEntries [
    ("ns::limit", { name := "limit", type := "int", location := "src/ns/limit.cpp" })]

/-- The same group from its end. -/
def reversedSample : Group where
  name := "ns"
  info := { additionalIncludes := scatteredSample.info.additionalIncludes.reverse }
  classes := .ofEntries scatteredSample.classes.entries.reverse
  functions := .ofEntries (scatteredSample.functions.entries.map fun e =>
    (e.1, .overloaded { name := "f", overloads := e.2.signatures.reverse }))
  globals := scatteredSample.globals

/-- The same group with one more entity in a header that is needed already. -/
def crowdedSample : Group :=
  { scatteredSample with
    enums := .ofEntries [("ns::Mode", { name := "Mode", location := "include/ns/foo.hpp" })] }

theorem scatteredSample_reordered : scatteredSample.Reordered reversedSample where
  classes := List.reverse_perm scatteredSample.classes.entries
  enums := List.Perm.refl _
  functions := ⟨_, List.Perm.refl _, .cons ⟨rfl, .overloaded (List.reverse_perm _)⟩ .nil⟩
  globals := List.Perm.refl _
  requests := List.reverse_perm _

theorem scatteredSample_includes :
    ∃ u u' u'' headers, (scatteredSample.unit .sol3).outcome = .ok (some u) ∧
      (reversedSample.unit .sol3).outcome = .ok (some u') ∧
      (crowdedSample.unit .sol3).outcome = .ok (some u'') ∧
      scatteredSample.Includes .sol3 u headers ∧ reversedSample.Includes .sol3 u' headers ∧
      crowdedSample.Includes .sol3 u'' headers ∧
      headers = ["base.hpp", "ns/f.hpp", "ns/foo.hpp", "ns/limits.cpp"] := by
  have hunit : (scatteredSample.unit .sol3).outcome = .ok (some _) := rfl
  have hreversed : (reversedSample.unit .sol3).outcome = .ok (some _) := rfl
  have hcrowded : (crowdedSample.unit .sol3).outcome = .ok (some _) := rfl
  obtain ⟨headers, hincludes, hsorted, hmem, _, hrewritten⟩ := unit_includes_needed hunit
  refine ⟨_, _, _, headers, hunit, hreversed, hcrowded, hincludes,
    hrewritten .sol3 _ _ hreversed (.reordered scatteredSample_reordered),
    hrewritten .sol3 _ _ hcrowded (.repeated (fun location => ?_) fun _ => Iff.rfl), ?_⟩
  · have hcrowd : crowdedSample.locations =
        "include/ns/foo.hpp" :: "include/ns/foo.hpp" :: scatteredSample.locations.tail := rfl
    have hscattered : scatteredSample.locations =
        "include/ns/foo.hpp" :: scatteredSample.locations.tail := rfl
    rw [← mem_locations_iff, ← mem_locations_iff, hcrowd, hscattered]
    simp
  · refine (hsorted.imp bytes_lt_iff.mp).eq_of_mem_iff (by decide) fun header => ?_
    have hemit : (scatteredSample.emit .sol3).outcome = .ok _ := rfl
    rw [hmem, ← mem_includesOf_iff hemit]
    exact Iff.rfl

end Group

end ScriptBindings
