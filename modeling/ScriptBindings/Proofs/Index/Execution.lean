import ScriptBindings.Index.Program
import ScriptBindings.Proofs.Index.TableOrder

namespace ScriptBindings

/-- The paths of the tables of a registration tree, and its loaders with the tables that they are
registered at. -/
structure RegistrationTree where
  tables : List (List String)
  loaders : List (List String × String)
deriving DecidableEq, Repr

namespace RegistrationTree

def root : RegistrationTree := ⟨[[]], []⟩

/-- A table is created once and below a table that is there. Loaders need the table that they are
registered at. -/
def step (t : RegistrationTree) : IndexStep → Option RegistrationTree
  | .createTable path =>
    if !path.isEmpty && !t.tables.contains path && t.tables.contains path.dropLast then
      some { t with tables := t.tables ++ [path] }
    else none
  | .register path objects =>
    if t.tables.contains path then
      some { t with loaders := t.loaders ++ objects.map fun o => (path, o) }
    else none

/-- Executes steps in turn, up to the first that is invalid. -/
def run (t : RegistrationTree) : List IndexStep → Option RegistrationTree
  | [] => some t
  | s :: steps => (t.step s).bind fun t => t.run steps

theorem run_append (t : RegistrationTree) (xs ys : List IndexStep) :
    t.run (xs ++ ys) = (t.run xs).bind fun t => t.run ys := by
  induction xs generalizing t with
  | nil => rfl
  | cons x xs ih =>
    cases h : t.step x with
    | none => simp [run, h]
    | some u => simpa [run, h] using ih u

theorem step_createTable {t : RegistrationTree} {path : List String} (hne : path ≠ [])
    (hnew : path ∉ t.tables) (hparent : path.dropLast ∈ t.tables) :
    t.step (.createTable path) = some { t with tables := t.tables ++ [path] } := by
  simp [step, hne, hnew, hparent]

theorem step_register {t : RegistrationTree} {path : List String} (objects : List String)
    (h : path ∈ t.tables) :
    t.step (.register path objects) =
      some { t with loaders := t.loaders ++ objects.map fun o => (path, o) } := by
  simp [step, h]

theorem run_createTables {tables : List (List String)} (done rest : List (List String))
    (h : TableOrder.IsCompletion tables (done ++ rest)) :
    (RegistrationTree.mk ([] :: done) []).run (rest.map .createTable) =
      some ⟨[] :: (done ++ rest), []⟩ := by
  induction rest generalizing done with
  | nil =>
    rw [List.append_nil]
    rfl
  | cons t rest ih =>
    obtain ⟨hne, hnew, hparent⟩ := h.parent_before
    have hstep : (RegistrationTree.mk ([] :: done) []).step (.createTable t) =
        some ⟨[] :: (done ++ [t]), []⟩ :=
      step_createTable hne (List.not_mem_cons_of_ne_of_not_mem hne hnew)
        (List.mem_cons.mpr hparent)
    rw [List.append_cons] at h ⊢
    rw [List.map_cons, run, hstep]
    exact ih _ h

theorem run_registers {t : RegistrationTree} {namespaces : List (List String × List String)}
    (h : ∀ n ∈ namespaces, n.1 ∈ t.tables) :
    t.run (namespaces.map fun n => .register n.1 n.2) =
      some { t with
        loaders := t.loaders ++ namespaces.flatMap fun n => n.2.map fun o => (n.1, o) } := by
  induction namespaces generalizing t with
  | nil =>
    rw [List.flatMap_nil, List.append_nil]
    rfl
  | cons n ns ih =>
    have hstep := step_register n.2 (h n List.mem_cons_self)
    have hrest := ih (t := { t with loaders := t.loaders ++ n.2.map fun o => (n.1, o) })
      fun m hm => h m (List.mem_cons_of_mem n hm)
    rw [List.map_cons, run, hstep, Option.bind_some, hrest, List.flatMap_cons, List.append_assoc]

end RegistrationTree

namespace BindingIndex

/-- Adds some namespaces with their objects, one after the other. -/
def addNamespaces (index : BindingIndex) (calls : List (List String × List String)) :
    BindingIndex :=
  calls.foldl (fun i c => i.addNamespace c.1 c.2) index

theorem addUnits_eq_addNamespaces (index : BindingIndex) (units : List BindingUnit) :
    index.addUnits units = index.addNamespaces (units.map fun u => (u.segments, u.objects)) := by
  rw [addUnits, addNamespaces, List.foldl_map]

/-- An index keeps the namespaces that have objects, in their order. -/
theorem addNamespaces_eq (index : BindingIndex) (calls : List (List String × List String)) :
    index.addNamespaces calls =
      { index with namespaces := index.namespaces ++ calls.filter fun c => c.2 ≠ [] } := by
  induction calls generalizing index with
  | nil => simp [addNamespaces]
  | cons c calls ih =>
    change (index.addNamespace c.1 c.2).addNamespaces calls = _
    rw [ih]
    by_cases h : c.2 = []
    · simp [addNamespace, h]
    · simp [addNamespace, h]

theorem addUnits_eq (includes : List String) {units : List BindingUnit}
    (h : ∀ u ∈ units, u.objects ≠ []) :
    (ofIncludes includes).addUnits units =
      ⟨includes, units.map fun u => (u.segments, u.objects)⟩ := by
  have hkept : (units.map fun u => (u.segments, u.objects)).filter (fun c => c.2 ≠ []) =
      units.map fun u => (u.segments, u.objects) := by
    apply List.filter_eq_self.mpr
    intro c hc
    obtain ⟨u, hu, rfl⟩ := List.mem_map.mp hc
    exact decide_eq_true (h u hu)
  rw [addUnits_eq_addNamespaces, addNamespaces_eq, hkept]
  rfl

/-- The tables in the order of their creation, and then the registrations. -/
def steps (index : BindingIndex) : List IndexStep :=
  (TableOrder.completed (index.namespaces.map Prod.fst)).map .createTable ++
    index.namespaces.map fun n => .register n.1 n.2

theorem outcome_tables (index : BindingIndex) :
    index.tables.outcome = .ok (TableOrder.completed (index.namespaces.map Prod.fst)) :=
  TableOrder.outcome_complete _

theorem outcome_program (index : BindingIndex) : index.program.outcome = .ok index.steps := by
  rw [program, Run.outcome_bind, outcome_tables]
  rfl

theorem outcome_text (index : BindingIndex) (adapter : Adapter) (scope treeName : String) :
    (index.text adapter scope treeName).outcome =
      .ok ("\n".intercalate (index.includes.map BindingUnit.includeLine ++
        opening adapter scope treeName ++ index.steps.map (stepText adapter) ++
          closing adapter)) := by
  rw [text, Run.outcome_bind, outcome_program]
  rfl

theorem loaderPath_eq (segments : List String) (object : String) :
    loaderPath segments object = "::".intercalate segments ++ "::Bindings::Load" ++ object := by
  have hword : "::Bindings::Load" = "::Bindings::" ++ "Load" := rfl
  rw [loaderPath, Scope.join, Loader.nameOf, hword]
  simp only [String.append_assoc]

theorem chainText_eq (adapter : Adapter) (segments objects : List String) :
    chainText adapter segments objects =
      "\n".intercalate (adapter.registerHead segments :: objects.map fun o =>
        adapter.registerLink o ("::".intercalate segments ++ "::Bindings::Load" ++ o)) ++ ";\n" := by
  simp only [chainText, loaderPath_eq]

/-- The lines of an index: includes, the head of the routine, tables, chains, and its end. -/
theorem outcome_text_lines (index : BindingIndex) (adapter : Adapter) (scope treeName : String) :
    (index.text adapter scope treeName).outcome = .ok ("\n".intercalate (
      index.includes.map (fun i => "#include <" ++ i ++ ">") ++
      ["#include <" ++ adapter.runtimeHeader ++ ">", "namespace " ++ scope ++ " \x7b",
        "void IndexAllBindings(" ++ adapter.stateType ++ " state)\n\x7b",
        adapter.indexTree treeName] ++
      ((TableOrder.completed (index.namespaces.map Prod.fst)).map adapter.newTable ++
        index.namespaces.map fun n =>
          "\n".intercalate (adapter.registerHead n.1 :: n.2.map fun o =>
            adapter.registerLink o ("::".intercalate n.1 ++ "::Bindings::Load" ++ o)) ++ ";\n") ++
      [adapter.installIndex, "\x7d\n\x7d\n"])) := by
  rw [outcome_text, steps, List.map_append, List.map_map, List.map_map]
  simp only [Function.comp_def, stepText, chainText_eq]
  rfl

theorem mem_completed_iff (index : BindingIndex) (p : List String) :
    p ∈ [] :: TableOrder.completed (index.namespaces.map Prod.fst) ↔
      p = [] ∨ ∃ n ∈ index.namespaces, p <+: n.1 := by
  rw [List.mem_cons, (TableOrder.isCompletion_completed _).mem_iff]
  by_cases hp : p = []
  · simp [hp]
  · simp [hp]

/-- No step of an index program is invalid. -/
theorem run_steps (index : BindingIndex) :
    RegistrationTree.root.run index.steps =
      some ⟨[] :: TableOrder.completed (index.namespaces.map Prod.fst),
        index.namespaces.flatMap fun n => n.2.map fun o => (n.1, o)⟩ := by
  have hcreate : RegistrationTree.root.run
      ((TableOrder.completed (index.namespaces.map Prod.fst)).map .createTable) =
        some ⟨[] :: TableOrder.completed (index.namespaces.map Prod.fst), []⟩ :=
    RegistrationTree.run_createTables [] _ (TableOrder.isCompletion_completed _)
  rw [steps, RegistrationTree.run_append, hcreate, Option.bind_some,
    RegistrationTree.run_registers]
  · rfl
  · intro n hn
    exact (mem_completed_iff index n.1).mpr (.inr ⟨n, hn, List.prefix_refl _⟩)

theorem nodup_tables (index : BindingIndex) :
    ([] :: TableOrder.completed (index.namespaces.map Prod.fst)).Nodup := by
  have hc := TableOrder.isCompletion_completed (index.namespaces.map Prod.fst)
  exact List.nodup_cons.mpr ⟨fun h => ((hc.mem_iff []).mp h).1 rfl, hc.nodup⟩

theorem flatMap_filter_objects (calls : List (List String × List String)) :
    ((calls.filter fun c => c.2 ≠ []).flatMap fun c => c.2.map fun o => (c.1, o)) =
      calls.flatMap fun c => c.2.map fun o => (c.1, o) := by
  induction calls with
  | nil => rfl
  | cons c calls ih =>
    by_cases h : c.2 = []
    · simpa [h] using ih
    · simpa [h] using ih

/-- The text that an index yields creates its tables, one by one, before it registers any loader.
Executed from the root alone, none of these steps is invalid. They leave the root with the prefixes
of the namespaces that have objects, and exactly their loaders. -/
theorem text_builds_tree (includes : List String) (calls : List (List String × List String))
    (adapter : Adapter) (scope treeName : String) :
    ∃ tables tree,
      let index := (ofIncludes includes).addNamespaces calls
      let kept := calls.filter fun c => c.2 ≠ []
      index.tables.outcome = .ok tables ∧
      (index.text adapter scope treeName).outcome = .ok ("\n".intercalate (
        includes.map (fun i => "#include <" ++ i ++ ">") ++
        ["#include <" ++ adapter.runtimeHeader ++ ">", "namespace " ++ scope ++ " \x7b",
          "void IndexAllBindings(" ++ adapter.stateType ++ " state)\n\x7b",
          adapter.indexTree treeName] ++
        (tables.map adapter.newTable ++ kept.map fun c =>
          "\n".intercalate (adapter.registerHead c.1 :: c.2.map fun o =>
            adapter.registerLink o ("::".intercalate c.1 ++ "::Bindings::Load" ++ o)) ++ ";\n") ++
        [adapter.installIndex, "\x7d\n\x7d\n"])) ∧
      RegistrationTree.root.run
        (tables.map .createTable ++ kept.map fun c => .register c.1 c.2) = some tree ∧
      tree.tables.Nodup ∧
      (∀ p, p ∈ tree.tables ↔ p = [] ∨ ∃ c ∈ calls, c.2 ≠ [] ∧ p <+: c.1) ∧
      tree.loaders = calls.flatMap fun c => c.2.map fun o => (c.1, o) := by
  have hi : (ofIncludes includes).addNamespaces calls =
      ⟨includes, calls.filter fun c => c.2 ≠ []⟩ := addNamespaces_eq _ _
  rw [hi]
  refine ⟨_, _, outcome_tables _, outcome_text_lines _ _ _ _, run_steps _, nodup_tables _,
    fun p => ?_, flatMap_filter_objects calls⟩
  rw [mem_completed_iff]
  simp only [List.mem_filter, decide_eq_true_eq, and_assoc]

end BindingIndex

end ScriptBindings
