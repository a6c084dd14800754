import Mathlib.Algebra.Ring.Nat
import Mathlib.Data.List.Perm.Basic
import Mathlib.Data.List.Sort
import ScriptBindings.Database.Group
import ScriptBindings.Proofs.Dictionary
import ScriptBindings.Proofs.SortedSet

namespace ScriptBindings

/-- An entity of one of the five kinds under its qualified name. -/
inductive Entity where
  | class (key : String) (value : Class)
  | enum (key : String) (value : Enumeration)
  | function (key : String) (value : Callable)
  | global (key : String) (value : Global)
  | typedef (key : String) (value : Typedef)

namespace Entity

def key : Entity → String
  | .class key _ => key
  | .enum key _ => key
  | .function key _ => key
  | .global key _ => key
  | .typedef key _ => key

/-- The namespace that holds an entity. -/
def scope (e : Entity) : String := Scope.parent e.key

/-- Every entity lies in one of the lists that the namespaces cut out. -/
theorem flatMap_filter_perm {scopes : List String} (hnodup : scopes.Nodup) {es : List Entity}
    (hcover : ∀ e ∈ es, e.scope ∈ scopes) :
    (scopes.flatMap fun s => es.filter fun e => e.scope = s).Perm es := by
  induction scopes generalizing es with
  | nil =>
    cases es with
    | nil => exact .refl _
    | cons e es => cases hcover e List.mem_cons_self
  | cons s scopes ih =>
    obtain ⟨hs, hscopes⟩ := List.nodup_cons.mp hnodup
    have hrest (t : String) (ht : t ∈ scopes) :
        es.filter (fun e => e.scope = t) =
          (es.filter fun e => !decide (e.scope = s)).filter fun e => e.scope = t := by
      rw [List.filter_filter]
      apply List.filter_congr
      intro e _
      by_cases he : e.scope = t
      · have hne : t ≠ s := fun h => hs (h ▸ ht)
        simp [he, hne]
      · simp [he]
    have hothers : ∀ e ∈ es.filter fun e => !decide (e.scope = s), e.scope ∈ scopes := by
      intro e he
      rw [List.mem_filter] at he
      have hmem := hcover e he.1
      simpa [show e.scope ≠ s by simpa using he.2] using hmem
    have hmap : (scopes.flatMap fun t => es.filter fun e => e.scope = t) =
        scopes.flatMap fun t =>
          (es.filter fun e => !decide (e.scope = s)).filter fun e => e.scope = t := by
      rw [List.flatMap_def, List.flatMap_def, List.map_congr_left hrest]
    rw [List.flatMap_cons, hmap]
    exact ((ih hscopes hothers).append_left _).trans (List.filter_append_perm _ es)

end Entity

namespace Group

/-- All entities of a group, kind by kind. -/
def entities (g : Group) : List Entity :=
  g.classes.entries.map (fun e => .class e.1 e.2) ++ g.enums.entries.map (fun e => .enum e.1 e.2) ++
    g.functions.entries.map (fun e => .function e.1 e.2) ++
    g.globals.entries.map (fun e => .global e.1 e.2) ++
    g.typedefs.entries.map (fun e => .typedef e.1 e.2)

/-- Writes an entity into the catalog of its kind. -/
def add (g : Group) : Entity → Group
  | .class key value => { g with classes := g.classes.insert key value }
  | .enum key value => { g with enums := g.enums.insert key value }
  | .function key value => { g with functions := g.functions.insert key value }
  | .global key value => { g with globals := g.globals.insert key value }
  | .typedef key value => { g with typedefs := g.typedefs.insert key value }

/-- Adds an entity to the group of its namespace. A missing group is made where it belongs. -/
def place (e : Entity) : List Group → List Group
  | [] => [add { name := e.scope } e]
  | g :: gs =>
    if e.scope < g.name then add { name := e.scope } e :: g :: gs
    else if e.scope = g.name then g.add e :: gs
    else g :: place e gs

/-- The group that some entities make in a namespace. -/
def gather (es : List Entity) (scope : String) : Group :=
  (es.filter fun e => e.scope = scope).foldl add { name := scope }

variable {es : List Entity} {e : Entity}

theorem name_add (g : Group) (e : Entity) : (g.add e).name = g.name := by
  cases e <;> rfl

theorem name_foldl_add (g : Group) (es : List Entity) : (es.foldl add g).name = g.name := by
  induction es generalizing g with
  | nil => rfl
  | cons e es ih => rw [List.foldl_cons, ih, name_add]

theorem gather_concat (es : List Entity) (e : Entity) (scope : String) :
    gather (es ++ [e]) scope =
      if e.scope = scope then (gather es scope).add e else gather es scope := by
  rw [gather, List.filter_append, List.filter_singleton, List.foldl_append]
  by_cases h : e.scope = scope
  · simp [h, gather]
  · simp [h, gather]

theorem gather_of_not_mem {scope : String} (h : scope ∉ es.map Entity.scope) :
    gather es scope = { name := scope } := by
  have hnil : (es.filter fun e => e.scope = scope) = [] := by
    rw [List.filter_eq_nil_iff]
    intro e he hscope
    exact h (of_decide_eq_true hscope ▸ List.mem_map_of_mem he)
  rw [gather, hnil, List.foldl_nil]

theorem place_map {f : String → Group} (hname : ∀ s, (f s).name = s)
    {scopes : List String} (hsorted : scopes.Pairwise (· < ·))
    (hnew : e.scope ∉ scopes → f e.scope = { name := e.scope }) :
    place e (scopes.map f) =
      (SortedSet.insert e.scope scopes).map fun s => if e.scope = s then (f s).add e else f s := by
  have hkeep {ss : List String} (h : e.scope ∉ ss) :
      (ss.map fun s => if e.scope = s then (f s).add e else f s) = ss.map f := by
    apply List.map_congr_left
    intro s hs
    apply if_neg
    intro heq
    exact h (heq ▸ hs)
  induction scopes with
  | nil =>
    have he := hnew List.not_mem_nil
    simp [place, SortedSet.insert, he]
  | cons s scopes ih =>
    obtain ⟨hs, hscopes⟩ := List.pairwise_cons.mp hsorted
    rw [List.map_cons, place, hname, SortedSet.insert]
    by_cases hlt : e.scope < s
    · -- All names of the list are greater, so the group is new and no other one changes.
      have hnot : e.scope ∉ s :: scopes := by
        intro hmem
        rcases List.mem_cons.mp hmem with heq | hmem
        · exact hlt.ne heq
        · exact lt_asymm hlt (hs _ hmem)
      rw [if_pos hlt, if_pos hlt, List.map_cons, if_pos rfl, hkeep hnot, hnew hnot, List.map_cons]
    · rw [if_neg hlt, if_neg hlt]
      by_cases heq : e.scope = s
      · have hnot : e.scope ∉ scopes := fun hmem => (hs _ hmem).ne heq.symm
        rw [if_pos heq, if_pos heq, List.map_cons, if_pos heq, hkeep hnot]
      · have htail : e.scope ∉ scopes → f e.scope = { name := e.scope } := fun h =>
          hnew (List.not_mem_cons_of_ne_of_not_mem heq h)
        rw [if_neg heq, if_neg heq, List.map_cons, if_neg heq, ih hscopes htail]

theorem foldl_place (es : List Entity) :
    es.foldl (fun gs e => place e gs) [] =
      (SortedSet.ofList (es.map Entity.scope)).map (gather es) := by
  induction es using List.reverseRecOn with
  | nil => rfl
  | append_singleton es e ih =>
    have hname (s : String) : (gather es s).name = s := name_foldl_add _ _
    have hnew (h : e.scope ∉ SortedSet.ofList (es.map Entity.scope)) :
        gather es e.scope = { name := e.scope } :=
      gather_of_not_mem (mt SortedSet.mem_ofList.mpr h)
    rw [List.foldl_append, ih, List.foldl_cons, List.foldl_nil,
      place_map hname (SortedSet.pairwise_ofList _) hnew, List.map_append, List.map_singleton,
      SortedSet.ofList_concat]
    apply List.map_congr_left
    intro s _
    exact (gather_concat es e s).symm

theorem foldl_add {α : Type} {kind : String → α → Entity} {f : Catalog α → Group}
    (h : ∀ c key value, (f c).add (kind key value) = f (c.insert key value)) (c : Catalog α)
    (es : List (String × α)) :
    (es.map fun e => kind e.1 e.2).foldl add (f c) = f (c.insertAll es) := by
  induction es generalizing c with
  | nil => rfl
  | cons e es ih =>
    rw [List.map_cons, List.foldl_cons, h, ih]
    rfl

theorem foldl_add_entities (g : Group) :
    g.entities.foldl add { name := g.name, info := g.info } = g := by
  have hall {α : Type} (c : Catalog α) : Dictionary.empty.insertAll c.entries = c :=
    Dictionary.ofEntries_entries c
  obtain ⟨name, info, classes, enums, functions, globals, typedefs⟩ := g
  simp only [entities, List.foldl_append]
  -- The entities of a kind fill one catalog, while the others stay as they are.
  rw [foldl_add (f := fun c => ⟨name, info, c, .empty, .empty, .empty, .empty⟩) fun _ _ _ => rfl,
    foldl_add (f := fun c => ⟨name, info, _, c, .empty, .empty, .empty⟩) fun _ _ _ => rfl,
    foldl_add (f := fun c => ⟨name, info, _, _, c, .empty, .empty⟩) fun _ _ _ => rfl,
    foldl_add (f := fun c => ⟨name, info, _, _, _, c, .empty⟩) fun _ _ _ => rfl,
    foldl_add (f := fun c => ⟨name, info, _, _, _, _, c⟩) fun _ _ _ => rfl]
  simp only [hall]

end Group

namespace Database

def entities (db : Database) : List Entity := (db.asGroup "" {}).entities

/-- The groups that are left when every entity has been placed and each group has been told what
the database knows of its namespace. -/
def collected (db : Database) : List Group :=
  (db.entities.foldl (fun gs e => Group.place e gs) []).map fun g =>
    { g with info := (db.namespaces.get? g.name).getD g.info }

/-- The groups divide the entities of a database by their namespaces. -/
structure IsPartition (db : Database) (gs : List Group) : Prop where
  increasing : (gs.map Group.name).Pairwise (· < ·)
  entities_ne_nil : ∀ g ∈ gs, g.entities ≠ []
  existsUnique : ∀ e ∈ db.entities, ∃! g, g ∈ gs ∧ e ∈ g.entities
  scope_eq : ∀ g ∈ gs, ∀ e ∈ g.entities, e ∈ db.entities ∧ e.scope = g.name
  perm : (gs.flatMap Group.entities).Perm db.entities
  classes : ∀ g ∈ gs, g.classes = within g.name db.classes
  enums : ∀ g ∈ gs, g.enums = within g.name db.enums
  functions : ∀ g ∈ gs, g.functions = within g.name db.functions
  globals : ∀ g ∈ gs, g.globals = within g.name db.globals
  typedefs : ∀ g ∈ gs, g.typedefs = within g.name db.typedefs
  sum_sizes : (gs.map fun g => g.entities.length).sum = db.size
  info : ∀ g ∈ gs, g.info = (db.namespaces.get? g.name).getD {}

variable {db : Database} {gs : List Group} {e : Entity} {scope : String}

theorem length_entities (db : Database) : db.entities.length = db.size := by
  simp only [entities, Group.entities, asGroup, List.length_append, List.length_map]
  rfl

theorem map_scope_entities (db : Database) :
    db.entities.map Entity.scope = db.keys.map Scope.parent := by
  simp only [entities, Group.entities, asGroup, keys, Dictionary.keys, List.map_append,
    List.map_map]
  rfl

theorem mem_scopes : scope ∈ db.scopes ↔ ∃ e ∈ db.entities, e.scope = scope := by
  rw [scopes, SortedSet.mem_ofList, ← map_scope_entities, List.mem_map]

theorem map_name_groups (db : Database) : db.groups.map Group.name = db.scopes := by
  rw [groups, List.map_map]
  exact List.map_id _

theorem map_within {α : Type} {kind : String → α → Entity}
    (h : ∀ key value, (kind key value).key = key) (scope : String) (c : Catalog α) :
    (within scope c).entries.map (fun e => kind e.1 e.2) =
      (c.entries.map fun e => kind e.1 e.2).filter fun e => e.scope = scope := by
  simp only [within, Dictionary.filter, List.filter_map, Function.comp_def, Entity.scope, h]

/-- The group of a namespace has the entities that lie there. -/
theorem entities_group (db : Database) (scope : String) :
    (db.group scope).entities = db.entities.filter fun e => e.scope = scope := by
  simp only [entities, Group.entities, asGroup, group, List.filter_append]
  rw [map_within fun _ _ => rfl, map_within fun _ _ => rfl, map_within fun _ _ => rfl,
    map_within fun _ _ => rfl, map_within fun _ _ => rfl]

theorem mem_entities_group :
    e ∈ (db.group scope).entities ↔ e ∈ db.entities ∧ e.scope = scope := by
  rw [entities_group, List.mem_filter, decide_eq_true_eq]

theorem gather_entities (db : Database) (scope : String) :
    Group.gather db.entities scope = { db.group scope with info := {} } := by
  rw [Group.gather, ← entities_group]
  exact Group.foldl_add_entities { db.group scope with info := {} }

theorem collected_eq_groups (db : Database) : db.collected = db.groups := by
  rw [collected, Group.foldl_place, map_scope_entities, List.map_map, groups, scopes]
  apply List.map_congr_left
  intro scope _
  rw [Function.comp_apply, gather_entities]
  rfl

theorem flatMap_entities_groups (db : Database) :
    (db.groups.flatMap Group.entities).Perm db.entities := by
  rw [groups, List.flatMap_map]
  simp only [entities_group]
  apply Entity.flatMap_filter_perm (SortedSet.nodup_ofList _)
  intro e he
  exact mem_scopes.mpr ⟨e, he, rfl⟩

theorem isPartition_groups (db : Database) : db.IsPartition db.groups := by
  have hgroup {p : Group → Prop} (h : ∀ s ∈ db.scopes, p (db.group s)) : ∀ g ∈ db.groups, p g :=
    List.forall_mem_map.mpr h
  constructor
  case increasing =>
    rw [map_name_groups]
    exact SortedSet.pairwise_ofList _
  case entities_ne_nil =>
    apply hgroup
    intro s hs
    obtain ⟨e, he, hscope⟩ := mem_scopes.mp hs
    exact List.ne_nil_of_mem (mem_entities_group.mpr ⟨he, hscope⟩)
  case existsUnique =>
    intro e he
    have hmem : db.group e.scope ∈ db.groups :=
      List.mem_map_of_mem (mem_scopes.mpr ⟨e, he, rfl⟩)
    refine ⟨db.group e.scope, ⟨hmem, mem_entities_group.mpr ⟨he, rfl⟩⟩, ?_⟩
    rintro g ⟨hg, heg⟩
    obtain ⟨s, _, rfl⟩ := List.mem_map.mp hg
    rw [(mem_entities_group.mp heg).2]
  case scope_eq =>
    apply hgroup
    intro s _ e he
    exact mem_entities_group.mp he
  case perm => exact flatMap_entities_groups db
  case sum_sizes =>
    rw [← length_entities, ← (flatMap_entities_groups db).length_eq, List.length_flatMap]
  all_goals
    apply hgroup
    intro s _
    rfl

/-- A group of a partition is given by its name. -/
theorem IsPartition.eq_group {g : Group} (h : db.IsPartition gs) (hg : g ∈ gs) :
    db.group g.name = g := by
  have hinfo := h.info g hg
  have hclasses := h.classes g hg
  have henums := h.enums g hg
  have hfunctions := h.functions g hg
  have hglobals := h.globals g hg
  have htypedefs := h.typedefs g hg
  cases g
  simp only [group, Group.mk.injEq]
  exact ⟨trivial, hinfo.symm, hclasses.symm, henums.symm, hfunctions.symm, hglobals.symm,
    htypedefs.symm⟩

theorem IsPartition.mem_names (h : db.IsPartition gs) :
    scope ∈ gs.map Group.name ↔ scope ∈ db.scopes := by
  rw [mem_scopes, List.mem_map]
  constructor
  · rintro ⟨g, hg, rfl⟩
    obtain ⟨e, he⟩ := List.exists_mem_of_ne_nil _ (h.entities_ne_nil g hg)
    exact ⟨e, h.scope_eq g hg e he⟩
  · rintro ⟨e, he, rfl⟩
    obtain ⟨g, ⟨hg, heg⟩, _⟩ := h.existsUnique e he
    exact ⟨g, hg, (h.scope_eq g hg e heg).2.symm⟩

theorem IsPartition.eq_groups (h : db.IsPartition gs) : gs = db.groups := by
  have hnames : gs.map Group.name = db.scopes :=
    List.Pairwise.eq_of_mem_iff h.increasing (SortedSet.pairwise_ofList _) fun _ => h.mem_names
  have hself : gs.map (fun g => db.group g.name) = gs.map id :=
    List.map_congr_left fun _ hg => h.eq_group hg
  calc
    gs = gs.map id := (List.map_id gs).symm
    _ = gs.map (fun g => db.group g.name) := hself.symm
    _ = (gs.map Group.name).map db.group := by rw [List.map_map]; rfl
    _ = db.groups := by rw [hnames, groups]

/-- The groups of a database are what placing its entities one after the other leaves, and they are
the one way to divide the database by the namespaces of its entities. -/
theorem groups_partition (db : Database) :
    db.collected = db.groups ∧ ∀ gs, db.IsPartition gs ↔ gs = db.groups := by
  constructor
  · exact collected_eq_groups db
  · intro gs
    constructor
    · exact IsPartition.eq_groups
    · rintro rfl
      exact isPartition_groups db

end Database

end ScriptBindings
