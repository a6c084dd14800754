import Mathlib.Data.List.Sort
import Mathlib.Data.String.Basic
import ScriptBindings.Proofs.Files.Listing

namespace ScriptBindings

/-- What a directory holds, in the order in which a file system enumerates it. What is no directory
is a regular file or, like a socket, none. -/
inductive Entries
  | nil
  | file (name : String) (isRegular : Bool) (rest : Entries)
  | directory (name : String) (entries rest : Entries)
deriving DecidableEq, Repr

namespace Entries

/-- The visits that one entry of a directory brings, its own first. Blocks have the order of their
names, which is that of the bytes of the names. -/
structure Block where
  name : String
  visits : List Visit
deriving DecidableEq, Repr

namespace Block

instance : LE Block := ⟨fun b b' => b.name ≤ b'.name⟩

instance : DecidableLE Block := fun b b' => inferInstanceAs (Decidable (b.name ≤ b'.name))

instance : Std.Total fun b b' : Block => b ≤ b' := ⟨fun b b' => le_total b.name b'.name⟩

instance : IsTrans Block fun b b' => b ≤ b' := ⟨fun _ _ _ h h' => String.le_trans h h'⟩

end Block

/-- All visits, those of a block together and the blocks in the order of their names. -/
def inOrder (blocks : List Block) : List Visit :=
  (blocks.insertionSort fun b b' => b ≤ b').flatMap Block.visits

def blocks : Entries → List Block
  | nil => []
  | file name isRegular rest => ⟨name, [⟨[name], isRegular⟩]⟩ :: blocks rest
  | directory name entries rest =>
    -- This is the walk through the directory, seen from above it.
    ⟨name, (⟨[], false⟩ :: inOrder (blocks entries)).map (Visit.under [name])⟩ :: blocks rest

/-- The walk through a directory that holds the entries. -/
def walk (es : Entries) : List Visit := ⟨[], false⟩ :: inOrder es.blocks

/-- The names of the regular files, in the order of a walk. -/
def files (es : Entries) : List (List String) :=
  (es.walk.filter Visit.isRegular).map Visit.names

/-- The names lead to an entry, which is a regular file or not. -/
inductive Leads : Entries → List String → Bool → Prop
  | file {name : String} {isRegular : Bool} {rest : Entries} :
    Leads (.file name isRegular rest) [name] isRegular
  | directory {name : String} {entries rest : Entries} :
    Leads (.directory name entries rest) [name] false
  | inside {name : String} {entries rest : Entries} {names : List String} {isRegular : Bool}
    (h : Leads entries names isRegular) :
    Leads (.directory name entries rest) (name :: names) isRegular
  | pastFile {name : String} {regular isRegular : Bool} {rest : Entries} {names : List String}
    (h : Leads rest names isRegular) : Leads (.file name regular rest) names isRegular
  | pastDirectory {name : String} {entries rest : Entries} {names : List String} {isRegular : Bool}
    (h : Leads rest names isRegular) : Leads (.directory name entries rest) names isRegular

/-- The names of the entries in the directory itself. -/
def siblings : Entries → List String
  | nil => []
  | file name _ rest => name :: siblings rest
  | directory name _ rest => name :: siblings rest

/-- No two entries of a directory have the same name, and no name has a slash in it. -/
def IsProper : Entries → Prop
  | nil => True
  | file name _ rest => '/' ∉ name.toList ∧ name ∉ rest.siblings ∧ rest.IsProper
  | directory name entries rest =>
    '/' ∉ name.toList ∧ name ∉ rest.siblings ∧ entries.IsProper ∧ rest.IsProper

instance decidableIsProper : DecidablePred IsProper
  | nil => isTrue trivial
  | file _ _ rest =>
    have := decidableIsProper rest
    inferInstanceAs (Decidable (_ ∧ _ ∧ rest.IsProper))
  | directory _ entries rest =>
    have := decidableIsProper entries
    have := decidableIsProper rest
    inferInstanceAs (Decidable (_ ∧ _ ∧ entries.IsProper ∧ rest.IsProper))

section Leads

variable {es entries rest : Entries} {name : String} {names : List String}
  {isRegular regular : Bool}

theorem leads_file : (file name regular rest).Leads names isRegular ↔
    names = [name] ∧ isRegular = regular ∨ rest.Leads names isRegular := by
  constructor
  · intro h
    cases h with
    | file => exact .inl ⟨rfl, rfl⟩
    | pastFile h => exact .inr h
  · rintro (⟨rfl, rfl⟩ | h)
    · exact .file
    · exact .pastFile h

theorem leads_directory : (directory name entries rest).Leads names isRegular ↔
    (names = [name] ∧ isRegular = false ∨
      ∃ below, names = name :: below ∧ entries.Leads below isRegular) ∨
      rest.Leads names isRegular := by
  constructor
  · intro h
    cases h with
    | directory => exact .inl (.inl ⟨rfl, rfl⟩)
    | inside h => exact .inl (.inr ⟨_, rfl, h⟩)
    | pastDirectory h => exact .inr h
  · rintro ((⟨rfl, rfl⟩ | ⟨below, rfl, h⟩) | h)
    · exact .directory
    · exact .inside h
    · exact .pastDirectory h

theorem Leads.exists_cons (h : es.Leads names isRegular) : ∃ name below, names = name :: below := by
  induction h with
  | file => exact ⟨_, _, rfl⟩
  | directory => exact ⟨_, _, rfl⟩
  | inside => exact ⟨_, _, rfl⟩
  | pastFile _ ih => exact ih
  | pastDirectory _ ih => exact ih

theorem Leads.slash_not_mem (h : es.Leads names isRegular) (hes : es.IsProper) :
    ∀ s ∈ names, '/' ∉ s.toList := by
  induction h with
  | file => exact List.forall_mem_singleton.mpr hes.1
  | directory => exact List.forall_mem_singleton.mpr hes.1
  | inside _ ih => exact List.forall_mem_cons.mpr ⟨hes.1, ih hes.2.2.1⟩
  | pastFile _ ih => exact ih hes.2.2
  | pastDirectory _ ih => exact ih hes.2.2.2

end Leads

section Order

variable {es : Entries} {bs : List Block} {b : Block} {v : Visit} {names : List String}

theorem pairwise_insertionSort (h : (bs.map Block.name).Nodup) :
    (bs.insertionSort fun b b' => b ≤ b').Pairwise fun b b' => b.name < b'.name := by
  have hsorted := List.pairwise_insertionSort (fun b b' : Block => b ≤ b') bs
  have hperm := (List.perm_insertionSort (fun b b' : Block => b ≤ b') bs).map Block.name
  have hdistinct := List.pairwise_map.mp (hperm.nodup_iff.mpr h)
  exact (hsorted.and hdistinct).imp fun h => lt_of_le_of_ne h.1 h.2

theorem mem_inOrder : v ∈ inOrder bs ↔ ∃ b ∈ bs, v ∈ b.visits := by
  simp only [inOrder, List.mem_flatMap, List.mem_insertionSort]

theorem mem_inOrder_cons : v ∈ inOrder (b :: bs) ↔ v ∈ b.visits ∨ v ∈ inOrder bs := by
  simp only [mem_inOrder, List.exists_mem_cons_iff]

theorem mem_map_under {name : String} {vs : List Visit} : v ∈ vs.map (Visit.under [name]) ↔
    ∃ below, v.names = name :: below ∧ ⟨below, v.isRegular⟩ ∈ vs := by
  rw [List.mem_map]
  constructor
  · rintro ⟨u, hu, rfl⟩
    exact ⟨u.names, rfl, hu⟩
  · rintro ⟨below, hnames, hu⟩
    exact ⟨_, hu, congrArg (Visit.mk · v.isRegular) hnames.symm⟩

/-- The walk visits every entry at any depth, and nothing else. -/
theorem mem_inOrder_blocks (es : Entries) (v : Visit) :
    v ∈ inOrder es.blocks ↔ es.Leads v.names v.isRegular := by
  induction es generalizing v with
  | nil =>
    rw [blocks, mem_inOrder]
    exact iff_of_false (fun ⟨_, hb, _⟩ => List.not_mem_nil hb) (fun h => nomatch h)
  | file name regular rest ih =>
    rw [blocks, mem_inOrder_cons, ih, leads_file, List.mem_singleton, ← Visit.mk.injEq]
  | directory name entries rest ih ih' =>
    rw [blocks, mem_inOrder_cons, ih', leads_directory, List.map_cons, List.mem_cons,
      mem_map_under, ← Visit.mk.injEq]
    simp only [ih]
    rfl

theorem mem_files : names ∈ es.files ↔ es.Leads names true := by
  simp only [files, walk, List.mem_map, List.mem_filter, List.mem_cons]
  constructor
  · rintro ⟨v, ⟨rfl | hv, hregular⟩, rfl⟩
    · cases hregular
    · rw [mem_inOrder_blocks, hregular] at hv
      exact hv
  · intro h
    exact ⟨⟨names, true⟩, ⟨.inr ((mem_inOrder_blocks es _).mpr h), rfl⟩, rfl⟩

theorem names_blocks (es : Entries) : es.blocks.map Block.name = es.siblings := by
  induction es with
  | nil => rfl
  | file name _ rest ih => exact congrArg (name :: ·) ih
  | directory name _ rest _ ih => exact congrArg (name :: ·) ih

theorem pairwise_inOrder (hnames : (bs.map Block.name).Nodup)
    (hbs : ∀ b ∈ bs, b.visits.Pairwise fun v v' => v.names < v'.names)
    (hvisits : ∀ b ∈ bs, ∀ v ∈ b.visits, ∃ below, v.names = b.name :: below) :
    (inOrder bs).Pairwise fun v v' => v.names < v'.names := by
  have hmem {b : Block} : b ∈ bs.insertionSort (fun b b' => b ≤ b') ↔ b ∈ bs :=
    List.mem_insertionSort _
  refine List.pairwise_flatMap.mpr ⟨fun b hb => hbs b (hmem.mp hb), ?_⟩
  apply (pairwise_insertionSort hnames).imp_of_mem
  intro b b' hb hb' hlt v hv v' hv'
  obtain ⟨below, hv⟩ := hvisits _ (hmem.mp hb) v hv
  obtain ⟨below', hv'⟩ := hvisits _ (hmem.mp hb') v' hv'
  rw [hv, hv']
  exact List.cons_lt_cons_iff.mpr (.inl hlt)

theorem IsProper.nodup_siblings (h : es.IsProper) : es.siblings.Nodup := by
  induction es with
  | nil => exact List.nodup_nil
  | file name _ rest ih => exact List.nodup_cons.mpr ⟨h.2.1, ih h.2.2⟩
  | directory name _ rest _ ih => exact List.nodup_cons.mpr ⟨h.2.1, ih h.2.2.2⟩

theorem names_of_mem_blocks (h : b ∈ es.blocks) :
    ∀ v ∈ b.visits, ∃ below, v.names = b.name :: below := by
  induction es with
  | nil => cases h
  | file name regular rest ih =>
    rcases List.mem_cons.mp h with rfl | h
    · exact List.forall_mem_singleton.mpr ⟨[], rfl⟩
    · exact ih h
  | directory name entries rest _ ih =>
    rcases List.mem_cons.mp h with rfl | h
    · intro v hv
      obtain ⟨below, hnames, _⟩ := mem_map_under.mp hv
      exact ⟨below, hnames⟩
    · exact ih h

theorem pairwise_walk_of_blocks (hes : es.siblings.Nodup)
    (h : ∀ b ∈ es.blocks, b.visits.Pairwise fun v v' => v.names < v'.names) :
    es.walk.Pairwise fun v v' => v.names < v'.names := by
  rw [← names_blocks] at hes
  refine List.pairwise_cons.mpr ⟨fun v hv => ?_,
    pairwise_inOrder hes h fun b hb => names_of_mem_blocks hb⟩
  obtain ⟨name, below, hnames⟩ := ((mem_inOrder_blocks es v).mp hv).exists_cons
  rw [hnames]
  exact List.nil_lt_cons name below

theorem IsProper.pairwise_blocks (h : es.IsProper) :
    ∀ b ∈ es.blocks, b.visits.Pairwise fun v v' => v.names < v'.names := by
  induction es with
  | nil => exact List.forall_mem_nil _
  | file name regular rest ih =>
    exact List.forall_mem_cons.mpr ⟨List.pairwise_singleton _ _, ih h.2.2⟩
  | directory name entries rest ih ih' =>
    refine List.forall_mem_cons.mpr ⟨?_, ih' h.2.2.2⟩
    have hwalk := pairwise_walk_of_blocks h.2.2.1.nodup_siblings (ih h.2.2.1)
    apply List.pairwise_map.mpr
    apply hwalk.imp
    intro v v' hlt
    exact List.cons_lt_cons_iff.mpr (.inr ⟨rfl, hlt⟩)

/-- The walk goes through the entries by the order of the names that lead to them. -/
theorem IsProper.pairwise_walk (h : es.IsProper) :
    es.walk.Pairwise fun v v' => v.names < v'.names :=
  pairwise_walk_of_blocks h.nodup_siblings h.pairwise_blocks

theorem IsProper.pairwise_files (h : es.IsProper) : es.files.Pairwise (· < ·) :=
  List.pairwise_map.mpr (h.pairwise_walk.filter Visit.isRegular)

theorem IsProper.eq_of_leads (hes : es.IsProper) {isRegular isRegular' : Bool}
    (h : es.Leads names isRegular) (h' : es.Leads names isRegular') : isRegular = isRegular' := by
  have hmem {isRegular : Bool} (h : es.Leads names isRegular) : ⟨names, isRegular⟩ ∈ es.walk :=
    List.mem_cons_of_mem _ ((mem_inOrder_blocks es _).mpr h)
  have hnodup : (es.walk.map Visit.names).Nodup := (List.pairwise_map.mpr hes.pairwise_walk).nodup
  exact congrArg Visit.isRegular (List.inj_on_of_nodup_map hnodup (hmem h) (hmem h') rfl)

end Order

section Reordered

variable {es es' : Entries} {names : List String} {isRegular : Bool}

def append : Entries → Entries → Entries
  | nil, es => es
  | file name isRegular rest, es => file name isRegular (append rest es)
  | directory name entries rest, es => directory name entries (append rest es)

/-- The same entries are enumerated in another order, in the directory itself or in one below. -/
inductive Reordered : Entries → Entries → Prop
  | refl (es : Entries) : Reordered es es
  | exchanged (first second rest : Entries) :
    Reordered (first.append (second.append rest)) (second.append (first.append rest))
  | inside {name : String} {entries entries' rest : Entries} (h : Reordered entries entries') :
    Reordered (.directory name entries rest) (.directory name entries' rest)
  | trans {es es₁ es' : Entries} (h : Reordered es es₁) (h' : Reordered es₁ es') : Reordered es es'

theorem leads_append : (es.append es').Leads names isRegular ↔
    es.Leads names isRegular ∨ es'.Leads names isRegular := by
  induction es with
  | nil => exact (or_iff_right fun h => nomatch h).symm
  | file name regular rest ih => rw [append, leads_file, leads_file, ih, or_assoc]
  | directory name entries rest _ ih => simp only [append, leads_directory, ih, or_assoc]

theorem siblings_append (es es' : Entries) :
    (es.append es').siblings = es.siblings ++ es'.siblings := by
  induction es with
  | nil => rfl
  | file name _ rest ih => exact congrArg (name :: ·) ih
  | directory name _ rest _ ih => exact congrArg (name :: ·) ih

theorem isProper_append : (es.append es').IsProper ↔
    es.IsProper ∧ es'.IsProper ∧ ∀ name ∈ es.siblings, name ∉ es'.siblings := by
  induction es with
  | nil => simp [append, IsProper, siblings]
  | file name _ rest ih =>
    simp only [append, IsProper, siblings_append, List.mem_append, not_or, ih, siblings,
      List.forall_mem_cons]
    tauto
  | directory name entries rest _ ih =>
    simp only [append, IsProper, siblings_append, List.mem_append, not_or, ih, siblings,
      List.forall_mem_cons]
    tauto

theorem Reordered.leads_iff (h : es.Reordered es') :
    es.Leads names isRegular ↔ es'.Leads names isRegular := by
  induction h generalizing names isRegular with
  | refl => rfl
  | exchanged first second rest =>
    simp only [leads_append]
    exact or_left_comm
  | inside _ ih => simp only [leads_directory, ih]
  | trans _ _ ih ih' => exact ih.trans ih'

theorem Reordered.isProper (h : es.Reordered es') (hes : es.IsProper) : es'.IsProper := by
  induction h with
  | refl => exact hes
  | exchanged first second rest =>
    simp only [isProper_append, siblings_append, List.mem_append, not_or] at hes ⊢
    obtain ⟨hfirst, ⟨hsecond, hrest, hapart⟩, hfirsts⟩ := hes
    refine ⟨hsecond, ⟨hfirst, hrest, fun name hname => (hfirsts name hname).2⟩, ?_⟩
    intro name hname
    exact ⟨fun h => (hfirsts name h).1 hname, hapart name hname⟩
  | inside _ ih => exact ⟨hes.1, hes.2.1, ih hes.2.2.1, hes.2.2.2⟩
  | trans _ _ ih ih' => exact ih' (ih hes)

/-- The files of a walk do not tell in which order the entries were enumerated. -/
theorem Reordered.files_eq (h : es.Reordered es') (hes : es.IsProper) : es'.files = es.files := by
  apply List.Pairwise.eq_of_mem_iff (h.isProper hes).pairwise_files hes.pairwise_files
  intro names
  rw [mem_files, mem_files, h.leads_iff]

end Reordered

end Entries

namespace Location

theorem before_of_lt {l k : Location} (h : l < k) : before l k = true := by
  induction l generalizing k with
  | nil => rfl
  | cons a l ih =>
    obtain _ | ⟨b, k⟩ := k
    · exact absurd h (List.not_lt_nil _)
    rw [before]
    rcases List.cons_lt_cons_iff.mp h with hlt | ⟨rfl, hlt⟩
    · rw [if_neg hlt.ne]
      exact decide_eq_true hlt
    · rw [if_pos rfl]
      exact ih hlt

end Location

/-- To a walk that starts at `path`, the storage shows a directory with the entries. -/
structure Storage.Shows {σ : Type} (storage : Storage (StateM σ)) (s : σ) (path : String)
    (es : Entries) : Prop where
  exists_eq : storage.exists? path s = (true, s)
  walk_eq : storage.walk path s = (.ok (es.walk.map (Visit.under (Path.parts path))), s)

namespace FileTree

variable {t : FileTree} {path : String} {visits : List Visit} {es : Entries}

theorem walk_eq_of_perm (h : t.walk path = .ok visits) (hes : es.IsProper)
    (hperm : (t.entriesBelow (t.locate path)).Perm es.walk) :
    visits = es.walk.map (Visit.under (Path.parts path)) := by
  obtain ⟨_, rfl⟩ := walk_eq_ok_iff.mp h
  congr 1
  have hsorted := (List.mergeSort_perm (t.entriesBelow (t.locate path)) fun v v' =>
    Location.before v.names v'.names).trans hperm
  have hnodup : (es.walk.map Visit.names).Nodup := (List.pairwise_map.mpr hes.pairwise_walk).nodup
  apply hsorted.eq_of_pairwise _ (pairwise_sortedVisits _)
    (hes.pairwise_walk.imp Location.before_of_lt)
  intro v v' hv hv' hbefore hafter
  exact List.inj_on_of_nodup_map hnodup (hsorted.mem_iff.mp hv) hv'
    (Location.before_antisymm hbefore hafter)

theorem storage_shows (hexists : t.exists? path) (hwalk : ∃ visits, t.walk path = .ok visits)
    (hes : es.IsProper) (hperm : (t.entriesBelow (t.locate path)).Perm es.walk) :
    storage.Shows t path es := by
  obtain ⟨visits, hvisits⟩ := hwalk
  have hwalked : t.walk path = .ok (es.walk.map (Visit.under (Path.parts path))) := by
    rw [hvisits, walk_eq_of_perm hvisits hes hperm]
  exact ⟨Prod.ext hexists rfl, Prod.ext hwalked rfl⟩

end FileTree

end ScriptBindings
