import Mathlib.Data.List.Induction
import ScriptBindings.Dictionary
import ScriptBindings.Proofs.FirstOccurrence

namespace ScriptBindings.Dictionary

section Values

variable {κ α β : Type}

@[ext] theorem ext {c d : Dictionary κ α} (h : c.entries = d.entries) : c = d := by
  cases c
  cases d
  cases h
  rfl

/-- The same keys, each with the image of its value. -/
def map (f : α → β) (c : Dictionary κ α) : Dictionary κ β where
  entries := c.entries.map fun e => (e.1, f e.2)
  nodup := by
    rw [List.map_map]
    exact c.nodup

/-- The values that satisfy `p`, each replaced by its image. -/
def prune (p : α → Bool) (f : α → α) (c : Dictionary κ α) : Dictionary κ α :=
  (c.filter fun _ a => p a).map f

theorem find?_prune {p q : α → Bool} (f : α → α) (hq : ∀ a, q a = true → p a = true)
    (hf : ∀ a, q (f a) = q a) (c : Dictionary κ α) : (c.prune p f).find? q = c.find? q := by
  have hboth : (fun e : κ × α => decide (p e.2 = true ∧ q e.2 = true)) = fun e => q e.2 := by
    funext e
    simp only [and_iff_right_of_imp (hq e.2), Bool.decide_coe]
  simp only [find?, prune, map, filter, List.find?_map, List.find?_filter, Function.comp_def, hf,
    hboth, Option.map_map]

end Values

variable {κ α : Type} [DecidableEq κ]

theorem find?_put (key k : κ) (value : α) (es : List (κ × α)) :
    ((put key value es).find? fun e => e.1 == k).map Prod.snd =
      if key = k then some value else (es.find? fun e => e.1 == k).map Prod.snd := by
  induction es with
  | nil => by_cases h : key = k <;> simp [put, h]
  | cons e es ih =>
    by_cases he : e.1 = key
    · rw [put, if_pos he]
      by_cases h : key = k
      · simp [h]
      · simp [he, h]
    · rw [put, if_neg he]
      by_cases hk : e.1 = k
      · have hne : key ≠ k := fun h => he (hk.trans h.symm)
        simp [hk, hne]
      · simpa [List.find?_cons, hk] using ih

theorem get?_insert (c : Dictionary κ α) (key k : κ) (value : α) :
    (c.insert key value).get? k = if key = k then some value else c.get? k :=
  find?_put key k value c.entries

/-- Inserts entries one after the other. -/
def insertAll (c : Dictionary κ α) (es : List (κ × α)) : Dictionary κ α :=
  es.foldl (fun c e => c.insert e.1 e.2) c

theorem insertAll_append (c : Dictionary κ α) (es fs : List (κ × α)) :
    c.insertAll (es ++ fs) = (c.insertAll es).insertAll fs :=
  List.foldl_append

theorem insertAll_concat (c : Dictionary κ α) (es : List (κ × α)) (e : κ × α) :
    c.insertAll (es ++ [e]) = (c.insertAll es).insert e.1 e.2 :=
  insertAll_append c es [e]

theorem get?_insertAll_concat (c : Dictionary κ α) (es : List (κ × α)) (key : κ) (value : α) :
    (c.insertAll (es ++ [(key, value)])).get? key = some value := by
  rw [insertAll_concat, get?_insert, if_pos rfl]

theorem exists_mem_of_get?_insertAll {c : Dictionary κ α} {es : List (κ × α)} {e : κ × α}
    (h : e ∈ es) : ∃ value, (c.insertAll es).get? e.1 = some value ∧ (e.1, value) ∈ es := by
  induction es using List.reverseRecOn with
  | nil => cases h
  | append_singleton es f ih =>
    rw [insertAll_concat, get?_insert]
    by_cases hf : f.1 = e.1
    · rw [if_pos hf, ← hf]
      exact ⟨f.2, rfl, List.mem_append_right es (List.mem_singleton_self f)⟩
    · rw [if_neg hf]
      have hes : e ∈ es := by
        rcases List.mem_append.mp h with hes | he
        · exact hes
        · exact absurd (congrArg Prod.fst (List.mem_singleton.mp he)).symm hf
      obtain ⟨value, hvalue, hmem⟩ := ih hes
      exact ⟨value, hvalue, List.mem_append_left [f] hmem⟩

theorem get?_insertAll_iff (c : Dictionary κ α) (es : List (κ × α)) :
    (∀ e ∈ es, (c.insertAll es).get? e.1 = some e.2) ↔
      ∀ e ∈ es, ∀ f ∈ es, e.1 = f.1 → e.2 = f.2 := by
  constructor
  · intro h e he f hf hkey
    have hvalue := h e he
    rw [hkey, h f hf] at hvalue
    exact (Option.some.inj hvalue).symm
  · intro h e he
    obtain ⟨value, hvalue, hmem⟩ := exists_mem_of_get?_insertAll he
    rw [hvalue, h e he _ hmem rfl]

theorem get?_of_mem {c : Dictionary κ α} {e : κ × α} (h : e ∈ c.entries) :
    c.get? e.1 = some e.2 := by
  obtain ⟨es, hnodup⟩ := c
  induction es with
  | nil => cases h
  | cons f es ih =>
    rw [List.map_cons, List.nodup_cons] at hnodup
    rcases List.mem_cons.mp h with rfl | he
    · simp [get?]
    · have hne : f.1 ≠ e.1 := fun heq => hnodup.1 (heq ▸ List.mem_map_of_mem he)
      simpa [get?, List.find?_cons, hne] using ih hnodup.2 he

/-- A dictionary is given by its keys in their order and by what is read at each. -/
theorem ext_get? {c d : Dictionary κ α} (hkeys : c.keys = d.keys)
    (hget : ∀ k, c.get? k = d.get? k) : c = d := by
  have hentries (c : Dictionary κ α) :
      c.entries.map (fun e => (e.1, some e.2)) = c.keys.map fun k => (k, c.get? k) := by
    rw [keys, List.map_map]
    exact List.map_congr_left fun e he => Prod.ext rfl (get?_of_mem he).symm
  have hinj (e f : κ × α) (h : (e.1, some e.2) = (f.1, some f.2)) : e = f := by
    cases e
    cases f
    cases h
    rfl
  apply ext
  rw [← List.map_inj_right hinj, hentries c, hentries d, hkeys]
  exact List.map_congr_left fun k _ => Prod.ext rfl (hget k)

theorem map_fst_put (key : κ) (value : α) (es : List (κ × α)) :
    (put key value es).map Prod.fst =
      if key ∈ es.map Prod.fst then es.map Prod.fst else es.map Prod.fst ++ [key] := by
  induction es with
  | nil => rfl
  | cons e es ih =>
    by_cases he : e.1 = key
    · simp [put, he]
    · by_cases hmem : key ∈ es.map Prod.fst
      · rw [if_pos hmem] at ih
        rw [put, if_neg he, List.map_cons, List.map_cons, ih, if_pos (List.mem_cons_of_mem _ hmem)]
      · have hnew : key ∉ e.1 :: es.map Prod.fst :=
          List.not_mem_cons_of_ne_of_not_mem (Ne.symm he) hmem
        rw [if_neg hmem] at ih
        rw [put, if_neg he, List.map_cons, List.map_cons, ih, if_neg hnew, List.cons_append]

theorem keys_insert (c : Dictionary κ α) (key : κ) (value : α) :
    (c.insert key value).keys = if key ∈ c.keys then c.keys else c.keys ++ [key] :=
  map_fst_put key value c.entries

theorem mem_keys_insertAll {c : Dictionary κ α} {es : List (κ × α)} {k : κ} :
    k ∈ (c.insertAll es).keys ↔ k ∈ es.map Prod.fst ∨ k ∈ c.keys := by
  induction es using List.reverseRecOn with
  | nil => simp [insertAll]
  | append_singleton es e ih =>
    rw [insertAll_concat]
    have hput : k ∈ ((c.insertAll es).insert e.1 e.2).keys ↔ k = e.1 ∨ k ∈ (c.insertAll es).keys :=
      mem_keys_put
    rw [hput, ih, List.map_append, List.mem_append, List.map_singleton, List.mem_singleton,
      or_left_comm, or_assoc]

theorem keys_insertAll {c : Dictionary κ α} {es : List (κ × α)}
    (h : ∀ e ∈ es, e.1 ∈ c.keys) : (c.insertAll es).keys = c.keys := by
  induction es using List.reverseRecOn with
  | nil => rfl
  | append_singleton es e ih =>
    have hes := ih fun f hf => h f (List.mem_append_left [e] hf)
    have he := h e (List.mem_append_right es (List.mem_singleton_self e))
    rw [insertAll_concat, keys_insert, hes, if_pos he]

theorem get?_insertAll_of_mem (c d : Dictionary κ α) {es : List (κ × α)} {k : κ}
    (h : k ∈ es.map Prod.fst) : (c.insertAll es).get? k = (d.insertAll es).get? k := by
  induction es using List.reverseRecOn with
  | nil => cases h
  | append_singleton es e ih =>
    rw [insertAll_concat, insertAll_concat, get?_insert, get?_insert]
    by_cases he : e.1 = k
    · rw [if_pos he, if_pos he]
    · rw [if_neg he, if_neg he]
      refine ih ?_
      rw [List.map_append, List.mem_append, List.map_singleton, List.mem_singleton] at h
      exact h.resolve_right (Ne.symm he)

theorem get?_insertAll_of_not_mem (c : Dictionary κ α) {es : List (κ × α)} {k : κ}
    (h : k ∉ es.map Prod.fst) : (c.insertAll es).get? k = c.get? k := by
  induction es using List.reverseRecOn with
  | nil => rfl
  | append_singleton es e ih =>
    rw [List.map_append, List.mem_append, List.map_singleton, List.mem_singleton, not_or] at h
    rw [insertAll_concat, get?_insert, if_neg (Ne.symm h.2), ih h.1]

/-- Entries that have been inserted once make no difference when they are inserted again. -/
theorem insertAll_insertAll (c : Dictionary κ α) (es : List (κ × α)) :
    (c.insertAll es).insertAll es = c.insertAll es := by
  refine ext_get? (keys_insertAll fun e he => ?_) fun k => ?_
  · exact mem_keys_insertAll.mpr (.inl (List.mem_map_of_mem he))
  · by_cases hk : k ∈ es.map Prod.fst
    · exact get?_insertAll_of_mem _ _ hk
    · exact get?_insertAll_of_not_mem _ hk

theorem put_of_not_mem {key : κ} {value : α} {es : List (κ × α)} (h : key ∉ es.map Prod.fst) :
    put key value es = es ++ [(key, value)] := by
  induction es with
  | nil => rfl
  | cons e es ih =>
    rw [List.map_cons, List.mem_cons, not_or] at h
    rw [put, if_neg (Ne.symm h.1), ih h.2, List.cons_append]

theorem ofEntries_entries (c : Dictionary κ α) : ofEntries c.entries = c := by
  obtain ⟨es, hnodup⟩ := c
  induction es using List.reverseRecOn with
  | nil => rfl
  | append_singleton es e ih =>
    rw [List.map_append, List.nodup_append] at hnodup
    have hnew : e.1 ∉ es.map Prod.fst := fun h =>
      hnodup.2.2 e.1 h e.1 (List.mem_singleton_self e.1) rfl
    have hentries : (ofEntries es).entries = es := congrArg entries (ih hnodup.1)
    apply ext
    change ((empty.insertAll (es ++ [e])).entries) = es ++ [e]
    rw [insertAll_concat]
    change put e.1 e.2 (ofEntries es).entries = _
    rw [hentries, put_of_not_mem hnew]

section Filing

variable {β : Type} (key : β → Option κ)

/-- Files a value under its key, behind those that are there. -/
def file (d : Dictionary κ (List β)) (b : β) : Dictionary κ (List β) :=
  match key b with
  | some k => d.insert k ((d.get? k).getD [] ++ [b])
  | none => d

/-- The values that have a key, each under its own. -/
def fileAll (bs : List β) : Dictionary κ (List β) := bs.foldl (file key) empty

theorem fileAll_concat (bs : List β) (b : β) :
    fileAll key (bs ++ [b]) = file key (fileAll key bs) b :=
  List.foldl_append

theorem keys_fileAll (bs : List β) :
    (fileAll key bs).keys = (bs.filterMap key).eraseDups := by
  induction bs using List.reverseRecOn with
  | nil => rfl
  | append_singleton bs b ih =>
    rw [fileAll_concat, file, List.filterMap_append, List.filterMap_cons]
    cases key b with
    | none => rw [ih, List.filterMap_nil, List.append_nil]
    | some k =>
      simp only [keys_insert, ih, List.mem_eraseDups]
      exact (eraseDups_concat _ k).symm

theorem getD_fileAll (bs : List β) (k : κ) :
    ((fileAll key bs).get? k).getD [] = bs.filter fun b => key b = some k := by
  induction bs using List.reverseRecOn with
  | nil => rfl
  | append_singleton bs b ih =>
    rw [fileAll_concat, file, List.filter_append, List.filter_singleton, ← ih]
    cases hb : key b with
    | none => simp
    | some l =>
      rw [get?_insert]
      by_cases hl : l = k
      · subst hl
        simp
      · simp [hl]

/-- The keys come in the order of their first use, and the values of each in their own order. -/
theorem entries_fileAll (bs : List β) :
    (fileAll key bs).entries =
      (bs.filterMap key).eraseDups.map fun k => (k, bs.filter fun b => key b = some k) := by
  simp only [← keys_fileAll, ← getD_fileAll, keys, List.map_map]
  have hentry : ∀ e ∈ (fileAll key bs).entries,
      e = (e.1, ((fileAll key bs).get? e.1).getD []) := by
    intro e he
    rw [get?_of_mem he]
    rfl
  exact (List.map_id _).symm.trans (List.map_congr_left hentry)

end Filing

end ScriptBindings.Dictionary
