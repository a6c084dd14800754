namespace ScriptBindings

structure Dictionary (κ α : Type) where
  entries : List (κ × α)
  nodup : (entries.map Prod.fst).Nodup
deriving DecidableEq, Repr

namespace Dictionary

variable {κ α : Type}

def empty : Dictionary κ α := ⟨[], List.nodup_nil⟩

instance : Inhabited (Dictionary κ α) := ⟨empty⟩

def keys (c : Dictionary κ α) : List κ := c.entries.map Prod.fst

def values (c : Dictionary κ α) : List α := c.entries.map Prod.snd

def size (c : Dictionary κ α) : Nat := c.entries.length

/-- The entries that satisfy `p`, in the same order. -/
def filter (p : κ → α → Bool) (c : Dictionary κ α) : Dictionary κ α where
  entries := c.entries.filter fun e => p e.1 e.2
  nodup := c.nodup.sublist (List.filter_sublist.map Prod.fst)

def find? (p : α → Bool) (c : Dictionary κ α) : Option κ :=
  (c.entries.find? fun e => p e.2).map Prod.fst

variable [DecidableEq κ]

/-- Replaces the value of a key where it stands, or appends a new entry. -/
def put (key : κ) (value : α) : List (κ × α) → List (κ × α)
  | [] => [(key, value)]
  | e :: es => if e.1 = key then (key, value) :: es else e :: put key value es

theorem mem_keys_put {key k : κ} {value : α} {es : List (κ × α)} :
    k ∈ (put key value es).map Prod.fst ↔ k = key ∨ k ∈ es.map Prod.fst := by
  induction es with
  | nil => simp [put]
  | cons e es ih =>
    by_cases h : e.1 = key
    · simp [put, h]
    · simp only [put, h, if_false, List.map_cons, List.mem_cons, ih]
      exact or_left_comm

theorem nodup_put {key : κ} {value : α} {es : List (κ × α)}
    (h : (es.map Prod.fst).Nodup) : ((put key value es).map Prod.fst).Nodup := by
  induction es with
  | nil => simp [put]
  | cons e es ih =>
    rw [List.map_cons, List.nodup_cons] at h
    by_cases he : e.1 = key
    · simp only [put, he, if_true, List.map_cons, List.nodup_cons]
      exact ⟨he ▸ h.1, h.2⟩
    · simp only [put, he, if_false, List.map_cons, List.nodup_cons]
      refine ⟨?_, ih h.2⟩
      rw [mem_keys_put]
      exact fun hm => hm.elim he h.1

def insert (c : Dictionary κ α) (key : κ) (value : α) : Dictionary κ α :=
  ⟨put key value c.entries, nodup_put c.nodup⟩

/-- The dictionary of some entries: a later value of a key takes the place of an earlier one. -/
def ofEntries (es : List (κ × α)) : Dictionary κ α :=
  es.foldl (fun c e => c.insert e.1 e.2) empty

def get? (c : Dictionary κ α) (key : κ) : Option α :=
  (c.entries.find? fun e => e.1 == key).map Prod.snd

end Dictionary

abbrev Catalog : Type → Type := Dictionary String

end ScriptBindings
