import Mathlib.Data.List.Basic
import ScriptBindings.Json.Record
import ScriptBindings.Proofs.Dictionary
import ScriptBindings.Proofs.Json.Spelling

namespace ScriptBindings

open Document (memberReadings itemReadings)

namespace Document

theorem itemReadings_eq (ds : List Document) : itemReadings ds = ds.map reading := by
  induction ds with
  | nil => rfl
  | cons d ds ih => rw [itemReadings, ih, List.map_cons]

theorem memberReadings_eq (ms : List (String × Document)) :
    memberReadings ms = ms.map fun m => (some m.1, m.2.reading) := by
  induction ms with
  | nil => rfl
  | cons m ms ih => rw [memberReadings, ih, List.map_cons]

/-- Reading is the inverse of writing. -/
def Decodes {α : Type} (read : Reading → Except JsonFault α) (write : α → Document) : Prop :=
  ∀ a, read (write a).reading = .ok a

end Document

open Document (Decodes)

namespace Reading

variable {α : Type} {read : Reading → Except JsonFault α} {write : α → Document}

theorem decodes_text : Decodes readString .text := fun _ => rfl

theorem readItems_map (h : Decodes read write) (as : List α) :
    readItems read (as.map fun a => (write a).reading) = .ok as := by
  induction as with
  | nil => rfl
  | cons a as ih =>
    rw [List.map_cons, readItems, h a, ih]
    rfl

theorem readList_map (h : Decodes read write) (as : List α) :
    readList read (Document.list (as.map write)).reading = .ok as := by
  rw [Document.reading, Document.itemReadings_eq, List.map_map, readList]
  have hitems := readItems_map h as
  rw [Function.comp_def, hitems]
  rfl

theorem readEntries_map (h : Decodes read write) (es : List (String × α)) :
    readEntries read (es.map fun e => (some e.1, (write e.2).reading)) = .ok es := by
  induction es with
  | nil => rfl
  | cons e es ih =>
    rw [List.map_cons, readEntries, h e.2, ih]
    rfl

theorem readCatalog_ofCatalog (h : Decodes read write) (c : Catalog α) :
    readCatalog read (Document.ofCatalog write c).reading = .ok c := by
  rw [Document.ofCatalog, Document.reading, Document.memberReadings_eq, List.map_map, readCatalog]
  have hentries := readEntries_map h c.entries
  rw [Function.comp_def, hentries]
  exact congrArg Except.ok (Dictionary.ofEntries_entries c)

/-- The members that come for some fields, in the order of the fields, turn one record into another.
A field may have no member. -/
inductive Stores : List (RecordField α) → α → List (String × Document) → α → Prop
  | nil (a : α) : Stores [] a [] a
  | cons {β : Type} {name : String} {read : Reading → Except JsonFault β} {set : α → β → α}
    {fields : List (RecordField α)} {a c : α} {d : Document} {b : β}
    {members : List (String × Document)} (hread : read d.reading = .ok b)
    (hrest : Stores fields (set a b) members c) :
    Stores (.of name read set :: fields) a ((name, d) :: members) c
  | skip {field : RecordField α} {fields : List (RecordField α)} {a c : α}
    {members : List (String × Document)} (hrest : Stores fields a members c) :
    Stores (field :: fields) a members c

theorem stores_optional {name : String} {set : α → Option String → α} {a : α}
    (h : set a none = a) (text : Option String) :
    Stores [.of name readOptional set] a (Document.optionalMember name text) (set a text) := by
  cases text with
  | none =>
    rw [h]
    exact .skip (.nil a)
  | some value => exact .cons rfl (.nil _)

theorem find?_field {done rest : List (RecordField α)} {field : RecordField α}
    (h : ((done ++ field :: rest).map RecordField.name).Nodup) :
    (done ++ field :: rest).find? (fun f => f.name == field.name) = some field := by
  rw [List.map_append, List.map_cons, List.nodup_append] at h
  have hdone : done.find? (fun f => f.name == field.name) = none := by
    rw [List.find?_eq_none]
    intro f hf hname
    exact h.2.2 f.name (List.mem_map_of_mem hf) field.name List.mem_cons_self (eq_of_beq hname)
  rw [List.find?_append, hdone, Option.none_or]
  exact List.find?_cons_of_pos (beq_self_eq_true field.name)

/-- Members that come for the fields that are left are not repeated. -/
theorem Stores.readNamed_eq {rest : List (RecordField α)} {a c : α}
    {members : List (String × Document)} (h : Stores rest a members c) :
    ∀ (done : List (RecordField α)) (seen : List String),
      ((done ++ rest).map RecordField.name).Nodup →
      (∀ key ∈ seen, key ∈ done.map RecordField.name) →
      readNamed (done ++ rest) seen a (memberReadings members) = .ok c := by
  induction h with
  | nil a =>
    intro done seen _ _
    rfl
  | @cons _ name read set fields a c d b members hread _ ih =>
    intro done seen hnodup hseen
    have hnew : name ∉ seen := by
      intro hname
      rw [List.map_append, List.nodup_append] at hnodup
      exact hnodup.2.2 name (hseen name hname) name List.mem_cons_self rfl
    have hstore : (RecordField.of name read set).store a d.reading = .ok (set a b) := by
      change (read d.reading).map (set a) = _
      rw [hread]
      rfl
    have hnext := ih (done ++ [.of name read set]) (name :: seen)
      (by rwa [List.append_assoc, List.singleton_append]) (by
        rw [List.map_append]
        exact List.forall_mem_cons.mpr ⟨List.mem_append_right _ (List.mem_singleton_self name),
          fun key hkey => List.mem_append_left _ (hseen key hkey)⟩)
    rw [List.append_assoc, List.singleton_append] at hnext
    have hfind : (done ++ .of name read set :: fields).find? (fun f => f.name == name) =
        some (.of name read set) := find?_field hnodup
    rw [memberReadings, readNamed, hfind]
    simp only [if_neg hnew, hstore]
    exact hnext
  | @skip field fields a c members _ ih =>
    intro done seen hnodup hseen
    have hnext := ih (done ++ [field]) seen
      (by rwa [List.append_assoc, List.singleton_append]) (by
        rw [List.map_append]
        exact fun key hkey => List.mem_append_left _ (hseen key hkey))
    rwa [List.append_assoc, List.singleton_append] at hnext

theorem readRecord_of_stores {fields : List (RecordField α)} {default a : α}
    {members : List (String × Document)} (surplus : JsonFault)
    (hnodup : (fields.map RecordField.name).Nodup) (h : Stores fields default members a) :
    readRecord surplus fields default (Document.record members).reading = .ok a := by
  have hnamed := h.readNamed_eq [] [] hnodup (List.forall_mem_nil _)
  rw [Document.reading, readRecord, ← List.nil_append fields, hnamed]
  rfl

end Reading

namespace Document

/-- No more than so many containers of the document are inside each other. -/
inductive Nested : Nat → Document → Prop
  | flag (n : Nat) (value : Bool) : Nested n (.flag value)
  | text (n : Nat) (value : String) : Nested n (.text value)
  | list {n : Nat} {items : List Document} (h : ∀ d ∈ items, Nested n d) :
    Nested (n + 1) (.list items)
  | record {n : Nat} {members : List (String × Document)} (h : ∀ m ∈ members, Nested n m.2) :
    Nested (n + 1) (.record members)

theorem Nested.optionalMember (n : Nat) (key : String) (text : Option String) :
    ∀ m ∈ Document.optionalMember key text, Nested n m.2 := by
  cases text with
  | none => exact List.forall_mem_nil _
  | some value => exact List.forall_mem_singleton.mpr (.text n value)

end Document

namespace Reading

theorem keepItems_eq_none {depth : Nat} {items : List Document}
    (h : ∀ d ∈ items, d.reading.keepFault depth = none) :
    keepItems depth (itemReadings items) = none := by
  induction items with
  | nil => rfl
  | cons d items ih =>
    obtain ⟨hd, hitems⟩ := List.forall_mem_cons.mp h
    rw [itemReadings, keepItems, hd, ih hitems]
    rfl

theorem keepMembers_eq_none {depth : Nat} {members : List (String × Document)}
    (h : ∀ m ∈ members, m.2.reading.keepFault depth = none) :
    keepMembers depth (memberReadings members) = none := by
  induction members with
  | nil => rfl
  | cons m members ih =>
    obtain ⟨hm, hmembers⟩ := List.forall_mem_cons.mp h
    rw [memberReadings, keepMembers, hm, ih hmembers]
    rfl

/-- What is written can be kept where the limit leaves room for its containers. -/
theorem keepFault_reading {n depth : Nat} {d : Document} (h : d.Nested n)
    (hdepth : depth + n ≤ nestingLimit) : d.reading.keepFault depth = none := by
  induction h generalizing depth with
  | flag n value => rfl
  | text n value => rfl
  | list h ih =>
    rw [Document.reading, keepFault, if_neg (by omega),
      keepItems_eq_none fun d hd => ih d hd (by omega)]
    rfl
  | record h ih =>
    rw [Document.reading, keepFault, if_neg (by omega),
      keepMembers_eq_none fun m hm => ih m hm (by omega)]
    rfl

end Reading

end ScriptBindings
