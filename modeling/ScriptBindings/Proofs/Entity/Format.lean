import ScriptBindings.Entity.Format
import ScriptBindings.Proofs.Json.Record

namespace ScriptBindings

open Document (Decodes Nested)
open Reading (RecordField readRecord_of_stores stores_optional readList_map readCatalog_ofCatalog
  decodes_text)

section Signatures

variable (surplus : JsonFault)

theorem Flags.decodes : Decodes (read surplus) document := by
  intro f
  exact readRecord_of_stores surplus (by decide) (.cons rfl (.nil f))

theorem Parameter.decodes : Decodes (read surplus) document := by
  intro p
  exact readRecord_of_stores surplus (by decide)
    (.cons rfl (.cons rfl (stores_optional rfl p.default)))

theorem Signature.decodes : Decodes (read surplus) document := by
  intro s
  have hparameters := readList_map (Parameter.decodes surplus) s.parameters
  have hqualifiers := readList_map decodes_text s.qualifiers
  have hflags := Flags.decodes surplus s.flags
  exact readRecord_of_stores surplus (by simp [fields, RecordField.of])
    (.cons rfl (.cons rfl (.cons hparameters (.cons hqualifiers (.cons rfl (.cons rfl
      (.cons hflags (.nil s))))))))

theorem OverloadSet.decodes : Decodes (read surplus) fun o => .record o.members := by
  intro o
  have hoverloads := readList_map (Signature.decodes surplus) o.overloads
  have hflags := Flags.decodes surplus o.flags
  exact readRecord_of_stores surplus (by simp [fields, RecordField.of])
    (.cons rfl (.cons hoverloads (.cons hflags (.nil o))))

end Signatures

section Nesting

variable (n : Nat)

theorem Flags.nested (f : Flags) : f.document.Nested (n + 1) :=
  .record (List.forall_mem_singleton.mpr (.flag n f.nobind))

theorem Parameter.nested (p : Parameter) : p.document.Nested (n + 1) := by
  refine .record (List.forall_mem_append.mpr ⟨?_, .optionalMember n "default" p.default⟩)
  exact List.forall_mem_cons.mpr ⟨.text n p.name, List.forall_mem_singleton.mpr (.text n p.type)⟩

theorem Signature.nested_members (s : Signature) : ∀ m ∈ s.members, m.2.Nested (n + 2) := by
  simp only [members, List.forall_mem_cons, List.not_mem_nil, false_imp_iff, implies_true, and_true]
  refine ⟨.text _ _, .text _ _, .list ?_, .list ?_, .text _ _, .flag _ _, s.flags.nested _⟩
  · exact List.forall_mem_map.mpr fun p _ => p.nested n
  · exact List.forall_mem_map.mpr fun q _ => .text _ q

theorem OverloadSet.nested_members (o : OverloadSet) : ∀ m ∈ o.members, m.2.Nested (n + 4) := by
  simp only [members, List.forall_mem_cons, List.not_mem_nil, false_imp_iff, implies_true, and_true]
  refine ⟨.text _ _, .list ?_, o.flags.nested _⟩
  exact List.forall_mem_map.mpr fun s _ => .record (s.nested_members n)

end Nesting

namespace Callable

theorem findForm_members {depth : Nat} {form : Form} {members : List (String × Document)}
    (hkey : ∀ m ∈ members, m.1 ≠ "kind")
    (hkeep : ∀ m ∈ members, m.2.reading.keepFault depth = none) :
    findForm depth (some form) (Document.memberReadings members) = .ok (some form) := by
  induction members with
  | nil => rfl
  | cons m members ih =>
    obtain ⟨hm, hmembers⟩ := List.forall_mem_cons.mp hkey
    obtain ⟨hfirst, hrest⟩ := List.forall_mem_cons.mp hkeep
    rw [Document.memberReadings, findForm, if_neg hm, keep, hfirst]
    exact ih hmembers hrest

theorem kept_members {members : List (String × Document)} (hkey : ∀ m ∈ members, m.1 ≠ "kind") :
    kept (Document.memberReadings members) = Document.memberReadings members := by
  rw [kept, Document.memberReadings_eq, List.filter_eq_self]
  intro r hr
  obtain ⟨m, hm, rfl⟩ := List.mem_map.mp hr
  simpa using hkey m hm

/-- Once the kind is found, the other members are read as those of a record of that kind. -/
theorem read_kind (form : Form) {depth : Nat} {word : String} {members : List (String × Document)}
    (hform : Form.read (.string (some word)) = .ok form) (hkey : ∀ m ∈ members, m.1 ≠ "kind")
    (hnested : ∀ m ∈ members, m.2.Nested 4) (hdepth : depth + 5 ≤ Reading.nestingLimit) :
    Callable.read depth (Document.record (("kind", .text word) :: members)).reading =
      form.readRest (Document.record members).reading := by
  have hfind : findForm (depth + 1) (some form) (Document.memberReadings members) =
      .ok (some form) := findForm_members hkey
    fun m hm => Reading.keepFault_reading (hnested m hm) (by omega)
  have hkept : kept (Document.memberReadings (("kind", .text word) :: members)) =
      Document.memberReadings members := kept_members hkey
  rw [Document.reading, Callable.read, hkept, Document.memberReadings, findForm, if_pos rfl]
  change (Form.read (.string (some word)) >>= _) >>= _ = _
  rw [hform]
  change (findForm (depth + 1) (some form) _ >>= _) = _
  rw [hfind]
  rfl

theorem decodes {depth : Nat} (hdepth : depth + 5 ≤ Reading.nestingLimit) :
    Decodes (Callable.read depth) document := by
  intro f
  cases f with
  | single s =>
    have hrest : Signature.read .mismatched (Document.record s.members).reading = .ok s :=
      Signature.decodes .mismatched s
    rw [document, read_kind .single rfl (by simp [Signature.members])
      (s.nested_members 2) hdepth, Form.readRest, hrest]
    rfl
  | overloaded o =>
    have hrest : OverloadSet.read .mismatched (Document.record o.members).reading = .ok o :=
      OverloadSet.decodes .mismatched o
    rw [document, read_kind .overloaded rfl (by simp [OverloadSet.members])
      (o.nested_members 0) hdepth, Form.readRest, hrest]
    rfl

end Callable

theorem Global.decodes : Decodes read document := by
  intro g
  have hflags := Flags.decodes .malformed g.flags
  exact readRecord_of_stores .malformed (by decide)
    (.cons rfl (.cons rfl (.cons rfl (.cons rfl (.cons hflags (.nil g))))))

theorem EnumValue.decodes : Decodes read document := by
  intro v
  have hdraft : Reading.readRecord .malformed fields {} v.document.reading =
      .ok ⟨some v.name, v.description⟩ :=
    readRecord_of_stores .malformed (by decide) (.cons rfl (stores_optional rfl v.description))
  rw [read, hdraft]
  rfl

theorem Enumeration.decodes : Decodes read document := by
  intro e
  have hvalues := readList_map EnumValue.decodes e.values
  have hflags := Flags.decodes .malformed e.flags
  exact readRecord_of_stores .malformed (by decide)
    (.cons rfl (.cons hvalues (.cons rfl (.cons hflags (.nil e)))))

theorem Attribute.decodes : Decodes read document := by
  intro a
  have hflags := Flags.decodes .malformed a.flags
  exact readRecord_of_stores .malformed (by decide)
    (.cons rfl (.cons rfl (.cons rfl (.cons hflags (.nil a)))))

theorem Class.decodes {depth : Nat} (hdepth : depth + 7 ≤ Reading.nestingLimit) :
    Decodes (read depth) document := by
  intro c
  have hbases := readList_map decodes_text c.bases
  have hconstructors := readList_map (Signature.decodes .malformed) c.constructors
  have hmethod : Decodes (Callable.read (depth + 2)) Callable.document :=
    Callable.decodes (by omega)
  have hmethods := readCatalog_ofCatalog hmethod c.methods
  have hattributes := readCatalog_ofCatalog Attribute.decodes c.attributes
  have hflags := Flags.decodes .malformed c.flags
  exact readRecord_of_stores .malformed (by simp [fields, RecordField.of])
    (.cons rfl (.cons hbases (.cons rfl (.cons hconstructors (.cons hmethods (.cons hattributes
      (.cons rfl (.cons hflags (.nil c)))))))))

theorem Typedef.decodes : Decodes read document := by
  intro t
  have hflags := Flags.decodes .malformed t.flags
  exact readRecord_of_stores .malformed (by decide)
    (.cons rfl (.cons rfl (.cons rfl (.cons hflags (.nil t)))))

theorem NamespaceInfo.decodes : Decodes read document := by
  intro n
  have hincludes := readList_map decodes_text n.additionalIncludes
  exact readRecord_of_stores .malformed (by decide) (.cons hincludes (.cons rfl (.nil n)))

end ScriptBindings
