import Mathlib.Data.List.Lex
import Mathlib.Data.String.Basic

namespace ScriptBindings

/-- The bytes of a text in UTF-8. -/
def bytes (s : String) : List UInt8 := s.toUTF8.data.toList

theorem bytes_eq_flatMap (s : String) : bytes s = s.toList.flatMap String.utf8EncodeChar := by
  unfold bytes String.toUTF8
  rw [← String.utf8Encode_toList, List.utf8Encode]
  simp

/-- The first byte in which two characters differ decides, whatever follows. -/
theorem utf8EncodeChar_append_lt {c d : Char} (h : c < d) (cs ds : List UInt8) :
    String.utf8EncodeChar c ++ cs < String.utf8EncodeChar d ++ ds := by
  have hval : c.val.toNat < d.val.toNat := h
  have hmax : d.val.toNat < 0x110000 := by
    rcases d.valid with hlow | ⟨_, hhigh⟩
    · exact Nat.lt_trans hlow (by decide)
    · exact hhigh
  unfold String.utf8EncodeChar
  dsimp only
  -- There is a case for each two lengths, the longer character being the later one.
  split_ifs
  all_goals
    simp only [List.cons_append, List.nil_append, List.cons_lt_cons_iff, UInt8.lt_iff_toNat_lt,
      ← UInt8.toNat_inj, UInt8.toNat_ofNat']
    simp (disch := omega) only [Nat.mod_eq_of_lt]
    omega

theorem flatMap_utf8EncodeChar_lt {cs ds : List Char} (h : cs < ds) :
    cs.flatMap String.utf8EncodeChar < ds.flatMap String.utf8EncodeChar := by
  induction cs generalizing ds with
  | nil =>
    obtain _ | ⟨d, ds⟩ := ds
    · exact absurd h (List.not_lt_nil _)
    obtain ⟨b, bs, hd⟩ := List.exists_cons_of_ne_nil (String.utf8EncodeChar_ne_nil (c := d))
    rw [List.flatMap_cons, hd]
    exact List.nil_lt_cons _ _
  | cons c cs ih =>
    obtain _ | ⟨d, ds⟩ := ds
    · exact absurd h (List.not_lt_nil _)
    rw [List.flatMap_cons, List.flatMap_cons]
    rcases List.cons_lt_cons_iff.mp h with hlt | ⟨rfl, hlt⟩
    · exact utf8EncodeChar_append_lt hlt _ _
    · exact List.append_left_lt (ih hlt)

theorem bytes_lt {s t : String} (h : s < t) : bytes s < bytes t := by
  rw [bytes_eq_flatMap, bytes_eq_flatMap]
  exact flatMap_utf8EncodeChar_lt (String.lt_iff_toList_lt.mp h)

theorem map_bytes_lt {l k : List String} (h : l < k) : l.map bytes < k.map bytes :=
  List.map_lt (fun _ _ => bytes_lt) h

theorem lt_of_map_lt {α β : Type} [LinearOrder α] [LT β] {f : α → β}
    (hf : ∀ {a b}, a < b → f a < f b) (hasymm : ∀ {x y : β}, x < y → ¬ y < x) {a b : α}
    (h : f a < f b) : a < b := by
  rcases lt_trichotomy a b with hlt | rfl | hgt
  · exact hlt
  · exact absurd h (hasymm h)
  · exact absurd h (hasymm (hf hgt))

theorem bytes_lt_iff {s t : String} : bytes s < bytes t ↔ s < t :=
  ⟨lt_of_map_lt bytes_lt List.lt_asymm, bytes_lt⟩

theorem map_bytes_lt_iff {l k : List String} : l.map bytes < k.map bytes ↔ l < k :=
  ⟨lt_of_map_lt map_bytes_lt List.lt_asymm, map_bytes_lt⟩

end ScriptBindings
