import ScriptBindings.Json.Document
import ScriptBindings.Json.Reading

namespace ScriptBindings

open Document (hexDigit spellChar spellString spell spellItems spellMembers)

namespace Lexeme

theorem lookup_shortEscapes {c letter : Char} (h : Document.shortEscapes.lookup c = some letter) :
    shortEscapes.lookup letter = some c ∧ letter ≠ 'u' := by
  have hall : ∀ e ∈ Document.shortEscapes, shortEscapes.lookup e.2 = some e.1 ∧ e.2 ≠ 'u' := by
    decide
  obtain ⟨before, after, heq, _⟩ := List.lookup_eq_some_iff.mp h
  exact hall (c, letter) (heq ▸ List.mem_append_right before List.mem_cons_self)

theorem hexUnit_hexDigit {n : Nat} (h : n < 0x20) :
    hexUnit '0' '0' (hexDigit (n / 16)) (hexDigit (n % 16)) = some n := by
  have hall : ∀ m < 0x20, hexUnit '0' '0' (hexDigit (m / 16)) (hexDigit (m % 16)) = some m := by
    decide
  exact hall n h

theorem units_spellChar (c : Char) (cs : List Char) :
    units (spellChar c ++ cs) = consUnit c.toNat (units cs) := by
  unfold spellChar
  split
  · rename_i letter h
    obtain ⟨hletter, hu⟩ := lookup_shortEscapes h
    simp [units, hletter]
  · rename_i h
    split
    · rename_i hc
      simp [units, hexUnit_hexDigit hc]
    · rename_i hc
      -- A character that is not escaped is neither a quote nor a backslash.
      have hquote : c ≠ '"' := by
        rintro rfl
        cases h
      have hbackslash : c ≠ '\\' := by
        rintro rfl
        cases h
      rw [List.singleton_append, units.eq_def]
      simp [hquote, hbackslash, hc]

theorem units_quote (rest : List Char) : units ('"' :: rest) = ([], .ok rest) := by
  rw [units.eq_def]
  rfl

theorem units_spell (cs rest : List Char) :
    units (cs.flatMap spellChar ++ '"' :: rest) = (cs.map Char.toNat, .ok rest) := by
  induction cs with
  | nil => exact units_quote rest
  | cons c cs ih =>
    rw [List.flatMap_cons, List.append_assoc, units_spellChar, ih]
    rfl

theorem not_half (c : Char) : isHighHalf c.toNat = false ∧ isLowHalf c.toNat = false := by
  have hvalid : c.toNat < 0xd800 ∨ 0xdfff < c.toNat ∧ c.toNat < 0x110000 := c.valid
  simp only [isHighHalf, isLowHalf, Bool.and_eq_false_iff, decide_eq_false_iff_not]
  omega

theorem joinUnits_toNat (cs : List Char) : joinUnits (cs.map Char.toNat) = some cs := by
  induction cs with
  | nil => rfl
  | cons c cs ih =>
    obtain ⟨hhigh, hlow⟩ := not_half c
    rw [List.map_cons, joinUnits.eq_def]
    simp [hhigh, hlow, ih]

theorem string_spell (s : String) (rest : List Char) :
    string (s.toList.flatMap spellChar ++ '"' :: rest) = .ok (some s, rest) := by
  simp only [string, units_spell, joinUnits_toNat, Option.map_some, String.ofList_toList]

end Lexeme

namespace Document

mutual

/-- The value that a document stands for. -/
def reading : Document → Reading
  | .flag value => .bool value
  | .text value => .string (some value)
  | .list items => .array (itemReadings items) none
  | .record members => .object (memberReadings members) none

def itemReadings : List Document → List Reading
  | [] => []
  | item :: items => item.reading :: itemReadings items

def memberReadings : List (String × Document) → List (Option String × Reading)
  | [] => []
  | (key, value) :: members => (some key, value.reading) :: memberReadings members

end

theorem spell_eq_cons (d : Document) :
    ∃ c cs, d.spell = c :: cs ∧ Lexeme.isSpace c = false ∧ c ≠ ']' := by
  cases d with
  | flag value =>
    cases value with
    | true => exact ⟨'t', "rue".toList, rfl, by decide⟩
    | false => exact ⟨'f', "alse".toList, rfl, by decide⟩
  | text value => exact ⟨'"', _, rfl, by decide⟩
  | list items => exact ⟨'[', _, by rw [spell], by decide⟩
  | record members => exact ⟨'\x7b', _, by rw [spell], by decide⟩

theorem spellItems_cons (item d : Document) (ds : List Document) :
    spellItems (item :: d :: ds) = item.spell ++ ',' :: spellItems (d :: ds) := by
  rw [spellItems]
  exact List.cons_ne_nil d ds

theorem spellMembers_cons (key : String) (d : Document) (m : String × Document)
    (ms : List (String × Document)) :
    spellMembers ((key, d) :: m :: ms) =
      spellString key ++ ':' :: (d.spell ++ ',' :: spellMembers (m :: ms)) := by
  rw [spellMembers]
  exact List.cons_ne_nil m ms

theorem length_spell_pos (d : Document) : 0 < d.spell.length := by
  obtain ⟨c, cs, heq, _⟩ := d.spell_eq_cons
  rw [heq]
  exact Nat.succ_pos _

end Document

namespace Lexeme

theorem skipSpaces_cons {c : Char} (h : isSpace c = false) (cs : List Char) :
    skipSpaces (c :: cs) = c :: cs := by
  rw [skipSpaces, List.dropWhile_cons_of_neg (by simp [h])]

end Lexeme

namespace Reading

open Document (reading itemReadings memberReadings)

theorem value_text (fuel : Nat) (s : String) (rest : List Char) :
    value (fuel + 1) (spellString s ++ rest) = ⟨.string (some s), some rest⟩ := by
  rw [spellString, List.cons_append, List.append_assoc, value,
    Lexeme.skipSpaces_cons (by decide)]
  change Step.ofLexeme .string (Lexeme.string (_ ++ '"' :: rest)) = _
  rw [Lexeme.string_spell]
  rfl

theorem word_append (w cs : List Char) : Lexeme.word w (w ++ cs) = .ok cs := by
  induction w with
  | nil => rfl
  | cons c w ih => rw [List.cons_append, Lexeme.word, if_pos rfl, ih]

theorem ofWord_word (r : Reading) (w rest : List Char) :
    Step.ofWord r (Lexeme.word w (w ++ rest)) = ⟨r, some rest⟩ := by
  rw [word_append]
  rfl

theorem value_flag (fuel : Nat) (b : Bool) (rest : List Char) :
    value (fuel + 1) ((Document.flag b).spell ++ rest) = ⟨.bool b, some rest⟩ := by
  cases b with
  | true =>
    change value (fuel + 1) ('t' :: ("rue".toList ++ rest)) = _
    rw [value, Lexeme.skipSpaces_cons (by decide)]
    exact ofWord_word (.bool true) "rue".toList rest
  | false =>
    change value (fuel + 1) ('f' :: ("alse".toList ++ rest)) = _
    rw [value, Lexeme.skipSpaces_cons (by decide)]
    exact ofWord_word (.bool false) "alse".toList rest

section Steps

variable {fuel : Nat} {cs rest : List Char} {r : Reading}

theorem value_bracket : value (fuel + 1) ('[' :: cs) = (items fuel cs).array := by
  rw [value, Lexeme.skipSpaces_cons (by decide)]
  rfl

theorem value_brace : value (fuel + 1) ('\x7b' :: cs) = (members fuel cs).object := by
  rw [value, Lexeme.skipSpaces_cons (by decide)]
  rfl

theorem items_spell (item : Document) (ds : List Document) :
    items (fuel + 1) (spellItems (item :: ds) ++ rest) =
      nextItem fuel (spellItems (item :: ds) ++ rest) := by
  obtain ⟨c, cs, hitem, hspace, hclose⟩ := item.spell_eq_cons
  have hhead : ∃ cs, spellItems (item :: ds) ++ rest = c :: cs := by
    cases ds with
    | nil => exact ⟨cs ++ rest, by rw [spellItems, hitem, List.cons_append]⟩
    | cons d ds => exact ⟨_, by simp only [spellItems, hitem, List.cons_append]; rfl⟩
  obtain ⟨cs, heq⟩ := hhead
  rw [heq, items, Lexeme.skipSpaces_cons hspace]
  exact if_neg hclose

theorem nextItem_last (h : value fuel cs = ⟨r, some (']' :: rest)⟩) :
    nextItem (fuel + 1) cs = ⟨([r], none), some rest⟩ := by
  rw [nextItem, h]
  rfl

theorem nextItem_comma (h : value fuel cs = ⟨r, some (',' :: rest)⟩) :
    nextItem (fuel + 1) cs = .cons r (nextItem fuel rest) := by
  rw [nextItem, h]
  rfl

theorem members_spell (m : String × Document) (ms : List (String × Document)) :
    members (fuel + 1) (spellMembers (m :: ms) ++ rest) =
      nextMember fuel (spellMembers (m :: ms) ++ rest) := by
  have hhead : ∃ cs, spellMembers (m :: ms) ++ rest = '"' :: cs := by
    cases ms with
    | nil => exact ⟨_, rfl⟩
    | cons n ms => exact ⟨_, rfl⟩
  obtain ⟨cs, heq⟩ := hhead
  rw [heq, members, Lexeme.skipSpaces_cons (by decide)]
  exact if_neg (by decide)

theorem memberValue_colon : memberValue (fuel + 1) (':' :: cs) = value fuel cs := by
  rw [memberValue, Lexeme.skipSpaces_cons (by decide)]
  exact if_pos rfl

theorem nextMember_member (key : String) {c : Char} (hc : Lexeme.isSpace c = false)
    (h : value fuel cs = ⟨r, some (c :: rest)⟩) :
    nextMember (fuel + 2) (spellString key ++ ':' :: cs) = .cons (some key, r)
      (if c = '\x7d' then ⟨([], none), some rest⟩
       else if c = ',' then nextMember (fuel + 1) rest
       else .ending .malformed) := by
  rw [spellString, List.cons_append, List.append_assoc, nextMember,
    Lexeme.skipSpaces_cons (by decide)]
  simp only [List.singleton_append, Lexeme.string_spell, memberValue_colon, h, if_true,
    Lexeme.skipSpaces_cons hc]

theorem nextMember_last (key : String) (h : value fuel cs = ⟨r, some ('\x7d' :: rest)⟩) :
    nextMember (fuel + 2) (spellString key ++ ':' :: cs) =
      ⟨([(some key, r)], none), some rest⟩ := by
  rw [nextMember_member key (by decide) h]
  rfl

theorem nextMember_comma (key : String) (h : value fuel cs = ⟨r, some (',' :: rest)⟩) :
    nextMember (fuel + 2) (spellString key ++ ':' :: cs) =
      .cons (some key, r) (nextMember (fuel + 1) rest) := by
  rw [nextMember_member key (by decide) h]
  rfl

end Steps

mutual

-- The induction is on the fuel, since each step of the reader uses one unit of it.
/-- Three units of fuel for each character are enough to read a document. -/
theorem value_spell (d : Document) {fuel : Nat} (h : 3 * d.spell.length ≤ fuel)
    (rest : List Char) : value fuel (d.spell ++ rest) = ⟨d.reading, some rest⟩ := by
  obtain ⟨fuel, rfl⟩ : ∃ k, fuel = k + 1 := by
    have hpos := d.length_spell_pos
    exact ⟨fuel - 1, by omega⟩
  match d with
  | .flag b => exact value_flag fuel b rest
  | .text s => exact value_text fuel s rest
  | .list ds =>
    rw [spell, List.length_cons, List.length_append, List.length_singleton] at h
    rw [spell, List.cons_append, List.append_assoc, List.singleton_append, value_bracket]
    obtain ⟨fuel, rfl⟩ : ∃ k, fuel = k + 2 := ⟨fuel - 2, by omega⟩
    match ds with
    | [] => rfl
    | item :: ds =>
      rw [items_spell, nextItem_spell item ds (by omega) rest]
      rfl
  | .record ms =>
    rw [spell, List.length_cons, List.length_append, List.length_singleton] at h
    rw [spell, List.cons_append, List.append_assoc, List.singleton_append, value_brace]
    obtain ⟨fuel, rfl⟩ : ∃ k, fuel = k + 2 := ⟨fuel - 2, by omega⟩
    match ms with
    | [] => rfl
    | m :: ms =>
      rw [members_spell, nextMember_spell m ms (by omega) rest]
      rfl
termination_by fuel

theorem nextItem_spell (item : Document) (ds : List Document) {fuel : Nat}
    (h : 3 * (spellItems (item :: ds)).length + 1 ≤ fuel) (rest : List Char) :
    nextItem fuel (spellItems (item :: ds) ++ ']' :: rest) =
      ⟨(itemReadings (item :: ds), none), some rest⟩ := by
  obtain ⟨fuel, rfl⟩ : ∃ k, fuel = k + 1 := ⟨fuel - 1, by omega⟩
  match ds with
  | [] =>
    rw [spellItems] at h ⊢
    exact nextItem_last (value_spell item (by omega) (']' :: rest))
  | d :: ds =>
    rw [Document.spellItems_cons, List.length_append, List.length_cons] at h
    rw [Document.spellItems_cons, List.append_assoc, List.cons_append,
      nextItem_comma (value_spell item (by omega) _), nextItem_spell d ds (by omega) rest]
    rfl
termination_by fuel

theorem nextMember_spell (m : String × Document) (ms : List (String × Document)) {fuel : Nat}
    (h : 3 * (spellMembers (m :: ms)).length ≤ fuel) (rest : List Char) :
    nextMember fuel (spellMembers (m :: ms) ++ '\x7d' :: rest) =
      ⟨(memberReadings (m :: ms), none), some rest⟩ := by
  obtain ⟨key, d⟩ := m
  match ms with
  | [] =>
    rw [spellMembers, List.length_append, List.length_cons] at h
    obtain ⟨fuel, rfl⟩ : ∃ k, fuel = k + 2 := ⟨fuel - 2, by omega⟩
    rw [spellMembers, List.append_assoc, List.cons_append]
    exact nextMember_last key (value_spell d (by omega) _)
  | n :: ms =>
    rw [Document.spellMembers_cons, List.length_append, List.length_cons, List.length_append,
      List.length_cons] at h
    obtain ⟨fuel, rfl⟩ : ∃ k, fuel = k + 2 := ⟨fuel - 2, by omega⟩
    rw [Document.spellMembers_cons, List.append_assoc, List.cons_append, List.append_assoc,
      List.cons_append, nextMember_comma key (value_spell d (by omega) _),
      nextMember_spell n ms (by omega) rest]
    rfl
termination_by fuel

end

/-- The text of a document is read as the document, and nothing is left. -/
theorem ofText_compact (d : Document) : ofText d.compact = ⟨d.reading, some []⟩ := by
  rw [ofText, Document.compact, String.toList_ofList, String.length_ofList]
  have hread := value_spell d (Nat.le_add_right (3 * d.spell.length) 3) []
  rwa [List.append_nil] at hread

end Reading

end ScriptBindings
