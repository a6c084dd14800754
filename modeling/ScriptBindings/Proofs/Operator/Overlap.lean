import ScriptBindings.Proofs.Emission.Operators
import ScriptBindings.Proofs.Name.Identifier

namespace ScriptBindings

namespace Operator

open Identifier (IsCapitalised)

/-- The words of an operator as they stand in an identifier. -/
def words (token : String) : String :=
  Identifier.camel ((table.lookup token).getD "")

/-- A free operator on one or two operands whose types are capitalised identifiers. -/
structure Operation where
  token : String
  left : String
  right : Option String
  known : token ∈ table.map Prod.fst := by decide
  left_type : IsCapitalised left := by decide
  right_type : ∀ type ∈ right, IsCapitalised type := by decide

namespace Operation

def types (o : Operation) : List String := o.left :: o.right.toList

/-- What stands behind the operator's words: the type of the second operand if there is one. -/
def ending (o : Operation) : String := o.right.getD ""

def shown (o : Operation) : String := o.left ++ words o.token ++ o.ending

/-- The operation is declared under the name, with the parameters. -/
structure Denotes (o : Operation) (name : String) (parameters : List Parameter) : Prop where
  token_eq : token? name = some o.token
  types_eq : parameters.map Parameter.type = o.types

/-- The identifier of `a` is that of `b`, though its parts lie elsewhere in it. -/
inductive Overlaps (a b : Operation) : Prop
  /-- The words of each stand inside an operand type of the other. -/
  | operand {middle : String} (hleft : b.left = a.left ++ words a.token ++ middle)
      (hright : a.ending = middle ++ words b.token ++ b.ending)
  /-- The words of `b` are those of `a` and the beginning of its second type. -/
  | longer {more : String} (hmore : more ≠ "") (hleft : b.left = a.left)
      (hwords : words b.token = words a.token ++ more) (hright : a.ending = more ++ b.ending)
  /-- The words of `a` are the end of the first type of `b` and its words. -/
  | shorter {more : String} (hmore : more ≠ "") (hleft : b.left = a.left ++ more)
      (hwords : words a.token = more ++ words b.token) (hright : b.ending = a.ending)

end Operation

section Words

def letters (identifier : String) : List Char :=
  (identifier.toList.splitOn '_').flatMap Identifier.clean

theorem capitalised_letters : ∀ e ∈ table, (letters e.2).head?.any Char.isUpper = true ∧
    (letters e.2).all Identifier.isWordChar = true := by
  decide +kernel

theorem nodup_letters : (table.map fun e => letters e.2).Nodup := by
  decide +kernel

/-- Where the words of one operator go on inside those of another, they end with them. -/
theorem inner_letters : ∀ e ∈ table, ∀ k < (letters e.2).length,
    ((letters e.2).drop (k + 1)).head?.any Char.isUpper = true → ∀ e' ∈ table,
      ((letters e.2).drop (k + 1) <+: letters e'.2 ∨
        letters e'.2 <+: (letters e.2).drop (k + 1)) →
      (letters e.2).drop (k + 1) = letters e'.2 := by
  decide +kernel

variable {token other : String}

theorem exists_mem_table (h : token ∈ table.map Prod.fst) :
    ∃ i, (token, i) ∈ table ∧ identifier token = .ok i ∧ words token = Identifier.camel i := by
  obtain ⟨i, hi⟩ := exists_identifier_iff.mpr h
  have hlookup : table.lookup token = some i := by
    unfold identifier at hi
    cases hlookup : table.lookup token with
    | none =>
      rw [hlookup] at hi
      cases hi
    | some j =>
      rw [hlookup] at hi
      exact congrArg some (Except.ok.inj hi)
  obtain ⟨before, after, htable, _⟩ := List.lookup_eq_some_iff.mp hlookup
  refine ⟨i, ?_, hi, ?_⟩
  · rw [htable]
    exact List.mem_append_right before List.mem_cons_self
  · rw [words, hlookup, Option.getD_some]

theorem toList_camel (identifier : String) :
    (Identifier.camel identifier).toList = letters identifier :=
  String.toList_ofList

theorem isCapitalised_words (h : token ∈ table.map Prod.fst) : IsCapitalised (words token) := by
  obtain ⟨i, hi, _, hwords⟩ := exists_mem_table h
  obtain ⟨hfirst, hall⟩ := capitalised_letters (token, i) hi
  rw [hwords, IsCapitalised, toList_camel]
  exact ⟨hfirst, List.all_eq_true.mp hall⟩

theorem words_injective (h : token ∈ table.map Prod.fst) (hother : other ∈ table.map Prod.fst)
    (heq : words token = words other) : token = other := by
  obtain ⟨i, hi, _, hwords⟩ := exists_mem_table h
  obtain ⟨j, hj, _, hwords'⟩ := exists_mem_table hother
  rw [hwords, hwords', String.ext_iff, toList_camel, toList_camel] at heq
  exact congrArg Prod.fst (List.inj_on_of_nodup_map nodup_letters hi hj heq)

theorem eq_words_of_inner (h : token ∈ table.map Prod.fst) (hother : other ∈ table.map Prod.fst)
    {front back : List Char} (hsplit : (words token).toList = front ++ back) (hfront : front ≠ [])
    (hback : back.head?.any Char.isUpper = true)
    (hcompare : back <+: (words other).toList ∨ (words other).toList <+: back) :
    back = (words other).toList := by
  obtain ⟨i, hi, _, hwords⟩ := exists_mem_table h
  obtain ⟨j, hj, _, hwords'⟩ := exists_mem_table hother
  rw [hwords, toList_camel] at hsplit
  rw [hwords', toList_camel] at hcompare ⊢
  obtain ⟨c, front, rfl⟩ := List.exists_cons_of_ne_nil hfront
  have hdrop : (letters i).drop (front.length + 1) = back := by
    rw [hsplit, ← List.length_cons, List.drop_left]
  have hlength : front.length < (letters i).length := by
    rw [hsplit, List.length_append, List.length_cons]
    omega
  have hinner := inner_letters (token, i) hi front.length hlength
  rw [hdrop] at hinner
  exact hinner hback (other, j) hj hcompare

end Words

namespace Operation

variable {a b o : Operation} {name : String} {parameters : List Parameter}

theorem getElem?_types (o : Operation) : o.types[1]? = o.right := by
  unfold types
  cases o.right with
  | none => rfl
  | some type => rfl

theorem ext_iff : a = b ↔ a.token = b.token ∧ a.types = b.types := by
  constructor
  · rintro rfl
    exact ⟨rfl, rfl⟩
  · rintro ⟨htoken, htypes⟩
    have hleft := (List.cons.inj htypes).1
    have hright : a.right = b.right := by rw [← getElem?_types a, htypes, getElem?_types]
    cases a
    cases b
    cases htoken
    cases hleft
    cases hright
    rfl

theorem right_eq_of_ending (h : a.ending = b.ending) : a.right = b.right := by
  have hne : ∀ o : Operation, ∀ type ∈ o.right, o.ending ≠ "" := by
    intro o type htype hempty
    obtain ⟨c, cs, hcs, _⟩ := (o.right_type type htype).exists_cons
    rw [ending, htype, Option.getD_some] at hempty
    rw [hempty] at hcs
    cases hcs
  cases ha : a.right with
  | none =>
    cases hb : b.right with
    | none => rfl
    | some type =>
      rw [ending, ha] at h
      exact absurd h.symm (hne b type hb)
  | some type =>
    cases hb : b.right with
    | none =>
      rw [ending.eq_def b, hb] at h
      exact absurd h (hne a type ha)
    | some other =>
      rw [ending, ha, ending, hb] at h
      exact congrArg some h

theorem toList_shown (o : Operation) :
    o.shown.toList = o.left.toList ++ ((words o.token).toList ++ o.ending.toList) := by
  rw [shown, String.toList_append, String.toList_append, List.append_assoc]

theorem eq_append_of_toList {s t : String} {cs : List Char} (h : s.toList = t.toList ++ cs) :
    s = t ++ String.ofList cs := by
  rw [String.ext_iff, String.toList_append, String.toList_ofList, h]

theorem Overlaps.shown_eq (h : a.Overlaps b) : a.shown = b.shown := by
  unfold shown
  cases h with
  | operand hleft hright => simp only [hleft, hright, String.append_assoc]
  | longer _ hleft hwords hright => simp only [hleft, hwords, hright, String.append_assoc]
  | shorter _ hleft hwords hright => simp only [hleft, hwords, hright, String.append_assoc]

/-- At one place stand the words of both operations, those of `b` perhaps with more behind. -/
theorem eq_or_overlaps_of_words (hleft : b.left = a.left) {more : List Char}
    (hwords : (words b.token).toList = (words a.token).toList ++ more)
    (hending : a.ending.toList = more ++ b.ending.toList) : a = b ∨ a.Overlaps b := by
  cases more with
  | nil =>
    rw [List.append_nil] at hwords
    have htoken := words_injective b.known a.known (String.ext hwords)
    have hright := right_eq_of_ending (String.ext hending)
    refine .inl (ext_iff.mpr ⟨htoken.symm, ?_⟩)
    rw [types, types, hleft, hright]
  | cons c more =>
    refine .inr (.longer ?_ hleft (eq_append_of_toList hwords) ?_)
    · exact mt String.ofList_eq_empty_iff.mp (List.cons_ne_nil c more)
    · rw [String.ext_iff, String.toList_append, String.toList_ofList, hending]

theorem overlaps_of_middle {middle : List Char}
    (hleft : b.left.toList = a.left.toList ++ ((words a.token).toList ++ middle))
    (hending : a.ending.toList = middle ++ ((words b.token).toList ++ b.ending.toList)) :
    a.Overlaps b := by
  have hlefts : b.left = a.left ++ words a.token ++ String.ofList middle := by
    rw [String.ext_iff, String.toList_append, String.toList_append, String.toList_ofList, hleft,
      List.append_assoc]
  have hendings : a.ending = String.ofList middle ++ words b.token ++ b.ending := by
    rw [String.ext_iff, String.toList_append, String.toList_append, String.toList_ofList, hending,
      List.append_assoc]
  exact .operand hlefts hendings

theorem overlaps_of_left {more : List Char} (hmore : more ≠ [])
    (hleft : b.left.toList = a.left.toList ++ more)
    (h : (words a.token).toList ++ a.ending.toList =
      more ++ ((words b.token).toList ++ b.ending.toList)) : a.Overlaps b := by
  rcases List.append_eq_append_iff.mp h with ⟨middle, rfl, hending⟩ | ⟨back, hwords, hrest⟩
  · exact overlaps_of_middle hleft hending
  · cases back with
    | nil =>
      rw [List.append_nil] at hwords
      rw [List.nil_append] at hrest
      rw [← hwords, ← List.append_nil (words a.token).toList] at hleft
      exact overlaps_of_middle hleft (by rw [List.nil_append, hrest])
    | cons c back =>
      -- The words of `a` reach beyond that type, and those of `b` begin inside them.
      obtain ⟨d, ds, hwords', hcapital⟩ := (isCapitalised_words b.known).exists_cons
      have hhead : c = d := by
        rw [hwords', List.cons_append, List.cons_append] at hrest
        exact (List.cons.inj hrest).1.symm
      have hcompare := List.prefix_or_prefix_of_prefix ⟨_, hrest.symm⟩ ⟨_, rfl⟩
      have hback := eq_words_of_inner a.known b.known hwords hmore (hhead ▸ hcapital) hcompare
      rw [hback] at hwords hrest
      have hending := String.ext (List.append_cancel_left hrest)
      refine .shorter (mt String.ofList_eq_empty_iff.mp hmore) (eq_append_of_toList hleft) ?_
        hending
      rw [String.ext_iff, String.toList_append, String.toList_ofList, hwords]

theorem eq_or_overlaps {more : List Char} (hleft : b.left.toList = a.left.toList ++ more)
    (h : (words a.token).toList ++ a.ending.toList =
      more ++ ((words b.token).toList ++ b.ending.toList)) :
    a = b ∨ a.Overlaps b ∨ b.Overlaps a := by
  by_cases hmore : more = []
  · subst hmore
    rw [List.append_nil] at hleft
    rw [List.nil_append] at h
    have hleft := String.ext hleft
    rcases List.append_eq_append_iff.mp h with ⟨more, hwords, hending⟩ | ⟨more, hwords, hending⟩
    · exact (eq_or_overlaps_of_words hleft hwords hending).imp_right .inl
    · exact (eq_or_overlaps_of_words hleft.symm hwords hending).imp Eq.symm .inr
  · exact .inr (.inl (overlaps_of_left hmore hleft h))

/-- Operations share an identifier only where they are equal or overlap. -/
theorem shown_eq_iff : a.shown = b.shown ↔ a = b ∨ a.Overlaps b ∨ b.Overlaps a := by
  constructor
  · intro h
    rw [String.ext_iff, toList_shown, toList_shown] at h
    rcases List.append_eq_append_iff.mp h with ⟨more, hleft, hrest⟩ | ⟨more, hleft, hrest⟩
    · exact eq_or_overlaps hleft hrest
    · exact (eq_or_overlaps hleft hrest).imp Eq.symm Or.symm
  · rintro (rfl | h | h)
    · rfl
    · exact h.shown_eq
    · exact h.shown_eq.symm

end Operation

end Operator

end ScriptBindings
