import Mathlib.Data.List.DropRight
import Mathlib.Logic.Relation
import ScriptBindings.Name.TypeName
import ScriptBindings.Proofs.Blank
import ScriptBindings.Proofs.Name.Identifier
import ScriptBindings.Proofs.Name.Scope

namespace ScriptBindings.TypeName

/-- The stem of a word is what stands before the markers at its end. -/
structure IsStem (stem word : List Char) : Prop where
  glued : ∃ markers, (∀ c ∈ markers, isMarker c = true) ∧ word = stem ++ markers
  bare : ∀ c ∈ stem.getLast?, isMarker c = false

/-- A word without stem, or whose stem is a qualifier. -/
def IsDecoration (word : List Char) : Prop :=
  ∃ stem, IsStem stem word ∧ stem ∈ [[], "const".toList, "volatile".toList]

/-- What a type expression reads as. -/
inductive Reads (type : String) : Except BindError String → Prop
  | named {front back : List (List Char)} {word stem : List Char} {name : String}
      (hwords : Blank.Spells (front ++ word :: back) type.toList)
      (hdecorations : ∀ w ∈ front ++ back, IsDecoration w) (hword : ¬ IsDecoration word)
      (hstem : IsStem stem word) (hname : Scope.IsLastPart name.toList stem) :
      Reads type (.ok name)
  | bare {words : List (List Char)} (hwords : Blank.Spells words type.toList)
      (hdecorations : ∀ w ∈ words, IsDecoration w) :
      Reads type (.error (.unsupported type .noBaseIdentifier))
  | several {front middle back : List (List Char)} {first second : List Char}
      (hwords : Blank.Spells (front ++ first :: (middle ++ second :: back)) type.toList)
      (hfirst : ¬ IsDecoration first) (hsecond : ¬ IsDecoration second) :
      Reads type (.error (.unsupported type .severalTokens))

/-- The second expression is the first with other blanks, with one more qualifier or marker as a
word of its own, or with one more marker at the end of a word. -/
inductive Decorates (type other : String) : Prop
  | respaced {words : List (List Char)} (h : Blank.Spells words type.toList)
      (hother : Blank.Spells words other.toList)
  | inserted {front back : List (List Char)} {word : List Char}
      (hword : word ∈ ["const".toList, "volatile".toList, ['&'], ['*']])
      (h : Blank.Spells (front ++ back) type.toList)
      (hother : Blank.Spells (front ++ word :: back) other.toList)
  | glued {front back : List (List Char)} {word : List Char} {marker : Char}
      (hmarker : isMarker marker = true) (h : Blank.Spells (front ++ word :: back) type.toList)
      (hother : Blank.Spells (front ++ (word ++ [marker]) :: back) other.toList)

section Words

variable {stem word : List Char}

theorem isStem_iff : IsStem stem word ↔ Blank.dropTail isMarker word = stem := by
  change _ ↔ word.rdropWhile isMarker = stem
  constructor
  · rintro ⟨⟨markers, hmarkers, rfl⟩, hbare⟩
    induction markers using List.reverseRecOn with
    | nil =>
      rw [List.append_nil, List.rdropWhile_eq_self_iff]
      intro hne
      rw [hbare _ (List.getLast?_eq_getLast_of_ne_nil hne)]
      exact Bool.false_ne_true
    | append_singleton markers c ih =>
      rw [List.forall_mem_append] at hmarkers
      rw [← List.append_assoc, List.rdropWhile_concat_pos _ _ _ (hmarkers.2 c (by simp))]
      exact ih hmarkers.1
  · rintro rfl
    constructor
    · exact ⟨word.rtakeWhile isMarker, fun c => List.mem_rtakeWhile_imp,
        List.rdropWhile_append_rtakeWhile.symm⟩
    · intro c hc
      obtain ⟨hne, rfl⟩ := List.mem_getLast?_eq_getLast hc
      exact Bool.eq_false_iff.mpr (List.rdropWhile_last_not isMarker word hne)

theorem isDecoration_iff :
    IsDecoration word ↔
      Blank.dropTail isMarker word = [] ∨ isQualifier (Blank.dropTail isMarker word) = true := by
  simp only [IsDecoration, isStem_iff, exists_eq_left', isQualifier, List.mem_cons,
    List.not_mem_nil, or_false, Bool.or_eq_true, decide_eq_true_eq]

instance : DecidablePred IsDecoration := fun _ => decidable_of_iff' _ isDecoration_iff

theorem isDecoration_glued {marker : Char} (h : isMarker marker = true) :
    IsDecoration (word ++ [marker]) ↔ IsDecoration word := by
  rw [isDecoration_iff, isDecoration_iff]
  have hglued : Blank.dropTail isMarker (word ++ [marker]) = Blank.dropTail isMarker word :=
    List.rdropWhile_concat_pos _ _ _ h
  rw [hglued]

end Words

section Stems

variable {words front back : List (List Char)} {word : List Char}

/-- The stems of the words that are no decorations. -/
def stems (words : List (List Char)) : List (List Char) :=
  (words.filter fun w => ¬ IsDecoration w).map (Blank.dropTail isMarker)

theorem tokens_eq_stems (type : String) : tokens type = stems (Blank.words type) := by
  have hkept : ∀ w, ((fun t => decide (t ≠ []) && !isQualifier t) ∘ Blank.dropTail isMarker) w =
      decide (¬ IsDecoration w) := by
    intro w
    simp only [Function.comp_apply, isDecoration_iff, decide_not, Bool.decide_or, Bool.not_or,
      Bool.decide_eq_true]
  rw [tokens, stems, List.filter_map, funext hkept]

theorem stems_append : stems (front ++ back) = stems front ++ stems back := by
  rw [stems, List.filter_append, List.map_append]
  rfl

theorem stems_cons_of_decoration (h : IsDecoration word) : stems (word :: words) = stems words := by
  rw [stems, List.filter_cons_of_neg (by simpa using h)]
  rfl

theorem stems_cons_of_not (h : ¬ IsDecoration word) :
    stems (word :: words) = Blank.dropTail isMarker word :: stems words := by
  rw [stems, List.filter_cons_of_pos (by simpa using h)]
  rfl

theorem stems_eq_nil_iff : stems words = [] ↔ ∀ w ∈ words, IsDecoration w := by
  simp [stems]

end Stems

variable {type other : String} {r : Except BindError String}

theorem Reads.base_eq (h : Reads type r) : base type = r := by
  unfold base
  rw [tokens_eq_stems]
  cases h with
  | @named front back word stem name hwords hdecorations hword hstem hname =>
    rw [List.forall_mem_append] at hdecorations
    rw [Blank.words_eq_iff.mpr hwords, stems_append, stems_eq_nil_iff.mpr hdecorations.1,
      stems_cons_of_not hword, stems_eq_nil_iff.mpr hdecorations.2, isStem_iff.mp hstem]
    change Except.ok (String.ofList (Scope.lastOf stem)) = .ok name
    rw [Scope.lastOf_eq_iff.mpr hname, String.ofList_toList]
  | bare hwords hdecorations =>
    rw [Blank.words_eq_iff.mpr hwords, stems_eq_nil_iff.mpr hdecorations]
  | @several front middle back first second hwords hfirst hsecond =>
    rw [Blank.words_eq_iff.mpr hwords, stems_append, stems_cons_of_not hfirst, stems_append,
      stems_cons_of_not hsecond]
    -- Of two stems or more none is the base, wherever the two stand.
    cases stems front with
    | nil =>
      cases stems middle with
      | nil => rfl
      | cons => rfl
    | cons s ss =>
      cases ss with
      | nil => rfl
      | cons => rfl

theorem exists_reads (type : String) : ∃ r, Reads type r := by
  have hwords := Blank.words_eq_iff.mp (rfl : Blank.words type = _)
  generalize Blank.words type = words at hwords
  cases hkept : words.filter fun w => ¬ IsDecoration w with
  | nil =>
    exact ⟨_, .bare hwords (stems_eq_nil_iff.mp (by rw [stems, hkept, List.map_nil]))⟩
  | cons first kept =>
    obtain ⟨front, rest, rfl, hfront, hfirst, hrest⟩ := List.filter_eq_cons_iff.mp hkept
    have hfirst : ¬ IsDecoration first := of_decide_eq_true hfirst
    cases kept with
    | nil =>
      have hback := stems_eq_nil_iff.mp (by rw [stems, hrest, List.map_nil])
      refine ⟨_, .named hwords ?_ hfirst (isStem_iff.mpr rfl)
        (Scope.lastOf_eq_iff.mp String.toList_ofList.symm)⟩
      exact List.forall_mem_append.mpr ⟨by simpa using hfront, hback⟩
    | cons second kept =>
      obtain ⟨middle, back, rfl, _, hsecond, _⟩ := List.filter_eq_cons_iff.mp hrest
      exact ⟨_, .several hwords hfirst (of_decide_eq_true hsecond)⟩

theorem base_eq_iff : base type = r ↔ Reads type r := by
  constructor
  · rintro rfl
    obtain ⟨r, h⟩ := exists_reads type
    rwa [h.base_eq]
  · exact Reads.base_eq

theorem base_of_isCapitalised (h : Identifier.IsCapitalised type) : base type = .ok type := by
  obtain ⟨c, cs, hcs, hc⟩ := h.exists_cons
  have hspells : Blank.Spells [type.toList] type.toList :=
    Blank.spells_singleton (by rw [hcs]; exact List.cons_ne_nil c cs)
      fun d hd => Identifier.isBlank_of_isWordChar (h.2 d hd)
  have hstem : IsStem type.toList type.toList := by
    refine ⟨⟨[], fun d hd => absurd hd List.not_mem_nil, (List.append_nil _).symm⟩, ?_⟩
    intro d hd
    have hword := h.2 d (List.mem_of_mem_getLast? hd)
    rw [isMarker, Bool.or_eq_false_iff, beq_eq_false_iff_ne, beq_eq_false_iff_ne]
    constructor
    · rintro rfl
      exact absurd hword (by decide)
    · rintro rfl
      exact absurd hword (by decide)
  have hkept : ¬ IsDecoration type.toList := by
    have hsmall : ∀ s ∈ [[], "const".toList, "volatile".toList],
        (s.head?.any Char.isUpper) = false := by decide
    rintro ⟨stem, hother, hmem⟩
    rw [← isStem_iff.mp hother, isStem_iff.mp hstem] at hmem
    exact Bool.false_ne_true ((hsmall _ hmem).symm.trans h.1)
  have hpart : Scope.IsLastPart type.toList type.toList :=
    .whole fun hcolons => h.not_mem (by decide) (hcolons.subset List.mem_cons_self)
  have hnone : ∀ w ∈ ([] : List (List Char)) ++ [], IsDecoration w := fun w hw => nomatch hw
  exact base_eq_iff.mpr (.named hspells hnone hkept hstem hpart)

theorem Decorates.tokens_eq (h : Decorates type other) : tokens type = tokens other := by
  rw [tokens_eq_stems, tokens_eq_stems]
  cases h with
  | respaced h hother => rw [Blank.words_eq_iff.mpr h, Blank.words_eq_iff.mpr hother]
  | @inserted front back word hword h hother =>
    have hdecoration : ∀ w ∈ ["const".toList, "volatile".toList, ['&'], ['*']], IsDecoration w := by
      decide
    rw [Blank.words_eq_iff.mpr h, Blank.words_eq_iff.mpr hother, stems_append, stems_append,
      stems_cons_of_decoration (hdecoration word hword)]
  | @glued front back word marker hmarker h hother =>
    rw [Blank.words_eq_iff.mpr h, Blank.words_eq_iff.mpr hother, stems_append, stems_append]
    apply congrArg (stems front ++ ·)
    by_cases hword : IsDecoration word
    · rw [stems_cons_of_decoration hword,
        stems_cons_of_decoration ((isDecoration_glued hmarker).mpr hword)]
    · rw [stems_cons_of_not hword, stems_cons_of_not (mt (isDecoration_glued hmarker).mp hword)]
      apply congrArg (· :: stems back)
      exact (List.rdropWhile_concat_pos isMarker word marker hmarker).symm

theorem tokens_eq_of_decorated (h : Relation.EqvGen Decorates type other) :
    tokens type = tokens other := by
  induction h with
  | rel type other h => exact h.tokens_eq
  | refl type => rfl
  | symm type other _ ih => exact ih.symm
  | trans type middle other _ _ ih ih' => exact ih.trans ih'

theorem base_eq_of_tokens (h : tokens type = tokens other) :
    (∀ name, base type = .ok name ↔ base other = .ok name) ∧
      ∀ cause, base type = .error (.unsupported type cause) ↔
        base other = .error (.unsupported other cause) := by
  unfold base
  rw [h]
  cases tokens other with
  | nil => simp
  | cons t ts =>
    cases ts with
    | nil => simp
    | cons => simp

/-- A type expression has a base name if all of its words but one are decorations: the last part of
that word's stem. Any other expression is refused and named in the error. Neither blanks nor
decorations, wherever they stand, have a part in the answer. -/
theorem base_reads (type : String) :
    (∀ r, base type = r ↔ Reads type r) ∧
      ∀ other, Relation.EqvGen Decorates type other →
        (∀ name, base type = .ok name ↔ base other = .ok name) ∧
          ∀ cause, base type = .error (.unsupported type cause) ↔
            base other = .error (.unsupported other cause) := by
  constructor
  · intro r
    exact base_eq_iff
  · intro other h
    exact base_eq_of_tokens (tokens_eq_of_decorated h)

example : base "pair<int, int>" = .error (.unsupported "pair<int, int>" .severalTokens) := by
  decide

/-- A qualifier and a reference are taken away, a pointer is glued on, and another qualifier is
added behind a tabulator. -/
theorem decorated_foo :
    Relation.EqvGen Decorates "const ns::Foo &" "ns::Foo*\tvolatile" := by
  have hconst : Decorates "ns::Foo &" "const ns::Foo &" :=
    @Decorates.inserted _ _ [] ["ns::Foo".toList, ['&']] "const".toList (by decide)
      (Blank.words_eq_iff.mp (by decide)) (Blank.words_eq_iff.mp (by decide))
  have hreference : Decorates "ns::Foo" "ns::Foo &" :=
    @Decorates.inserted _ _ ["ns::Foo".toList] [] ['&'] (by decide)
      (Blank.words_eq_iff.mp (by decide)) (Blank.words_eq_iff.mp (by decide))
  have hpointer : Decorates "ns::Foo" "ns::Foo*" :=
    @Decorates.glued _ _ [] [] "ns::Foo".toList '*' (by decide)
      (Blank.words_eq_iff.mp (by decide)) (Blank.words_eq_iff.mp (by decide))
  have hvolatile : Decorates "ns::Foo*" "ns::Foo*\tvolatile" :=
    @Decorates.inserted _ _ ["ns::Foo*".toList] [] "volatile".toList (by decide)
      (Blank.words_eq_iff.mp (by decide)) (Blank.words_eq_iff.mp (by decide))
  have hbare : Relation.EqvGen Decorates "ns::Foo" "const ns::Foo &" :=
    .trans _ _ _ (.rel _ _ hreference) (.rel _ _ hconst)
  exact .trans _ _ _ (.symm _ _ hbare) (.trans _ _ _ (.rel _ _ hpointer) (.rel _ _ hvolatile))

theorem foo_reads_decorated :
    Relation.EqvGen Decorates "const ns::Foo &" "ns::Foo*\tvolatile" ∧
      Reads "const ns::Foo &" (.ok "Foo") ∧ base "ns::Foo*\tvolatile" = .ok "Foo" := by
  obtain ⟨hreads, hdecorated⟩ := base_reads "const ns::Foo &"
  have hbase : base "const ns::Foo &" = .ok "Foo" := by decide
  exact ⟨decorated_foo, (hreads _).mp hbase, ((hdecorated _ decorated_foo).1 "Foo").mp hbase⟩

end ScriptBindings.TypeName
