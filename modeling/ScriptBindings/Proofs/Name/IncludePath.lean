import Mathlib.Data.List.Forall2
import Mathlib.Logic.Relation
import ScriptBindings.Name.IncludePath

namespace ScriptBindings.IncludePath

/-- The second location is the first with other separators, with one of them repeated, or with a dot
between two of them. -/
inductive Respells (location other : String) : Prop
  | exchanged (h : List.Forall₂ (fun c d => c = d ∨ isSeparator c = true ∧ isSeparator d = true)
      location.toList other.toList)
  | repeated {front back : List Char} {c d : Char} (hc : isSeparator c = true)
      (hd : isSeparator d = true) (h : location.toList = front ++ c :: back)
      (hother : other.toList = front ++ c :: d :: back)
  | dotted {front back : List Char} {c d : Char} (hc : isSeparator c = true)
      (hd : isSeparator d = true) (h : location.toList = front ++ c :: d :: back)
      (hother : other.toList = front ++ c :: '.' :: d :: back)

section AfterLast

variable {x : List Char} {front back : List (List Char)}

theorem afterLast_of_not_mem (h : x ∉ back) : afterLast x back = back := by
  cases back with
  | nil => rfl
  | cons s back =>
    rw [List.mem_cons, not_or] at h
    rw [afterLast, if_neg h.2, if_neg (Ne.symm h.1)]

theorem afterLast_append_cons (x : List Char) (front back : List (List Char)) :
    afterLast x (front ++ x :: back) = afterLast x back := by
  induction front with
  | nil =>
    rw [List.nil_append, afterLast, if_pos rfl]
    split
    · rfl
    · rename_i hback
      exact (afterLast_of_not_mem hback).symm
  | cons s front ih =>
    rw [List.cons_append, afterLast, if_pos (List.mem_append_right _ List.mem_cons_self), ih]

theorem not_mem_afterLast (x : List Char) (ss : List (List Char)) : x ∉ afterLast x ss := by
  induction ss with
  | nil => exact List.not_mem_nil
  | cons s ss ih =>
    unfold afterLast
    split
    · exact ih
    · rename_i hss
      split
      · exact hss
      · rename_i hs
        exact fun hx => (List.mem_cons.mp hx).elim (Ne.symm hs) hss

theorem afterLast_suffix (x : List Char) (ss : List (List Char)) : afterLast x ss <:+ ss := by
  induction ss with
  | nil => exact List.suffix_rfl
  | cons s ss ih =>
    unfold afterLast
    split
    · exact ih.trans (List.suffix_cons s ss)
    · split
      · exact List.suffix_cons s ss
      · exact List.suffix_rfl

end AfterLast

section Components

variable {c : Char} {cs ds : List Char}

theorem components_append (hc : isSeparator c = true) (front back : List Char) :
    components (front ++ c :: back) = components front ++ components back := by
  unfold components
  rw [List.splitOnP_append_cons front back hc, List.filter_append]

theorem components_cons (hc : isSeparator c = true) (back : List Char) :
    components (c :: back) = components back :=
  components_append hc [] back

theorem components_dot_cons (hc : isSeparator c = true) (back : List Char) :
    components ('.' :: c :: back) = components back :=
  components_append hc ['.'] back

theorem splitOnP_of_exchanged
    (h : List.Forall₂ (fun c d => c = d ∨ isSeparator c = true ∧ isSeparator d = true) cs ds) :
    cs.splitOnP isSeparator = ds.splitOnP isSeparator := by
  induction h with
  | nil => rfl
  | @cons c d cs ds hcd _ ih =>
    rw [List.splitOnP_cons_eq_if_modifyHead, List.splitOnP_cons_eq_if_modifyHead, ih]
    rcases hcd with rfl | ⟨hc, hd⟩
    · rfl
    · rw [if_pos hc, if_pos hd]

theorem components_of_respells {location other : String} (h : Respells location other) :
    components other.toList = components location.toList := by
  cases h with
  | exchanged h =>
    unfold components
    rw [splitOnP_of_exchanged h]
  | repeated hc hd h hother =>
    rw [h, hother, components_append hc, components_append hc, components_cons hd]
  | dotted hc hd h hother =>
    rw [h, hother, components_append hc, components_append hc, components_dot_cons hd,
      components_cons hd]

theorem components_of_eqvGen {location other : String}
    (h : Relation.EqvGen Respells location other) :
    components other.toList = components location.toList := by
  induction h with
  | rel _ _ h => exact components_of_respells h
  | refl _ => rfl
  | symm _ _ _ ih => exact ih.symm
  | trans _ _ _ _ _ ih ih' => exact ih'.trans ih

end Components

section Segments

variable {s cs : List Char} {ss : List (List Char)}

/-- What stands between two separators and is neither empty nor a dot. -/
structure IsSegment (s : List Char) : Prop where
  ne_nil : s ≠ []
  ne_dot : s ≠ ['.']
  isSeparator_eq_false : ∀ c ∈ s, isSeparator c = false

theorem isSeparator_of_mem_splitOnP (cs : List Char) :
    ∀ s ∈ cs.splitOnP isSeparator, ∀ c ∈ s, isSeparator c = false := by
  induction cs with
  | nil =>
    intro s hs c hc
    rw [List.splitOnP_nil, List.mem_singleton] at hs
    subst hs
    exact absurd hc List.not_mem_nil
  | cons d cs ih =>
    intro s hs
    rw [List.splitOnP_cons_eq_if_modifyHead] at hs
    split at hs
    · rcases List.mem_cons.mp hs with rfl | hs
      · exact fun c hc => absurd hc List.not_mem_nil
      · exact ih s hs
    · rename_i hd
      obtain ⟨first, others, hsplit⟩ :=
        List.exists_cons_of_ne_nil (List.splitOnP_ne_nil isSeparator cs)
      rw [hsplit] at hs ih
      rw [List.modifyHead_cons] at hs
      rcases List.mem_cons.mp hs with rfl | hs
      · intro c hc
        rcases List.mem_cons.mp hc with rfl | hc
        · exact Bool.eq_false_iff.mpr hd
        · exact ih first List.mem_cons_self c hc
      · exact ih s (List.mem_cons_of_mem _ hs)

theorem isSegment_of_mem_components (h : s ∈ components cs) : IsSegment s := by
  obtain ⟨hs, hne⟩ := List.mem_filter.mp h
  have hne : s ≠ [] ∧ s ≠ ['.'] := by simpa using hne
  exact ⟨hne.1, hne.2, isSeparator_of_mem_splitOnP cs s hs⟩

theorem IsSegment.components_eq (h : IsSegment s) : components s = [s] := by
  unfold components
  rw [List.splitOnP_eq_singleton h.isSeparator_eq_false]
  simp [h.ne_nil, h.ne_dot]

theorem components_intercalate (h : ∀ s ∈ ss, IsSegment s) :
    components (['/'].intercalate ss) = ss := by
  induction ss with
  | nil => decide
  | cons s ss ih =>
    have hs := (h s List.mem_cons_self).components_eq
    have ih := ih fun s' hs' => h s' (List.mem_cons_of_mem _ hs')
    cases ss with
    | nil => simpa using hs
    | cons s' ss =>
      rw [List.intercalate_cons_cons, List.append_assoc, List.singleton_append,
        components_append (by decide), hs, ih, List.singleton_append]

/-- The segments of the include path of a location. -/
def segments (location : String) : List (List Char) :=
  afterLast "include".toList (components location.toList)

theorem isSegment_of_mem_segments {location : String} (h : s ∈ segments location) : IsSegment s :=
  isSegment_of_mem_components ((afterLast_suffix _ _).mem h)

theorem toList_ofLocation (location : String) :
    (ofLocation location).toList = ['/'].intercalate (segments location) := by
  have hmap : ∀ ss : List (List Char), (ss.map String.ofList).map String.toList = ss := by
    intro ss
    simp
  unfold ofLocation
  rw [String.toList_intercalate, hmap]
  rfl

theorem components_ofLocation (location : String) :
    components (ofLocation location).toList = segments location := by
  rw [toList_ofLocation]
  exact components_intercalate fun _ hs => isSegment_of_mem_segments hs

theorem segments_ofLocation (location : String) :
    segments (ofLocation location) = segments location := by
  have hnot : "include".toList ∉ segments location := not_mem_afterLast _ _
  rw [segments, components_ofLocation, afterLast_of_not_mem hnot]

theorem segments_below (root rest : String) :
    segments (root ++ "/include/" ++ rest) = segments rest := by
  have hlist : (root ++ "/include/" ++ rest).toList =
      root.toList ++ '/' :: ("include".toList ++ '/' :: rest.toList) := by
    simp
  have hinclude : components "include".toList = ["include".toList] := by decide
  unfold segments
  rw [hlist, components_append (by decide), components_append (by decide), hinclude,
    List.singleton_append, afterLast_append_cons]

theorem ofLocation_eq (location : String) :
    ofLocation location = "/".intercalate ((segments location).map String.ofList) := rfl

theorem ofLocation_congr {location other : String} (h : segments location = segments other) :
    ofLocation location = ofLocation other := by
  rw [ofLocation_eq, ofLocation_eq, h]

theorem mem_intercalate {c d : Char} (h : d ∈ [c].intercalate ss) :
    d = c ∨ ∃ s ∈ ss, d ∈ s := by
  induction ss with
  | nil => exact absurd h List.not_mem_nil
  | cons s ss ih =>
    cases ss with
    | nil => exact .inr ⟨s, List.mem_cons_self, by simpa using h⟩
    | cons s' ss =>
      rw [List.intercalate_cons_cons, List.mem_append, List.mem_append, List.mem_singleton] at h
      rcases h with (h | h) | h
      · exact .inr ⟨s, List.mem_cons_self, h⟩
      · exact .inl h
      · obtain h | ⟨s'', hs'', h⟩ := ih h
        · exact .inl h
        · exact .inr ⟨s'', List.mem_cons_of_mem _ hs'', h⟩

theorem IsSegment.not_mem {c : Char} (h : IsSegment s) (hc : isSeparator c = true) : c ∉ s := by
  intro hmem
  rw [h.isSeparator_eq_false c hmem] at hc
  exact Bool.false_ne_true hc

theorem backslash_not_mem (location : String) : '\\' ∉ (ofLocation location).toList := by
  intro h
  rw [toList_ofLocation] at h
  obtain h | ⟨s, hs, h⟩ := mem_intercalate h
  · exact absurd h (by decide)
  · exact (isSegment_of_mem_segments hs).not_mem (by decide) h

/-- The include path names the directories and the header below the last include directory. -/
theorem ofLocation_names (location : String) :
    ∃ names : List String, ofLocation location = "/".intercalate names ∧
      ∀ name ∈ names, name ≠ "" ∧ name ≠ "." ∧ name ≠ "include" ∧
        '/' ∉ name.toList ∧ '\\' ∉ name.toList := by
  refine ⟨(segments location).map String.ofList, rfl, fun name hname => ?_⟩
  obtain ⟨s, hs, rfl⟩ := List.mem_map.mp hname
  have hsegment := isSegment_of_mem_segments hs
  have hinclude : s ≠ "include".toList := by
    rintro rfl
    exact not_mem_afterLast _ _ hs
  have hne : ∀ text : String, s ≠ text.toList → String.ofList s ≠ text := by
    rintro text h rfl
    exact h String.toList_ofList.symm
  rw [String.toList_ofList]
  exact ⟨hne "" hsegment.ne_nil, hne "." hsegment.ne_dot, hne "include" hinclude,
    hsegment.not_mem (by decide), hsegment.not_mem (by decide)⟩

/-- Include paths are a normal form of locations. -/
theorem ofLocation_canonical (location rest : String) :
    ofLocation (ofLocation location) = ofLocation location ∧
    '\\' ∉ (ofLocation location).toList ∧
    (∃ names : List String, ofLocation location = "/".intercalate names ∧
      ∀ name ∈ names, name ≠ "" ∧ name ≠ "." ∧ name ≠ "include" ∧
        '/' ∉ name.toList ∧ '\\' ∉ name.toList) ∧
    (∀ other, Relation.EqvGen Respells location other → ofLocation other = ofLocation location) ∧
    ofLocation (location ++ "/include/" ++ rest) = ofLocation rest := by
  refine ⟨ofLocation_congr (segments_ofLocation location), backslash_not_mem location,
    ofLocation_names location, fun other h => ofLocation_congr ?_,
    ofLocation_congr (segments_below location rest)⟩
  unfold segments
  rw [components_of_eqvGen h]

/-- One header, as two checkouts of its tree name it. -/
theorem ofLocation_checkouts :
    ofLocation "D:/work/include/geo/./shape.hpp" = ofLocation "D:\\work\\include\\geo\\shape.hpp" ∧
    ofLocation ("/home/build" ++ "/include/" ++ "geo/shape.hpp") = ofLocation "geo/shape.hpp" := by
  have hslashes : Respells "D:\\work\\include\\geo\\shape.hpp" "D:/work/include/geo/shape.hpp" := by
    refine .exchanged ?_
    decide +kernel
  have hslash : Respells "D:/work/include/geo/shape.hpp" "D:/work/include/geo//shape.hpp" :=
    @Respells.repeated _ _ "D:/work/include/geo".toList "shape.hpp".toList '/' '/'
      (by decide) (by decide) (by decide) (by decide)
  have hdot : Respells "D:/work/include/geo//shape.hpp" "D:/work/include/geo/./shape.hpp" :=
    @Respells.dotted _ _ "D:/work/include/geo".toList "shape.hpp".toList '/' '/'
      (by decide) (by decide) (by decide) (by decide)
  obtain ⟨-, -, -, hrespells, -⟩ := ofLocation_canonical "D:\\work\\include\\geo\\shape.hpp" ""
  obtain ⟨-, -, -, -, hbelow⟩ := ofLocation_canonical "/home/build" "geo/shape.hpp"
  refine ⟨hrespells _ (.trans _ _ _ (.rel _ _ hslashes) ?_), hbelow⟩
  exact .trans _ _ _ (.rel _ _ hslash) (.rel _ _ hdot)

end Segments

end ScriptBindings.IncludePath
