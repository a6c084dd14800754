import Mathlib.Data.List.Forall2
import ScriptBindings.Run

namespace ScriptBindings.Run

variable {α β : Type}

@[simp] theorem outcome_ok (a : α) : (ok a).outcome = .ok a := rfl

@[simp] theorem outcome_fail (e : BindError) : (fail e : Run α).outcome = .error e := rfl

@[simp] theorem outcome_report (e : Event) : (report e).outcome = .ok () := rfl

@[simp] theorem outcome_ofExcept (x : Except BindError α) : (ofExcept x).outcome = x := rfl

theorem outcome_bind (x : Run α) (f : α → Run β) :
    (x >>= f).outcome = x.outcome.bind fun a => (f a).outcome := by
  change (x.bind f).outcome = _
  unfold Run.bind
  cases x.outcome with
  | ok a => rfl
  | error e => rfl

theorem events_bind {x : Run α} {f : α → Run β} {a : α} (h : x.outcome = .ok a) :
    (x >>= f).events = x.events ++ (f a).events := by
  change (x.bind f).events = _
  rw [Run.bind, h]

@[simp] theorem outcome_report_bind (e : Event) (f : Unit → Run β) :
    (report e >>= f).outcome = (f ()).outcome :=
  outcome_bind _ _

theorem outcome_bind_eq_ok {x : Run α} {f : α → Run β} {b : β} :
    (x >>= f).outcome = .ok b ↔ ∃ a, x.outcome = .ok a ∧ (f a).outcome = .ok b := by
  rw [outcome_bind]
  cases x.outcome with
  | ok a => simp [Except.bind]
  | error e => simp [Except.bind]

theorem outcome_collect_eq_ok {f : α → Run β} {as : List α} {bs : List β} :
    (collect f as).outcome = .ok bs ↔ List.Forall₂ (fun a b => (f a).outcome = .ok b) as bs := by
  induction as generalizing bs with
  | nil =>
    rw [List.forall₂_nil_left_iff]
    exact ⟨fun h => (Except.ok.inj h).symm, fun h => h ▸ rfl⟩
  | cons a as ih =>
    simp only [collect, outcome_bind_eq_ok, outcome_ok, List.forall₂_cons_left_iff, ih]
    constructor
    · rintro ⟨b, hb, cs, hcs, h⟩
      exact ⟨b, cs, hb, hcs, (Except.ok.inj h).symm⟩
    · rintro ⟨b, cs, hb, hcs, rfl⟩
      exact ⟨b, hb, cs, hcs, rfl⟩

theorem exists_of_mem_collect {f : α → Run β} {as : List α} {bs : List β}
    (h : (collect f as).outcome = .ok bs) {b : β} (hb : b ∈ bs) :
    ∃ a ∈ as, (f a).outcome = .ok b := by
  have hall := outcome_collect_eq_ok.mp h
  clear h
  induction hall with
  | nil => cases hb
  | @cons a c as bs hac _ ih =>
    rcases List.mem_cons.mp hb with rfl | hb
    · exact ⟨a, List.mem_cons_self, hac⟩
    · obtain ⟨d, hd, hdb⟩ := ih hb
      exact ⟨d, List.mem_cons_of_mem a hd, hdb⟩

theorem exists_result_of_mem {f : α → Run β} {as : List α} {bs : List β}
    (h : (collect f as).outcome = .ok bs) {a : α} (ha : a ∈ as) :
    ∃ b ∈ bs, (f a).outcome = .ok b := by
  have hall := outcome_collect_eq_ok.mp h
  clear h
  induction hall with
  | nil => cases ha
  | @cons c b as bs hcb _ ih =>
    rcases List.mem_cons.mp ha with rfl | ha
    · exact ⟨b, List.mem_cons_self, hcb⟩
    · obtain ⟨d, hd, had⟩ := ih ha
      exact ⟨d, List.mem_cons_of_mem b hd, had⟩

theorem exists_outcome_collect_iff {f : α → Run β} {as : List α} :
    (∃ bs, (collect f as).outcome = .ok bs) ↔ ∀ a ∈ as, ∃ b, (f a).outcome = .ok b := by
  induction as with
  | nil => exact ⟨fun _ a ha => absurd ha List.not_mem_nil, fun _ => ⟨[], rfl⟩⟩
  | cons a as ih =>
    rw [List.forall_mem_cons, ← ih]
    simp only [collect, outcome_bind_eq_ok, outcome_ok]
    constructor
    · rintro ⟨_, b, hb, bs, hbs, _⟩
      exact ⟨⟨b, hb⟩, bs, hbs⟩
    · rintro ⟨⟨b, hb⟩, bs, hbs⟩
      exact ⟨b :: bs, b, hb, bs, hbs, rfl⟩

theorem outcome_bind_eq_error {x : Run α} {f : α → Run β} {e : BindError} :
    (x >>= f).outcome = .error e ↔
      x.outcome = .error e ∨ ∃ a, x.outcome = .ok a ∧ (f a).outcome = .error e := by
  rw [outcome_bind]
  cases x.outcome with
  | ok a => simp [Except.bind]
  | error d => simp [Except.bind]

theorem exists_of_collect_eq_error {f : α → Run β} {as : List α} {e : BindError}
    (h : (collect f as).outcome = .error e) : ∃ a ∈ as, (f a).outcome = .error e := by
  induction as with
  | nil => cases h
  | cons a as ih =>
    rcases outcome_bind_eq_error.mp h with ha | ⟨b, _, h⟩
    · exact ⟨a, List.mem_cons_self, ha⟩
    · rcases outcome_bind_eq_error.mp h with has | ⟨bs, _, h⟩
      · obtain ⟨c, hc, hce⟩ := ih has
        exact ⟨c, List.mem_cons_of_mem a hc, hce⟩
      · cases h

theorem outcome_bind_ok (x : Run α) (f : α → β) :
    (x >>= fun a => ok (f a)).outcome = x.outcome.map f := by
  rw [outcome_bind]
  cases x.outcome with
  | ok a => rfl
  | error e => rfl

theorem exists_outcome_bind_ok_iff {x : Run α} {f : α → β} :
    (∃ b, (x >>= fun a => ok (f a)).outcome = .ok b) ↔ ∃ a, x.outcome = .ok a := by
  rw [outcome_bind_ok]
  cases x.outcome with
  | ok a => simp [Except.map]
  | error e => simp [Except.map]

theorem exists_eq_error_iff {x : Run α} :
    (∃ e, x.outcome = .error e) ↔ ¬ ∃ a, x.outcome = .ok a := by
  cases x.outcome with
  | ok a => simp
  | error e => simp

theorem collect_congr {f g : α → Run β} {as : List α} (h : ∀ a ∈ as, f a = g a) :
    collect f as = collect g as := by
  induction as with
  | nil => rfl
  | cons a as ih =>
    rw [List.forall_mem_cons] at h
    rw [collect, collect, h.1, ih h.2]

theorem ofExcept_bind_congr {x : Except BindError α} {f g : α → Run β}
    (h : ∀ a, x = .ok a → f a = g a) : (ofExcept x >>= f) = (ofExcept x >>= g) := by
  cases x with
  | error e => rfl
  | ok a =>
    change Run.mk ([] ++ (f a).events) (f a).outcome = ⟨[] ++ (g a).events, (g a).outcome⟩
    rw [h a rfl]

section Neutral

variable {γ : Type} {f : α → Run β} {join : β → γ → γ} {z : γ}

theorem outcome_collect_cons_foldr (a : α) (as : List α) :
    (collect f (a :: as)).outcome.map (List.foldr join z) =
      (f a).outcome.bind fun b =>
        ((collect f as).outcome.map (List.foldr join z)).map (join b) := by
  rw [collect, outcome_bind]
  cases (f a).outcome with
  | error e => rfl
  | ok b =>
    change (collect f as >>= fun bs => ok (b :: bs)).outcome.map _ = _
    rw [outcome_bind_ok]
    cases (collect f as).outcome with
    | error e => rfl
    | ok bs => rfl

/-- Members with a neutral result can be left out, and the others replaced by members with the
same result, before the results are joined. -/
theorem outcome_collect_filter_map {p : α → Bool} {g : α → α} {neutral : β}
    (hneutral : ∀ c, join neutral c = c)
    (hskip : ∀ a, p a = false → (f a).outcome = .ok neutral)
    (hkeep : ∀ a, p a = true → (f (g a)).outcome = (f a).outcome) (as : List α) :
    (collect f ((as.filter p).map g)).outcome.map (List.foldr join z) =
      (collect f as).outcome.map (List.foldr join z) := by
  induction as with
  | nil => rfl
  | cons a as ih =>
    rw [outcome_collect_cons_foldr]
    cases ha : p a with
    | true =>
      rw [List.filter_cons_of_pos ha, List.map_cons, outcome_collect_cons_foldr, hkeep a ha, ih]
    | false =>
      have hid : join neutral = id := funext hneutral
      rw [List.filter_cons_of_neg (by simp [ha]), hskip a ha, ih]
      change _ = Except.map (join neutral) _
      rw [hid, Except.map_id, id]

end Neutral

end ScriptBindings.Run
