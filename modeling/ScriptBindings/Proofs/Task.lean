import ScriptBindings.Run

namespace ScriptBindings.Task

variable {σ α β : Type}

/-- From the state `s` the task ends with an outcome, in the state `s'`. -/
def Ends (x : Task (StateM σ) α) (s : σ) (outcome : Except BindError α) (s' : σ) : Prop :=
  (x s).1.outcome = outcome ∧ (x s).2 = s'

theorem ends_pure {a : α} {s s' : σ} {outcome : Except BindError α} :
    Ends (pure a : Task (StateM σ) α) s outcome s' ↔ .ok a = outcome ∧ s = s' :=
  Iff.rfl

theorem ends_ofRun {x : Run α} {s s' : σ} {outcome : Except BindError α} :
    Ends (ofRun x : Task (StateM σ) α) s outcome s' ↔ x.outcome = outcome ∧ s = s' :=
  Iff.rfl

theorem ends_act {x : StateM σ α} {s s' : σ} {outcome : Except BindError α} :
    Ends (act x) s outcome s' ↔ .ok (x s).1 = outcome ∧ (x s).2 = s' :=
  Iff.rfl

variable {x : Task (StateM σ) α} {f : α → Task (StateM σ) β} {s s' : σ}

theorem ends_bind_of_ok {a : α} {s₁ : σ} {outcome : Except BindError β}
    (h : Ends x s (.ok a) s₁) : Ends (x >>= f) s outcome s' ↔ Ends (f a) s₁ outcome s' := by
  obtain ⟨ha, rfl⟩ := h
  simp only [Ends, Bind.bind, Task.bind, StateT.bind]
  generalize x s = p at ha ⊢
  obtain ⟨⟨events, _⟩, s₁⟩ := p
  cases ha
  exact Iff.rfl

theorem ends_bind_of_error {e : BindError} {s₁ : σ} {outcome : Except BindError β}
    (h : Ends x s (.error e) s₁) :
    Ends (x >>= f) s outcome s' ↔ .error e = outcome ∧ s₁ = s' := by
  obtain ⟨he, rfl⟩ := h
  simp only [Ends, Bind.bind, Task.bind, StateT.bind]
  generalize x s = p at he ⊢
  obtain ⟨⟨events, _⟩, s₁⟩ := p
  cases he
  exact Iff.rfl

theorem ends_ofRun_bind_of_ok {r : Run α} {a : α} {outcome : Except BindError β}
    (h : r.outcome = .ok a) : Ends (ofRun r >>= f) s outcome s' ↔ Ends (f a) s outcome s' :=
  ends_bind_of_ok ⟨h, rfl⟩

theorem ends_ofRun_bind_of_error {r : Run α} {e : BindError} {outcome : Except BindError β}
    (h : r.outcome = .error e) :
    Ends (ofRun r >>= f) s outcome s' ↔ .error e = outcome ∧ s = s' :=
  ends_bind_of_error ⟨h, rfl⟩

theorem Ends.bind_error {e : BindError} (h : Ends x s (.error e) s') :
    Ends (x >>= f) s (.error e) s' :=
  (ends_bind_of_error h).mpr ⟨rfl, rfl⟩

/-- A composed task goes on from where its first part succeeds, or ends where that part fails. -/
theorem Ends.bind_cases {outcome : Except BindError β} (h : Ends (x >>= f) s outcome s') :
    (∃ a s₁, Ends x s (.ok a) s₁ ∧ Ends (f a) s₁ outcome s') ∨
      ∃ e, Ends x s (.error e) s' ∧ outcome = .error e := by
  cases hx : (x s).1.outcome with
  | ok a =>
    have ha : Ends x s (.ok a) (x s).2 := ⟨hx, rfl⟩
    exact .inl ⟨a, _, ha, (ends_bind_of_ok ha).mp h⟩
  | error e =>
    have he : Ends x s (.error e) (x s).2 := ⟨hx, rfl⟩
    obtain ⟨rfl, rfl⟩ := (ends_bind_of_error he).mp h
    exact .inr ⟨e, he, rfl⟩

theorem ends_bind_ok {b : β} :
    Ends (x >>= f) s (.ok b) s' ↔ ∃ a s₁, Ends x s (.ok a) s₁ ∧ Ends (f a) s₁ (.ok b) s' := by
  constructor
  · intro h
    obtain hok | ⟨e, _, herror⟩ := h.bind_cases
    · exact hok
    · cases herror
  · rintro ⟨a, s₁, ha, h⟩
    exact (ends_bind_of_ok ha).mpr h

end ScriptBindings.Task
