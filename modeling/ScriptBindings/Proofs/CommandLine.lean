import ScriptBindings.CommandLine
import ScriptBindings.Proofs.Task

namespace ScriptBindings

namespace CommandLine

variable {σ : Type} {storage : Storage (StateM σ)} {environment config : Option String}
  {database : String} {db : Database}

theorem run_bind_ok {α β : Type} {x : Steps (StateM σ) α} {f : α → Steps (StateM σ) β} {a : α}
    {events events' : List Event} {s s' : σ} (h : x.run.run events s = ((.ok a, events'), s')) :
    (x >>= f).run.run events s = (f a).run.run events' s' := by
  simp only [ExceptT.run_bind, StateT.run_bind]
  change StateT.bind (x.run.run events) _ s = _
  unfold StateT.bind
  rw [h]
  rfl

theorem run_during_ok {α : Type} {context : String} {x : Task (StateM σ) α} {a : α}
    {events : List Event} {s s' : σ} (h : x.Ends s (.ok a) s') :
    (during context x).run.run events s = ((.ok a, events ++ (x s).1.events), s') := by
  obtain ⟨ha, rfl⟩ := h
  change ((Except.mapError _ (x s).1.outcome, _), _) = _
  rw [ha]
  rfl

/-- From the state `s` the check command finds its configuration and reads the database `db`. -/
def Reads (storage : Storage (StateM σ)) (environment : Option String) (database : String)
    (config : Option String) (s : σ) (db : Database) : Prop :=
  ∃ c events s₁ events' s₂,
    (resolve storage environment config none).run.run [] s = ((.ok c, events), s₁) ∧
    (loadDatabase storage database).run.run events s₁ = ((.ok db, events'), s₂)

theorem check_prints {s : σ} {units : List BindingUnit}
    (hreads : Reads storage environment database config s db)
    (hplan : (db.plan .sol3).outcome = .ok units) :
    ((check storage environment database config).run.run [] s).1.1 = .ok (overview units) := by
  obtain ⟨c, events, s₁, events', s₂, hresolve, hload⟩ := hreads
  have hunits : (Task.ofRun (db.plan .sol3) : Task (StateM σ) _).Ends s₂ (.ok units) s₂ :=
    ⟨hplan, rfl⟩
  rw [check, run_bind_ok hresolve, run_bind_ok hload, run_bind_ok (run_during_ok hunits)]
  rfl

end CommandLine

end ScriptBindings
