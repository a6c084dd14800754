import ScriptBindings.Error
import ScriptBindings.Event

namespace ScriptBindings

structure Run (α : Type) where
  events : List Event
  outcome : Except BindError α

namespace Run

variable {α β : Type}

def ok (a : α) : Run α := ⟨[], .ok a⟩

def fail (e : BindError) : Run α := ⟨[], .error e⟩

def report (e : Event) : Run Unit := ⟨[e], .ok ()⟩

def ofExcept (x : Except BindError α) : Run α := ⟨[], x⟩

def bind (x : Run α) (f : α → Run β) : Run β :=
  match x.outcome with
  | .ok a => ⟨x.events ++ (f a).events, (f a).outcome⟩
  | .error e => ⟨x.events, .error e⟩

instance : Monad Run where
  pure := ok
  bind := bind

/-- Runs `f` on every member in turn and collects the results. -/
def collect (f : α → Run β) : List α → Run (List β)
  | [] => ok []
  | a :: as => do
    let b ← f a
    let bs ← collect f as
    ok (b :: bs)

end Run

/-- A run that also acts on a world through `m`. -/
def Task (m : Type → Type) (α : Type) : Type := m (Run α)

namespace Task

variable {m : Type → Type} {α β : Type} [Monad m]

def ofRun (x : Run α) : Task m α := (pure x : m (Run α))

def act (x : m α) : Task m α := (x >>= fun a => pure (Run.ok a) : m (Run α))

def bind (x : Task m α) (f : α → Task m β) : Task m β :=
  ((x : m (Run α)) >>= fun r =>
    match r.outcome with
    | .ok a => (f a : m (Run β)) >>= fun s => pure ⟨r.events ++ s.events, s.outcome⟩
    | .error e => pure ⟨r.events, .error e⟩ : m (Run β))

instance : Monad (Task m) where
  pure a := ofRun (.ok a)
  bind := bind

end Task

end ScriptBindings
