import ScriptBindings.Proofs.Files.Writing

namespace ScriptBindings

variable {σ γ α β : Type} {storage : Storage (StateM σ)}

/-- What the states of a storage show of the contents of files. A write puts its whole text or fails
and changes nothing. Directories can be created and looked at without a change. -/
structure Storage.View (storage : Storage (StateM σ)) (γ : Type) where
  contents : σ → γ
  /-- The contents after a text has been put at a path. -/
  put : String → String → γ → γ
  contents_makeDirectories : ∀ path s, contents (storage.makeDirectories path s).2 = contents s
  contents_exists : ∀ path s, contents (storage.exists? path s).2 = contents s
  contents_walk : ∀ path s, contents (storage.walk path s).2 = contents s
  contents_write_ok : ∀ path text s, (storage.write path text s).1 = .ok () →
    contents (storage.write path text s).2 = put path text (contents s)
  contents_write_error : ∀ path text s e, (storage.write path text s).1 = .error e →
    contents (storage.write path text s).2 = contents s

/-- The files of a tree; its directories do not show. -/
def FileTree.view : FileTree.storage.View FileTree where
  contents t := { t with directories := [] }
  put path text t := { t with files := t.files.insert (t.locate path) text }
  contents_makeDirectories path t := by
    obtain ⟨hgrows, hfiles⟩ := makeDirectories_grows path t
    rw [storage_makeDirectories, hgrows.workingDirectory_eq, hfiles]
  contents_exists _ _ := rfl
  contents_walk _ _ := rfl
  contents_write_ok path text t h := by
    have hwrite : t.write path text = (.ok (), (t.write path text).2) := Prod.ext h rfl
    obtain ⟨_, _, _, ht⟩ := write_eq_ok.mp hwrite
    rw [storage_write, ht]
    rfl
  contents_write_error path text t e h := by
    have hwrite : t.write path text = (.error e, (t.write path text).2) := Prod.ext h rfl
    rw [storage_write, eq_of_write_eq_error hwrite]

namespace Storage.View

variable (view : storage.View γ)

/-- Puts texts at their paths, one after the other. -/
def putAll (files : List (String × String)) (c : γ) : γ :=
  files.foldl (fun c f => view.put f.1 f.2 c) c

theorem putAll_append (files more : List (String × String)) (c : γ) :
    view.putAll (files ++ more) c = view.putAll more (view.putAll files c) :=
  List.foldl_append

/-- How a task ends that writes `files` in turn and then gives `a`: it does so, or it fails before
the last of them is written. -/
inductive Advances (files : List (String × String)) (a : α) (s : σ) :
    Except BindError α → σ → Prop
  | done {s' : σ} (h : view.contents s' = view.putAll files (view.contents s)) :
    Advances files a s (.ok a) s'
  | stopped {e : BindError} {s' : σ} {written rest : List (String × String)}
    (hfiles : files = written ++ rest) (hrest : rest ≠ [])
    (h : view.contents s' = view.putAll written (view.contents s)) :
    Advances files a s (.error e) s'

/-- The task writes `files` in turn and then gives `a`, as far as it comes. -/
def Writes (x : Task (StateM σ) α) (files : List (String × String)) (a : α) : Prop :=
  ∀ s outcome s', x.Ends s outcome s' → view.Advances files a s outcome s'

/-- The task changes no contents. -/
def Keeps (x : Task (StateM σ) α) : Prop :=
  ∀ s outcome s', x.Ends s outcome s' → view.contents s' = view.contents s

variable {view} {x : Task (StateM σ) α} {f : α → Task (StateM σ) β} {a : α} {b : β}
  {files more : List (String × String)} {s s' : σ}

theorem Advances.append {s₁ : σ} {outcome : Except BindError β}
    (h : view.contents s₁ = view.putAll files (view.contents s))
    (h' : view.Advances more b s₁ outcome s') : view.Advances (files ++ more) b s outcome s' := by
  cases h' with
  | done hmore =>
    rw [h, ← putAll_append] at hmore
    exact .done hmore
  | @stopped _ _ written rest hfiles hrest hmore =>
    rw [h, ← putAll_append] at hmore
    subst hfiles
    exact .stopped (List.append_assoc files written rest).symm hrest hmore

theorem Advances.bind {outcome : Except BindError β}
    (hx : ∀ outcome s₁, x.Ends s outcome s₁ → view.Advances files a s outcome s₁)
    (hf : view.Writes (f a) more b) (h : (x >>= f).Ends s outcome s') :
    view.Advances (files ++ more) b s outcome s' := by
  obtain ⟨_, s₁, hends, hrest⟩ | ⟨e, hends, rfl⟩ := h.bind_cases
  · cases hx _ _ hends with
    | done hcontents => exact .append hcontents (hf _ _ _ hrest)
  · cases hx _ _ hends with
    | @stopped _ _ written rest hfiles hrest hcontents =>
      subst hfiles
      refine .stopped (List.append_assoc written rest more) ?_ hcontents
      exact fun hnil => hrest (List.append_eq_nil_iff.mp hnil).1

theorem Advances.of_eq {s₁ : σ} {outcome : Except BindError α}
    (h : view.contents s₁ = view.contents s) (h' : view.Advances files a s₁ outcome s') :
    view.Advances files a s outcome s' := by
  rw [← List.nil_append files]
  exact .append h h'

theorem Advances.unwritten {e : BindError} (hfiles : files ≠ [])
    (h : view.contents s' = view.contents s) : view.Advances files a s (.error e) s' :=
  .stopped (List.nil_append files).symm hfiles h

theorem Advances.bind_nil {outcome : Except BindError β}
    (hx : ∀ outcome s₁, x.Ends s outcome s₁ → view.Advances files a s outcome s₁)
    (hf : view.Writes (f a) [] b) (h : (x >>= f).Ends s outcome s') :
    view.Advances files b s outcome s' := by
  rw [← List.append_nil files]
  exact .bind hx hf h

/-- In other words: some of the files are written, from the first one on, and all of them exactly
when the task succeeds. -/
theorem Advances.exists_written {outcome : Except BindError α}
    (h : view.Advances files a s outcome s') :
    ∃ written, written <+: files ∧ view.contents s' = view.putAll written (view.contents s) ∧
      ((∃ b, outcome = .ok b) ↔ written = files) ∧ ∀ b, outcome = .ok b → b = a := by
  cases h with
  | done hcontents =>
    exact ⟨files, List.prefix_rfl, hcontents, ⟨fun _ => rfl, fun _ => ⟨a, rfl⟩⟩,
      fun b hb => (Except.ok.inj hb).symm⟩
  | @stopped e _ written rest hfiles hrest hcontents =>
    subst hfiles
    refine ⟨written, List.prefix_append written rest, hcontents, ⟨?_, fun hall => ?_⟩, ?_⟩
    · rintro ⟨b, hb⟩
      cases hb
    · exact absurd (List.self_eq_append_right.mp hall) hrest
    · intro b hb
      cases hb

theorem Writes.bind (hx : view.Writes x files a) (hf : view.Writes (f a) more b) :
    view.Writes (x >>= f) (files ++ more) b :=
  fun s _ _ h => .bind (hx s) hf h

theorem Writes.bind_nil (hx : view.Writes x files a) (hf : view.Writes (f a) [] b) :
    view.Writes (x >>= f) files b :=
  fun s _ _ h => .bind_nil (hx s) hf h

theorem Writes.after (hx : view.Keeps x) (hfiles : files ≠ [])
    (hf : ∀ a, view.Writes (f a) files b) : view.Writes (x >>= f) files b := by
  intro s outcome s' h
  obtain ⟨a, s₁, hends, hrest⟩ | ⟨e, hends, rfl⟩ := h.bind_cases
  · exact .of_eq (hx _ _ _ hends) (hf a _ _ _ hrest)
  · exact .unwritten hfiles (hx _ _ _ hends)

theorem writes_ofRun {r : Run α} (h : r.outcome = .ok a) : view.Writes (Task.ofRun r) [] a := by
  intro s outcome s' hends
  obtain ⟨rfl, rfl⟩ := Task.ends_ofRun.mp hends
  rw [h]
  exact .done rfl

theorem writes_pure (a : α) : view.Writes (pure a) [] a :=
  writes_ofRun (r := .ok a) rfl

theorem Writes.bind_pure (hx : view.Writes x files a) (g : α → β) :
    view.Writes (x >>= fun a => pure (g a)) files (g a) :=
  hx.bind_nil (writes_pure (g a))

theorem keeps_ofRun (r : Run α) : view.Keeps (Task.ofRun r) := by
  intro s outcome s' h
  obtain ⟨_, rfl⟩ := Task.ends_ofRun.mp h
  rfl

theorem Keeps.bind (hx : view.Keeps x) (hf : ∀ a, view.Keeps (f a)) : view.Keeps (x >>= f) := by
  intro s outcome s' h
  obtain ⟨a, s₁, hends, hrest⟩ | ⟨e, hends, _⟩ := h.bind_cases
  · exact (hf a _ _ _ hrest).trans (hx _ _ _ hends)
  · exact hx _ _ _ hends

theorem keeps_act {y : StateM σ α} (h : ∀ s, view.contents (y s).2 = view.contents s) :
    view.Keeps (Task.act y) := by
  intro s outcome s' hends
  obtain ⟨_, rfl⟩ := Task.ends_act.mp hends
  exact h s

theorem keeps_attempt {y : StateM σ (Except String α)} (path : String)
    (h : ∀ s, view.contents (y s).2 = view.contents s) : view.Keeps (Storage.attempt path y) := by
  rintro s outcome s' ⟨_, rfl⟩
  exact h s

/-- A file is written whole or not at all. -/
theorem writes_save (view : storage.View γ) (path text : String) :
    view.Writes (storage.save path text) [(path, text)] () := by
  refine .after (keeps_attempt _ (view.contents_makeDirectories _)) (List.cons_ne_nil _ _) ?_
  rintro _ s outcome s' ⟨houtcome, rfl⟩
  change Except.mapError _ (storage.write path text s).1 = outcome at houtcome
  change view.Advances _ () s outcome (storage.write path text s).2
  cases hwrite : (storage.write path text s).1 with
  | ok _ =>
    rw [hwrite] at houtcome
    subst houtcome
    exact .done (view.contents_write_ok path text s hwrite)
  | error e =>
    rw [hwrite] at houtcome
    subst houtcome
    exact .unwritten (List.cons_ne_nil _ _)
      (view.contents_write_error path text s e hwrite)

end Storage.View

end ScriptBindings
