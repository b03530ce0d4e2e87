import GridInversion.Proofs.RunComparison

namespace GridInversion

variable {α β γ σ : Type}

namespace Sweep

variable {cell : Position → Option α}

def map (f : β → γ) : Sweep α β → Sweep α γ
  | finished result => .finished (f result)
  | outOfBounds => .outOfBounds
  | evaluate p resume => .evaluate p fun v => (resume v).map f
  | announce shape rest => .announce shape (rest.map f)

theorem follow_map (f : β → γ) (sweep : Sweep α β) (visits : Array Position)
    (announced : Array Shape) :
    (sweep.map f).follow cell visits announced =
      ⟨(sweep.follow cell visits announced).visits,
        (sweep.follow cell visits announced).announced,
        (sweep.follow cell visits announced).result?.map f⟩ := by
  induction sweep generalizing visits announced with
  | finished result => rfl
  | outOfBounds => rfl
  | evaluate p resume ih =>
      simp only [map, follow]
      rcases cell p with _ | v
      · rfl
      · exact ih v _ _
  | announce shape rest ih => exact ih _ _

end Sweep

def recordVerdict (errors : List GridError) : Except GridError Unit → List GridError
  | .ok () => errors
  | .error e => e :: errors

namespace Engine

/-- The engine together with notes, to which the verdict of each of its dispatches is
added. -/
def noting {ω : Type} (engine : Engine α) (blank : ω) (note : ω → Except GridError Unit → ω) :
    Engine α where
  State := engine.State × ω
  start := (engine.start, blank)
  name := engine.name
  workers := engine.workers
  banner := engine.banner
  dispatch := fun s grid buffer =>
    (engine.dispatch s.1 grid buffer).map fun reply =>
      ⟨(reply.state, note s.2 reply.verdict), reply.buffer, reply.verdict⟩

theorem fillBuffer_noting {ω : Type} (engine : Engine α) (blank : ω)
    (note : ω → Except GridError Unit → ω) (grid : Shape) (buffer : Array α)
    (cell : Position → Option α) (s : engine.State) (notes : ω) :
    (engine.noting blank note).fillBuffer grid buffer cell (s, notes) =
      match engine.fillBuffer grid buffer cell s with
      | ⟨trace, s', .ok w⟩ => ⟨trace, (s', note notes w.verdict), .ok w⟩
      | ⟨trace, s', .error fault⟩ => ⟨trace, (s', notes), .error fault⟩ := by
  rcases hfollow : (engine.dispatch s grid buffer.toVector).follow cell #[] #[] with
    ⟨visits, announced, _ | reply⟩
  · simp [fillBuffer, noting, Sweep.follow_map, hfollow]
  · simp [fillBuffer, noting, Sweep.follow_map, hfollow]

/-- The engine together with a list of the errors that its dispatches returned. -/
def recording (engine : Engine α) : Engine α := engine.noting [] recordVerdict

theorem fillBuffer_recording (engine : Engine α) (grid : Shape) (buffer : Array α)
    (cell : Position → Option α) (s : engine.State) (errors : List GridError) :
    engine.recording.fillBuffer grid buffer cell (s, errors) =
      match engine.fillBuffer grid buffer cell s with
      | ⟨trace, s', .ok w⟩ => ⟨trace, (s', recordVerdict errors w.verdict), .ok w⟩
      | ⟨trace, s', .error fault⟩ => ⟨trace, (s', errors), .error fault⟩ :=
  engine.fillBuffer_noting [] recordVerdict grid buffer cell s errors

end Engine

namespace Run

variable {returns returns' : β → Prop} {own own' : GridError → Prop}

/-- The run is begun with no error recorded.  It ends in a value with the property
`returns` and still no error recorded, or in an error with the property `own` and no
error recorded, or in the one error that was recorded. -/
def Accounts (run : Run (σ × List GridError) α β) (returns : β → Prop)
    (own : GridError → Prop) : Prop :=
  ∀ s, match (run (s, [])).result with
    | .ok b => (run (s, [])).state.2 = [] ∧ returns b
    | .error (.error e) =>
        (run (s, [])).state.2 = [] ∧ own e ∨ (run (s, [])).state.2 = [e]
    | .error .outOfBounds => False

theorem Accounts.mono {run : Run (σ × List GridError) α β} (h : run.Accounts returns own)
    (hreturns : ∀ b, returns b → returns' b) (hown : ∀ e, own e → own' e) :
    run.Accounts returns' own' := by
  intro s
  have hrun := h s
  rcases hs : (run (s, [])).result with (e | _) | b
  · rw [hs] at hrun
    exact hrun.imp_left fun he => ⟨he.1, hown e he.2⟩
  · rw [hs] at hrun
    exact hrun
  · rw [hs] at hrun
    exact ⟨hrun.1, hreturns b hrun.2⟩

theorem Accounts.mono_own {run : Run (σ × List GridError) α β} (h : run.Accounts returns own)
    (hown : ∀ e, own e → own' e) : run.Accounts returns own' :=
  h.mono (fun _ hb => hb) hown

theorem Accounts.returning {run : Run (σ × List GridError) α β} (h : run.Accounts returns own)
    (hends : run.Ends returns' fun _ => True) : run.Accounts returns' own := by
  intro s
  have hrun := h s
  rcases hs : (run (s, [])).result with (e | _) | b
  · rw [hs] at hrun
    exact hrun
  · rw [hs] at hrun
    exact hrun
  · rw [hs] at hrun
    exact ⟨hrun.1, hends.of_result_ok hs⟩

theorem Ends.accounts {run : Run (σ × List GridError) α β}
    (h : run.Ends returns fun fault => ∃ e, fault = .error e ∧ own e)
    (hstate : ∀ s, (run s).state = s) : run.Accounts returns own := by
  intro s
  have hrun := h (s, [])
  rcases hs : (run (s, [])).result with fault | b
  · rw [hs] at hrun
    obtain ⟨e, rfl, he⟩ := hrun
    exact .inl ⟨by rw [hstate], he⟩
  · rw [hs] at hrun
    exact ⟨by rw [hstate], hrun⟩

theorem accounts_accept {run : Run (σ × List GridError) α (Written β)}
    (h : ∀ s, ∃ trace s' w,
      run (s, []) = ⟨trace, (s', recordVerdict [] w.verdict), .ok w⟩) (f : β → γ) :
    (run >>= fun w => Written.accept ⟨f w.out, w.verdict⟩).Accounts (fun _ => True) own := by
  intro s
  obtain ⟨trace, s', ⟨out, verdict⟩, hrun⟩ := h s
  rw [bind_apply_ok hrun]
  rcases verdict with e | _
  · exact .inr rfl
  · exact ⟨rfl, trivial⟩

/-- The second run is begun only when no error is recorded, so the whole records one
error at most. -/
theorem Accounts.bind {run : Run (σ × List GridError) α β}
    {next : β → Run (σ × List GridError) α γ} {ends : γ → Prop}
    (h : run.Accounts returns own) (hnext : ∀ b, returns b → (next b).Accounts ends own) :
    (run >>= next).Accounts ends own := by
  intro s
  have hrun := h s
  rcases hs : run (s, []) with ⟨trace, ⟨s', errors⟩, (e | _) | b⟩
  · rw [hs] at hrun
    rw [bind_apply_error hs]
    exact hrun
  · rw [hs] at hrun
    exact hrun.elim
  · rw [hs] at hrun
    obtain ⟨hnone, hb⟩ := hrun
    simp only at hnone
    subst hnone
    rw [bind_apply_ok hs]
    exact hnext b hb s'

end Run

namespace Outcome

/-- The run ended in an error that no dispatch had returned. -/
def Raises (o : Outcome (σ × List GridError) α β) (e : GridError) : Prop :=
  o.result = .error (.error e) ∧ e ∉ o.state.2

def forget (o : Outcome (σ × List GridError) α β) : Outcome σ α β :=
  ⟨o.trace, o.state.1, o.result⟩

end Outcome

namespace Run

variable {run : Run (σ × List GridError) α β} {returns : β → Prop} {own : GridError → Prop}

theorem Accounts.own_of_raises (h : run.Accounts returns own) {s : σ} {e : GridError}
    (hraises : (run (s, [])).Raises e) : own e := by
  obtain ⟨hresult, hmem⟩ := hraises
  have hrun := h s
  rw [hresult] at hrun
  rcases hrun with ⟨-, hown⟩ | herrors
  · exact hown
  · rw [herrors] at hmem
    exact absurd List.mem_cons_self hmem

theorem Accounts.result_ne_outOfBounds (h : run.Accounts returns own) (s : σ) :
    (run (s, [])).result ≠ .error .outOfBounds := by
  intro hresult
  have hrun := h s
  rwa [hresult] at hrun

theorem raises_fail {e : GridError} (s : σ) :
    (fail e (s, []) : Outcome (σ × List GridError) α β).Raises e :=
  ⟨rfl, List.not_mem_nil⟩

end Run

namespace Comparison

/-- The comparison under which the second run is the first one with more in its state. -/
def projected (τ α : Type) (f : τ → σ) : Comparison σ τ α where
  traces := Eq
  states := fun s t => f t = s
  traces_nil := rfl
  traces_append := by
    rintro t t' u u' rfl rfl
    rfl
  traces_reported := fun _ => rfl

theorem Alike.apply_eq {τ : Type} {f : τ → σ} {run : Run σ α β} {run' : Run τ α β}
    (h : (projected τ α f).Alike run run') (t : τ) :
    run (f t) = ⟨(run' t).trace, f (run' t).state, (run' t).result⟩ := by
  obtain ⟨htrace, hstate, hresult⟩ := h (f t) t rfl
  rw [← htrace, hstate, ← hresult]

end Comparison

namespace Engine

variable (engine : Engine α)

theorem alike_fillBuffer_noting {ω : Type} (blank : ω) (note : ω → Except GridError Unit → ω)
    (grid : Shape) (buffer : Array α) (cell : Position → Option α) :
    (Comparison.projected (engine.noting blank note).State α Prod.fst).Alike
      (engine.fillBuffer grid buffer cell)
      ((engine.noting blank note).fillBuffer grid buffer cell) := by
  rintro s ⟨s', notes⟩ rfl
  rw [fillBuffer_noting]
  rcases engine.fillBuffer grid buffer cell s' with ⟨trace, s'', fault | w⟩
  · exact ⟨rfl, rfl, rfl⟩
  · exact ⟨rfl, rfl, rfl⟩

end Engine

namespace Inverter

def recording (v : Inverter α) : Inverter α := ⟨v.engine.recording, v.epsilon⟩

def noting {ω : Type} (v : Inverter α) (blank : ω) (note : ω → Except GridError Unit → ω) :
    Inverter α :=
  ⟨v.engine.noting blank note, v.epsilon⟩

variable [Scalar α] (v : Inverter α) {ω : Type} (blank : ω)
  (note : ω → Except GridError Unit → ω)

theorem alike_run_noting (pass : Pass α) :
    (Comparison.projected (v.noting blank note).engine.State α Prod.fst).Alike
      (pass.run v.engine) (pass.run (v.noting blank note).engine) :=
  Comparison.alike_run (v.engine.alike_fillBuffer_noting blank note) pass

theorem invert_eq_noting (m : Matrix α) (s : v.engine.State) (notes : ω) :
    v.invert m s =
      ⟨((v.noting blank note).invert m (s, notes)).trace,
        ((v.noting blank note).invert m (s, notes)).state.1,
        ((v.noting blank note).invert m (s, notes)).result⟩ :=
  have halike := alike_invert (v := v) (w := v.noting blank note) rfl
    (v.alike_run_noting blank note) m
  halike.apply_eq (s, notes)

theorem eliminate_eq_noting (aug : Matrix α) (n : Nat) (s : v.engine.State) (notes : ω) :
    v.eliminate aug n s =
      ⟨((v.noting blank note).eliminate aug n (s, notes)).trace,
        ((v.noting blank note).eliminate aug n (s, notes)).state.1,
        ((v.noting blank note).eliminate aug n (s, notes)).result⟩ :=
  have halike := alike_eliminate (v := v) (w := v.noting blank note) rfl
    (v.alike_run_noting blank note) aug n
  halike.apply_eq (s, notes)

theorem invert_eq_recording (m : Matrix α) (s : v.engine.State) :
    v.invert m s = (v.recording.invert m (s, [])).forget :=
  v.invert_eq_noting [] recordVerdict m s []

theorem eliminate_eq_recording (aug : Matrix α) (n : Nat) (s : v.engine.State) :
    v.eliminate aug n s = (v.recording.eliminate aug n (s, [])).forget :=
  v.eliminate_eq_noting [] recordVerdict aug n s []

end Inverter

end GridInversion
