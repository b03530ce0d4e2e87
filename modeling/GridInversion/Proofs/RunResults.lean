import GridInversion.Run

namespace GridInversion.Run

variable {σ α β γ : Type} {returns returns' : β → Prop} {faults faults' : Fault → Prop}

/-- From every state of the engine, the run ends in a value with the property
`returns` or in a fault with the property `faults`.  Traces and final states are
left open. -/
def Ends (run : Run σ α β) (returns : β → Prop) (faults : Fault → Prop) : Prop :=
  ∀ s, match (run s).result with
    | .ok b => returns b
    | .error fault => faults fault

@[simp] theorem ofExcept_ok (b : β) : (ofExcept (.ok b) : Run σ α β) = pure b := rfl

theorem ends_pure {b : β} (h : returns b) : (pure b : Run σ α β).Ends returns faults := by
  intro s
  exact h

theorem ends_fail {e : GridError} (h : faults (.error e)) :
    (fail e : Run σ α β).Ends returns faults := by
  intro s
  exact h

theorem ends_trivial (run : Run σ α β) : run.Ends (fun _ => True) fun _ => True := by
  intro s
  split <;> trivial

theorem Ends.mono {run : Run σ α β} (h : run.Ends returns faults)
    (hreturns : ∀ b, returns b → returns' b) (hfaults : ∀ fault, faults fault → faults' fault) :
    run.Ends returns' faults' := by
  intro s
  have hrun := h s
  rcases hs : (run s).result with fault | b
  · rw [hs] at hrun
    exact hfaults fault hrun
  · rw [hs] at hrun
    exact hreturns b hrun

theorem Ends.mono_faults {run : Run σ α β} (h : run.Ends returns faults)
    (hfaults : ∀ fault, faults fault → faults' fault) : run.Ends returns faults' :=
  h.mono (fun _ hb => hb) hfaults

theorem Ends.bind {run : Run σ α β} {next : β → Run σ α γ} {ends : γ → Prop}
    (h : run.Ends returns faults) (hnext : ∀ b, returns b → (next b).Ends ends faults) :
    (run >>= next).Ends ends faults := by
  intro s
  have hrun := h s
  rcases hs : run s with ⟨trace, s', fault | b⟩
  · rw [hs] at hrun
    rw [bind_apply_error hs]
    exact hrun
  · rw [hs] at hrun
    rw [bind_apply_ok hs]
    exact hnext b hrun s'

theorem ends_report_bind {event : Event α} {next : Unit → Run σ α β}
    (h : (next ()).Ends returns faults) : (report event >>= next).Ends returns faults := by
  intro s
  exact h s

theorem Ends.map {run : Run σ α β} {f : β → γ} {ends : γ → Prop}
    (h : run.Ends (fun b => ends (f b)) faults) : (f <$> run).Ends ends faults := by
  rw [map_eq_pure_bind]
  exact h.bind fun b hb => ends_pure hb

theorem bind_eq_ok {run : Run σ α β} {next : β → Run σ α γ} {s s' : σ} {t : Trace α} {c : γ}
    (h : (run >>= next) s = ⟨t, s', .ok c⟩) :
    ∃ t₁ s₁ b t₂, run s = ⟨t₁, s₁, .ok b⟩ ∧ next b s₁ = ⟨t₂, s', .ok c⟩ ∧ t = t₁ ++ t₂ := by
  rcases hs : run s with ⟨t₁, s₁, fault | b⟩
  · rw [bind_apply_error hs] at h
    cases h
  · rw [bind_apply_ok hs] at h
    rcases hb : next b s₁ with ⟨t₂, s₂, result⟩
    rw [hb] at h
    cases h
    exact ⟨t₁, s₁, b, t₂, rfl, hb, rfl⟩

/-- A chain that ends in a fault does so in its first run, or in its second one after the
first. -/
theorem bind_eq_error {run : Run σ α β} {next : β → Run σ α γ} {s s' : σ} {t : Trace α}
    {fault : Fault} (h : (run >>= next) s = ⟨t, s', .error fault⟩) :
    run s = ⟨t, s', .error fault⟩ ∨
      ∃ t₁ s₁ b t₂, run s = ⟨t₁, s₁, .ok b⟩ ∧ next b s₁ = ⟨t₂, s', .error fault⟩ ∧
        t = t₁ ++ t₂ := by
  rcases hs : run s with ⟨t₁, s₁, fault' | b⟩
  · rw [bind_apply_error hs] at h
    cases h
    exact Or.inl rfl
  · rw [bind_apply_ok hs] at h
    rcases hb : next b s₁ with ⟨t₂, s₂, result⟩
    rw [hb] at h
    cases h
    exact Or.inr ⟨t₁, s₁, b, t₂, rfl, hb, rfl⟩

theorem Ends.bind_congr {run : Run σ α β} {next next' : β → Run σ α γ}
    (h : run.Ends returns faults) (hnext : ∀ b, returns b → next b = next' b) :
    run >>= next = run >>= next' := by
  funext s
  have hrun := h s
  rcases hs : run s with ⟨trace, s', fault | b⟩
  · rw [bind_apply_error hs, bind_apply_error hs]
  · rw [hs] at hrun
    rw [bind_apply_ok hs, bind_apply_ok hs, hnext b hrun]

theorem Ends.of_result_ok {run : Run σ α β} (h : run.Ends returns faults) {s : σ} {b : β}
    (hs : (run s).result = .ok b) : returns b := by
  have hrun := h s
  rwa [hs] at hrun

theorem Ends.of_result_error {run : Run σ α β} (h : run.Ends returns faults) {s : σ}
    {fault : Fault} (hs : (run s).result = .error fault) : faults fault := by
  have hrun := h s
  rwa [hs] at hrun

theorem Ends.exists_result {run : Run σ α β} (h : run.Ends returns fun _ => False) (s : σ) :
    ∃ b, (run s).result = .ok b ∧ returns b := by
  have hrun := h s
  rcases hs : (run s).result with fault | b
  · rw [hs] at hrun
    exact hrun.elim
  · rw [hs] at hrun
    exact ⟨b, rfl, hrun⟩

theorem Ends.result_eq {σ' : Type} {run : Run σ α β} {run' : Run σ' α β}
    (h : run.Ends returns fun _ => False) (h' : run'.Ends returns fun _ => False)
    (hunique : ∀ b b', returns b → returns b' → b = b') (s : σ) (s' : σ') :
    (run s).result = (run' s').result := by
  obtain ⟨b, hb, hreturns⟩ := h.exists_result s
  obtain ⟨b', hb', hreturns'⟩ := h'.exists_result s'
  rw [hb, hb', hunique b b' hreturns hreturns']

end GridInversion.Run
