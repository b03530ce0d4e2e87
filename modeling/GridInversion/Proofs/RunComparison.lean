import GridInversion.Proofs.PingPong

namespace GridInversion

/-- A relation between runs of two engines that chains keep, and that holds between two runs
without a dispatch if they are the same. -/
structure RunRelation (σ τ α : Type) where
  Related : ∀ {β : Type}, Run σ α β → Run τ α β → Prop
  ofExcept : ∀ {β : Type} (result : Except Fault β),
    Related (Run.ofExcept result) (Run.ofExcept result)
  report : ∀ event, Related (Run.report event) (Run.report event)
  bind : ∀ {β γ : Type} {run : Run σ α β} {run' : Run τ α β} {next : β → Run σ α γ}
    {next' : β → Run τ α γ}, Related run run' → (∀ b, Related (next b) (next' b)) →
      Related (run >>= next) (run' >>= next')

namespace Inverter

variable {α : Type} [Scalar α] {v w : Inverter α}
  (R : RunRelation v.engine.State w.engine.State α)

theorem related_checkPivot (hepsilon : v.epsilon = w.epsilon) (aug : Matrix α) (r : Nat) :
    R.Related (v.checkPivot aug r) (w.checkPivot aug r) := by
  unfold checkPivot
  refine R.bind (R.ofExcept _) fun pivot => ?_
  rw [refuses_congr hepsilon, hepsilon]
  split
  · exact R.bind (R.report _) fun _ => R.ofExcept _
  · exact R.ofExcept (.ok ())

variable {R}

/-- Two inverters of one threshold differ in their passes only, so what relates each
pass relates the steps, the chain of steps and the whole. -/
theorem related_settleAfresh (hepsilon : v.epsilon = w.epsilon)
    (hpass : ∀ pass : Pass α, R.Related (pass.run v.engine) (pass.run w.engine)) (n : Nat)
    (current : Matrix α) (r : Nat) :
    R.Related (v.settleAfresh n current r) (w.settleAfresh n current r) := by
  unfold settleAfresh
  refine R.bind (related_checkPivot R hepsilon current r) fun _ => ?_
  refine R.bind (hpass _) fun next => ?_
  exact R.bind (R.report _) fun _ => R.ofExcept (.ok next)

theorem related_settleAllAfresh (hepsilon : v.epsilon = w.epsilon)
    (hpass : ∀ pass : Pass α, R.Related (pass.run v.engine) (pass.run w.engine)) (n k : Nat)
    (current : Matrix α) :
    R.Related (v.settleAllAfresh n k current) (w.settleAllAfresh n k current) := by
  induction k with
  | zero => exact R.ofExcept (.ok current)
  | succ k ih =>
      rw [settleAllAfresh_succ, settleAllAfresh_succ]
      exact R.bind ih fun next => related_settleAfresh hepsilon hpass n next k

variable (R) in
theorem related_deliver (n : Nat) (inverse : Matrix α) :
    R.Related (v.deliver n inverse) (w.deliver n inverse) := by
  unfold deliver
  split
  · exact R.bind (R.report _) fun _ => R.ofExcept (.ok inverse)
  · exact R.bind (R.report _) fun _ => R.ofExcept _

theorem related_invert (hepsilon : v.epsilon = w.epsilon)
    (hpass : ∀ pass : Pass α, R.Related (pass.run v.engine) (pass.run w.engine))
    (m : Matrix α) : R.Related (v.invert m) (w.invert m) := by
  rw [invert_eq_invertAfresh, invert_eq_invertAfresh]
  unfold invertAfresh
  split
  · refine R.bind (hpass _) fun aug => ?_
    refine R.bind (related_settleAllAfresh hepsilon hpass m.rows m.rows aug) fun done => ?_
    exact R.bind (hpass _) fun inverse => related_deliver R m.rows inverse
  · exact R.ofExcept _

theorem related_eliminate (hepsilon : v.epsilon = w.epsilon)
    (hpass : ∀ pass : Pass α, R.Related (pass.run v.engine) (pass.run w.engine))
    (aug : Matrix α) (n : Nat) : R.Related (v.eliminate aug n) (w.eliminate aug n) := by
  rw [eliminate_eq_eliminateAfresh, eliminate_eq_eliminateAfresh]
  unfold eliminateAfresh
  refine R.bind (R.ofExcept _) fun _ => ?_
  exact related_settleAllAfresh hepsilon hpass n n aug

end Inverter

/-- What is to be compared between the runs of two engines besides their results:
how the traces correspond, and how the states of the engines do. -/
structure Comparison (σ τ α : Type) where
  traces : Trace α → Trace α → Prop
  states : σ → τ → Prop
  traces_nil : traces [] []
  traces_append : ∀ {t t' u u'}, traces t u → traces t' u' → traces (t ++ t') (u ++ u')
  traces_reported : ∀ event, traces [.reported event] [.reported event]

namespace Comparison

variable {σ τ α β γ : Type} (c : Comparison σ τ α)

/-- From corresponding states the two runs end in the same value or the same fault,
with corresponding traces and in corresponding states. -/
def Alike (run : Run σ α β) (run' : Run τ α β) : Prop :=
  ∀ s t, c.states s t →
    c.traces (run s).trace (run' t).trace ∧ c.states (run s).state (run' t).state ∧
      (run s).result = (run' t).result

theorem alike_ofExcept (result : Except Fault β) :
    c.Alike (Run.ofExcept result) (Run.ofExcept result) := by
  intro s t hst
  exact ⟨c.traces_nil, hst, rfl⟩

theorem alike_report (event : Event α) : c.Alike (Run.report event) (Run.report event) := by
  intro s t hst
  exact ⟨c.traces_reported event, hst, rfl⟩

variable {c}

theorem Alike.bind {run : Run σ α β} {run' : Run τ α β} {next : β → Run σ α γ}
    {next' : β → Run τ α γ} (h : c.Alike run run') (hnext : ∀ b, c.Alike (next b) (next' b)) :
    c.Alike (run >>= next) (run' >>= next') := by
  intro s t hst
  obtain ⟨htraces, hstates, hresult⟩ := h s t hst
  rcases hs : run s with ⟨trace, s', fault | b⟩ <;>
    rcases ht : run' t with ⟨trace', t', fault' | b'⟩ <;>
    rw [hs, ht] at htraces hstates hresult <;> cases hresult
  · rw [Run.bind_apply_error hs, Run.bind_apply_error ht]
    exact ⟨htraces, hstates, rfl⟩
  · obtain ⟨htraces', hstates', hresult'⟩ := hnext b s' t' hstates
    rw [Run.bind_apply_ok hs, Run.bind_apply_ok ht]
    exact ⟨c.traces_append htraces htraces', hstates', hresult'⟩

variable (c) in
def relation : RunRelation σ τ α where
  Related := c.Alike
  ofExcept := c.alike_ofExcept
  report := c.alike_report
  bind := Alike.bind

/-- Engines that are alike with every bare buffer are alike with every pass. -/
theorem alike_run [Scalar α] {engine engine' : Engine α}
    {c : Comparison engine.State engine'.State α}
    (h : ∀ grid buffer cell, c.Alike (engine.fillBuffer grid buffer cell)
      (engine'.fillBuffer grid buffer cell)) (pass : Pass α) :
    c.Alike (pass.run engine) (pass.run engine') := by
  have haccept : ∀ w : Written (Matrix α), c.Alike w.accept w.accept := by
    intro w
    unfold Written.accept
    split
    · exact c.alike_ofExcept (.ok w.out)
    · exact c.alike_ofExcept _
  unfold Pass.run
  refine Alike.bind ?_ haccept
  unfold Pass.runInto
  split
  · unfold Engine.fillMatrix
    split
    · rw [map_eq_pure_bind, map_eq_pure_bind]
      exact (h _ _ _).bind fun w => c.alike_ofExcept (.ok _)
    · exact c.alike_ofExcept (.ok _)
  · exact c.alike_ofExcept (.ok _)

end Comparison

namespace Inverter

variable {α : Type} [Scalar α] {v w : Inverter α}
  {c : Comparison v.engine.State w.engine.State α}

theorem alike_invert (hepsilon : v.epsilon = w.epsilon)
    (hpass : ∀ pass : Pass α, c.Alike (pass.run v.engine) (pass.run w.engine))
    (m : Matrix α) : c.Alike (v.invert m) (w.invert m) :=
  related_invert (R := c.relation) hepsilon hpass m

theorem alike_eliminate (hepsilon : v.epsilon = w.epsilon)
    (hpass : ∀ pass : Pass α, c.Alike (pass.run v.engine) (pass.run w.engine))
    (aug : Matrix α) (n : Nat) : c.Alike (v.eliminate aug n) (w.eliminate aug n) :=
  related_eliminate (R := c.relation) hepsilon hpass aug n

end Inverter

end GridInversion
