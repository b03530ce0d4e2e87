import GridInversion.Proofs.RecordedRuns

namespace GridInversion

variable {α γ : Type}

def Trace.dispatchCount (t : Trace α) : Nat := t.dispatches.length

@[simp] theorem Trace.dispatchCount_append (t u : Trace α) :
    (t ++ u).dispatchCount = t.dispatchCount + u.dispatchCount := by
  rw [dispatchCount, dispatches_append, List.length_append, dispatchCount, dispatchCount]

/-- A view of the traces of an engine, under which a dispatch to a grid looks the same
whatever the engine makes of it. -/
structure View (engine : Engine α) (γ : Type) where
  see : Trace α → List γ
  see_append : ∀ t u, see (t ++ u) = see t ++ see u
  dispatch : Shape → List γ
  see_fillBuffer : ∀ {grid : Shape} {buffer : Array α} (cell : Position → Option α)
    (s : engine.State), buffer.size = grid.cells → grid.cells ≠ 0 →
      see (engine.fillBuffer grid buffer cell s).trace = dispatch grid

/-- The trace of a dispatch: the positions that were evaluated, then the grids that were
announced. -/
theorem Engine.trace_fillBuffer (engine : Engine α) (grid : Shape) (buffer : Array α)
    (cell : Position → Option α) (s : engine.State) :
    ∃ visits : Array Position,
      (engine.fillBuffer grid buffer cell s).trace = .dispatched grid visits ::
        ((engine.dispatch s grid buffer.toVector).follow cell #[] #[]).announced.toList.map
          fun shape => .reported (.dispatching shape) := by
  rcases hfollow : (engine.dispatch s grid buffer.toVector).follow cell #[] #[] with
    ⟨visits, announced, _ | reply⟩
  · exact ⟨visits, by rw [fillBuffer, hfollow]⟩
  · exact ⟨visits, by rw [fillBuffer, hfollow]⟩

@[simp] theorem Written.trace_accept {σ β : Type} (w : Written β) (s : σ) :
    ((w.accept : Run σ α β) s).trace = [] := by
  rcases w with ⟨out, e | _⟩ <;> rfl

theorem Engine.dispatches_fillBuffer (engine : Engine α) (grid : Shape) (buffer : Array α)
    (cell : Position → Option α) (s : engine.State) :
    (engine.fillBuffer grid buffer cell s).trace.dispatches = [grid] := by
  obtain ⟨visits, htrace⟩ := engine.trace_fillBuffer grid buffer cell s
  simp [htrace, Trace.dispatches]

namespace View

variable {engine : Engine α} (view : View engine γ)

@[simp] theorem see_nil : view.see [] = [] := by
  have happend := view.see_append [] []
  rw [List.append_nil] at happend
  exact List.self_eq_append_right.mp happend

def dispatches (engine : Engine α) : View engine Shape where
  see := Trace.dispatches
  see_append := Trace.dispatches_append
  dispatch := fun grid => [grid]
  see_fillBuffer := fun cell s _ _ => engine.dispatches_fillBuffer _ _ cell s

def noting {ω : Type} (blank : ω) (note : ω → Except GridError Unit → ω) :
    View (engine.noting blank note) γ where
  see := view.see
  see_append := view.see_append
  dispatch := view.dispatch
  see_fillBuffer := by
    rintro grid buffer cell ⟨s, notes⟩ hsize hcells
    rw [← view.see_fillBuffer cell s hsize hcells, engine.fillBuffer_noting]
    rcases engine.fillBuffer grid buffer cell s with ⟨trace, s', fault | w⟩ <;> rfl

/-- What is seen while the first `k` pivots of a matrix of size `n` are settled. -/
def settling (n k : Nat) : List γ :=
  (List.range k).flatMap fun i =>
    view.dispatch (Stage.augmentedShape n) ++ view.see [.reported (.pivotSettled (i + 1) n)]

theorem settling_succ (n k : Nat) :
    view.settling n (k + 1) =
      view.settling n k ++
        (view.dispatch (Stage.augmentedShape n) ++
          view.see [.reported (.pivotSettled (k + 1) n)]) := by
  simp [settling, List.range_succ]

theorem length_settling_dispatches (n k : Nat) :
    ((dispatches engine).settling n k).length = k := by
  induction k with
  | zero => rfl
  | succ k ih =>
      rw [settling_succ, List.length_append, ih]
      rfl

theorem see_run [Scalar α] {pass : Pass α} (hadmission : pass.admission = .ok ())
    (hcells : pass.grid.cells ≠ 0) {s s' : engine.State} {t : Trace α}
    {result : Except Fault (Matrix α)} (h : pass.run engine s = ⟨t, s', result⟩) :
    view.see t = view.dispatch pass.grid := by
  have hfill := view.see_fillBuffer pass.cell s (Matrix.fits_zeros pass.grid).size hcells
  rw [Pass.run_eq_fillBuffer engine hadmission] at h
  rcases hs : engine.fillBuffer pass.grid (Matrix.zeros pass.grid : Matrix α).data pass.cell s
    with ⟨trace, s₁, fault | ⟨out, verdict⟩⟩
  · rw [Run.bind_apply_error hs] at h
    cases h
    rwa [hs] at hfill
  · rw [hs] at hfill
    rw [Run.bind_apply_ok hs, Written.trace_accept, List.append_nil] at h
    cases h
    exact hfill

end View

end GridInversion
