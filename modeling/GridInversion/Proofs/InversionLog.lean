import GridInversion.Engine.Choice
import GridInversion.Log
import GridInversion.Proofs.DispatchJournals

namespace GridInversion

open Log

variable {α : Type}

namespace Sweep

variable {β : Type} {n : Nat} {grid : Shape} {cell : Position → Option α}

theorem announced_follow_fill (finish : Vector α n → β) (order : List Position)
    (buffer : Vector α n) (visits : Array Position) (announced : Array Shape) :
    ((fill grid finish order buffer).follow cell visits announced).announced = announced := by
  induction order generalizing buffer visits with
  | nil => rfl
  | cons p rest ih =>
      simp only [fill, follow]
      rcases cell p with _ | x
      · rfl
      · simp only
        split
        · exact ih _ _
        · rfl

end Sweep

namespace Engine

theorem announced_follow_walk (order : Shape → List Position) {n : Nat} (grid : Shape)
    (buffer : Vector α n) (cell : Position → Option α) (visits : Array Position)
    (announced : Array Shape) :
    ((walk order grid buffer).follow cell visits announced).announced = announced := by
  unfold walk
  split
  · exact Sweep.announced_follow_fill _ _ _ _ _
  · rfl

theorem announced_follow_parallelUnder (schedule : Shape → List Position) (workers : Nat)
    (pinned : Bool) {n : Nat} {grid : Shape} (hsize : n = grid.cells) (hcells : grid.cells ≠ 0)
    (buffer : Vector α n) (cell : Position → Option α)
    (s : (parallelUnder schedule workers pinned : Engine α).State) :
    (((parallelUnder schedule workers pinned).dispatch s grid buffer).follow
      cell #[] #[]).announced = #[grid] := by
  simp only [parallelUnder, if_pos (And.intro hsize (hsize ▸ hcells))]
  exact announced_follow_walk schedule grid buffer cell #[] #[grid]

end Engine

namespace Log

def settledLine (n k : Nat) : Line :=
  ⟨.debug, .inverter, "[PIVOT] " ++ toString k ++ "/" ++ toString n ++ " settled"⟩

def dispatchLine (grid : Shape) : Line :=
  ⟨.debug, .engine, "[GRID] dispatch " ++ toString grid.rows ++ "x" ++ toString grid.cols⟩

/-- The lines of the first `k` settled pivots of `n`, each after the lines `before`. -/
def settledLines (before : List Line) (n k : Nat) : List Line :=
  (List.range k).flatMap fun i => before ++ [settledLine n (i + 1)]

end Log

def Conclusion.closingLine (write : α → String) (n : Nat) (epsilon : α) :
    Conclusion α → List Line
  | inverted _ => [⟨.info, .inverter, "[SOLVER] inverted " ++ toString n ++ "x" ++ toString n⟩]
  | overflowed =>
      [⟨.warn, .inverter,
        "[SOLVER] " ++ toString n ++ "x" ++ toString n ++ " inverse overflowed"⟩]
  | refused r pivot =>
      [⟨.warn, .inverter, "[PIVOT] row " ++ toString r ++ " diagonal " ++ write pivot ++
        " within " ++ write epsilon ++ " of zero"⟩]
  | failed _ _ => []

namespace View

variable (write : α → String)

/-- The lines of the inverter, among which nothing shows of a dispatch. -/
def inverterLines (engine : Engine α) : View engine Line where
  see := fun t => (linesWith write t).filter (·.source = .inverter)
  see_append := by
    intro t u
    rw [linesWith_append, List.filter_append]
  dispatch := fun _ => []
  see_fillBuffer := by
    intro grid buffer cell s _ _
    obtain ⟨visits, htrace⟩ := engine.trace_fillBuffer grid buffer cell s
    rw [htrace, List.filter_eq_nil_iff]
    intro line hline
    obtain ⟨event, hevent, rfl⟩ := List.mem_map.mp hline
    obtain ⟨shape, rfl⟩ : ∃ shape, event = .dispatching shape := by
      simp only [Trace.events, List.filterMap_cons, List.filterMap_map, List.mem_filterMap,
        Function.comp_apply, Option.some.injEq] at hevent
      obtain ⟨shape, -, rfl⟩ := hevent
      exact ⟨shape, rfl⟩
    simp [lineWith]

def parallelLines (schedule : Shape → List Position) (workers : Nat) (pinned : Bool) :
    View (.parallelUnder schedule workers pinned : Engine α) Line where
  see := linesWith write
  see_append := linesWith_append write
  dispatch := fun grid => [dispatchLine grid]
  see_fillBuffer := by
    intro grid buffer cell s hsize hcells
    obtain ⟨visits, htrace⟩ := Engine.trace_fillBuffer _ grid buffer cell s
    rw [htrace, Engine.announced_follow_parallelUnder schedule workers pinned hsize hcells]
    simp [linesWith, Trace.events, lineWith, dispatchLine, Shape.text, String.append_assoc]

end View

namespace Inverter

variable [Scalar α] (v : Inverter α) {write : α → String} {m : Matrix α}

/-- What is seen of an inversion, under a view that shows the lines of the inverter. -/
theorem see_invert (view : View v.engine Line)
    (hreported : ∀ event, (lineWith write event).source = .inverter →
      view.see [.reported event] = [lineWith write event])
    (hm : Admissible m) (s : v.engine.State) :
    ∃ c, v.Concludes m s c ∧ (v.engine.Faithful → ∀ k fault, c ≠ .failed k fault) ∧
      view.see (v.invert m s).trace =
        view.dispatch (Stage.augmentedShape m.rows) ++
          settledLines (view.dispatch (Stage.augmentedShape m.rows)) m.rows
            (c.settled m.rows) ++
          (c.unsettled m.rows).flatMap view.dispatch ++
            c.closingLine write m.rows v.epsilon := by
  obtain ⟨c, hconcludes, hfailed, hsee⟩ := v.exists_concludes hm s
  refine ⟨c, hconcludes, hfailed, ?_⟩
  have hsettled : ∀ k, view.see [.reported (.pivotSettled k m.rows)] = [settledLine m.rows k] :=
    fun k => hreported (.pivotSettled k m.rows) rfl
  have hclosing : view.see (c.closing m.rows v.epsilon) =
      c.closingLine write m.rows v.epsilon := by
    cases c with
    | inverted x => exact hreported (.inverted m.rows) rfl
    | overflowed => exact hreported (.overflowed m.rows) rfl
    | refused r pivot => exact hreported (.pivotRejected r pivot v.epsilon) rfl
    | failed k fault => exact view.see_nil
  rw [hsee view, hclosing, View.settling, settledLines]
  simp only [hsettled]

variable (write) in
theorem inverter_lines_invert (hm : Admissible m) (s : v.engine.State) :
    ∃ c, v.Concludes m s c ∧
      (linesWith write (v.invert m s).trace).filter (·.source = .inverter) =
        settledLines [] m.rows (c.settled m.rows) ++
          c.closingLine write m.rows v.epsilon := by
  have hreported : ∀ event, (lineWith write event).source = .inverter →
      (View.inverterLines write v.engine).see [.reported event] = [lineWith write event] :=
    fun event hsource => List.filter_eq_self.mpr (by simpa [linesWith, Trace.events] using hsource)
  obtain ⟨c, hconcludes, -, hlines⟩ := v.see_invert _ hreported hm s
  have hnothing : (c.unsettled m.rows).flatMap (View.inverterLines write v.engine).dispatch = [] :=
    List.flatMap_eq_nil_iff.mpr fun _ _ => rfl
  rw [hnothing, List.append_nil] at hlines
  exact ⟨c, hconcludes, hlines⟩

variable (write) in
theorem lines_invert_parallelUnder {schedule : Shape → List Position} (workers : Nat)
    (pinned : Bool) (hschedule : ∀ grid p, p ∈ schedule grid ↔ grid.Contains p) (epsilon : α)
    (hm : Admissible m) :
    let w : Inverter α := ⟨.parallelUnder schedule workers pinned, epsilon⟩
    ∀ s, ∃ c, w.Concludes m s c ∧ (∀ k fault, c ≠ .failed k fault) ∧
      linesWith write (w.invert m s).trace =
        dispatchLine ⟨m.rows, 2 * m.rows⟩ ::
          settledLines [dispatchLine ⟨m.rows, 2 * m.rows⟩] m.rows (c.settled m.rows) ++
            (c.unsettled m.rows).map dispatchLine ++
              c.closingLine write m.rows epsilon := by
  intro w s
  obtain ⟨c, hconcludes, hfailed, hlines⟩ :=
    w.see_invert (View.parallelLines write schedule workers pinned) (fun _ _ => rfl) hm s
  have hfaithful : w.engine.Faithful :=
    Engine.faithful_parallelUnder workers pinned hschedule
  have haugmented : Stage.augmentedShape m.rows = ⟨m.rows, 2 * m.rows⟩ :=
    congrArg (Shape.mk m.rows) (Nat.mul_comm m.rows 2)
  refine ⟨c, hconcludes, hfailed hfaithful, ?_⟩
  rw [haugmented] at hlines
  rw [List.map_eq_flatMap]
  exact hlines

end Inverter

end GridInversion
