import GridInversion.Inverter
import GridInversion.Proofs.MatrixCells
import GridInversion.Proofs.RunResults

namespace GridInversion

variable {α : Type}

theorem Engine.ends_fillBuffer_size (engine : Engine α) (grid : Shape)
    (buffer : Array α) (cell : Position → Option α) :
    (engine.fillBuffer grid buffer cell).Ends
      (fun w => w.out.size = buffer.size) fun _ => True := by
  intro s
  rcases hfollow : (engine.dispatch s grid buffer.toVector).follow cell #[] #[] with
    ⟨visits, announced, _ | reply⟩
  · simp [fillBuffer, hfollow]
  · simp [fillBuffer, hfollow]

/-- A dispatch reports its errors in its verdict, so all that can cut it short is a value
out of bounds. -/
theorem Engine.ends_fillBuffer_outOfBounds (engine : Engine α) (grid : Shape)
    (buffer : Array α) (cell : Position → Option α) :
    (engine.fillBuffer grid buffer cell).Ends (fun _ => True) (· = .outOfBounds) := by
  intro s
  rcases hfollow : (engine.dispatch s grid buffer.toVector).follow cell #[] #[] with
    ⟨visits, announced, _ | reply⟩
  · simp [fillBuffer, hfollow]
  · simp [fillBuffer, hfollow]

/-- An engine cannot change the shape of the matrix that it fills, nor the
number of its cells, whatever its verdict. -/
theorem Engine.ends_fillMatrix_fits (engine : Engine α) (grid : Shape)
    {out : Matrix α} {s : Shape} (hout : out.Fits s) (cell : Position → Option α) :
    (engine.fillMatrix grid out cell).Ends (fun w => w.out.Fits s) fun _ => True := by
  unfold Engine.fillMatrix
  split
  · apply Run.Ends.map
    refine (engine.ends_fillBuffer_size grid out.data cell).mono ?_ fun _ h => h
    intro filled hfilled
    exact ⟨hout.shape, hfilled.trans hout.size⟩
  · exact Run.ends_pure hout

theorem Written.ends_accept_fits {σ : Type} {w : Written (Matrix α)} {s : Shape}
    (hw : w.out.Fits s) :
    (w.accept : Run σ α (Matrix α)).Ends (fun m => m.Fits s) fun _ => True := by
  unfold Written.accept
  split
  · exact Run.ends_pure hw
  · exact Run.ends_fail trivial

theorem Pass.ends_runInto_fits (pass : Pass α) (engine : Engine α) {out : Matrix α}
    {s : Shape} (hout : out.Fits s) :
    (pass.runInto engine out).Ends (fun w => w.out.Fits s) fun _ => True := by
  unfold Pass.runInto
  split
  · exact engine.ends_fillMatrix_fits pass.grid hout pass.cell
  · exact Run.ends_pure hout

theorem Pass.fits_of_requireAugmented {aug : Matrix α} {n : Nat}
    (h : requireAugmented aug n = .ok ()) : aug.Fits (Stage.augmentedShape n) := by
  unfold requireAugmented at h
  split at h
  · rename_i hfits
    exact ⟨hfits.1, hfits.2⟩
  · cases h

theorem Pass.requireAugmented_eq_ok {aug : Matrix α} {n : Nat}
    (h : aug.Fits (Stage.augmentedShape n)) : requireAugmented aug n = .ok () :=
  if_pos ⟨h.shape, h.size⟩

theorem Pass.requireAugmented_of_not_fits {aug : Matrix α} {n : Nat}
    (h : ¬ aug.Fits (Stage.augmentedShape n)) :
    requireAugmented aug n = .error (.shapeMismatch (Stage.augmentedShape n) aug.shape) :=
  if_neg fun hfits => h ⟨hfits.1, hfits.2⟩

variable [Scalar α]

theorem Pass.admission_augment {m : Matrix α} {n : Nat} (h : m.Fits ⟨n, n⟩) (hn : n ≠ 0) :
    (Pass.augment m n).admission = .ok () := by
  have hrows : m.rows = n := h.rows
  have hcols : m.cols = n := h.cols
  simp [Pass.augment, hn, hrows, hcols]

theorem Pass.admission_eliminate {m : Matrix α} {n r : Nat}
    (h : m.Fits (Stage.augmentedShape n)) (hr : r < n) :
    (Pass.eliminate m n r).admission = .ok () := by
  rw [Pass.eliminate, requireAugmented_eq_ok h, if_pos hr]
  rfl

/-- A fresh matrix always fits the grid, so a pass that accepts its input is one dispatch
to the cells of such a matrix. -/
theorem Pass.run_eq_fillBuffer {pass : Pass α} (engine : Engine α)
    (hadmission : pass.admission = .ok ()) :
    pass.run engine =
      engine.fillBuffer pass.grid (Matrix.zeros pass.grid : Matrix α).data pass.cell >>= fun w =>
        Written.accept ⟨{ (Matrix.zeros pass.grid : Matrix α) with data := w.out }, w.verdict⟩ := by
  have hzeros : (Matrix.zeros pass.grid : Matrix α).Fits pass.grid := Matrix.fits_zeros _
  rw [Pass.run, runInto, hadmission]
  simp only
  rw [Engine.fillMatrix, if_pos ⟨hzeros.shape, hzeros.size⟩, bind_map_left]

theorem Pass.ends_run_fits (pass : Pass α) (engine : Engine α) :
    (pass.run engine).Ends (fun m => m.Fits pass.grid) fun _ => True := by
  unfold Pass.run
  refine (pass.ends_runInto_fits engine (Matrix.fits_zeros pass.grid)).bind ?_
  intro w hw
  exact Written.ends_accept_fits hw

namespace Inverter

omit [Scalar α] in
theorem Admissible.fits {m : Matrix α} (h : Admissible m) : m.Fits ⟨m.rows, m.rows⟩ := by
  obtain ⟨-, hsquare, hwell⟩ := h
  exact hwell.fits (by rw [Matrix.shape, ← hsquare])

variable (v : Inverter α)

def settleAfresh (n : Nat) (current : Matrix α) (r : Nat) :
    Run v.engine.State α (Matrix α) := do
  v.checkPivot current r
  let next ← (Pass.eliminate current n r).run v.engine
  Run.report (.pivotSettled (r + 1) n)
  pure next

def settleAllAfresh (n k : Nat) (current : Matrix α) :
    Run v.engine.State α (Matrix α) :=
  (List.range k).foldlM (v.settleAfresh n) current

/-- Inversion without a pool: every pass writes a fresh matrix of zeros. -/
def invertAfresh (m : Matrix α) : Run v.engine.State α (Matrix α) :=
  if Admissible m then do
    let aug ← (Pass.augment m m.rows).run v.engine
    let aug ← v.settleAllAfresh m.rows m.rows aug
    let inverse ← (Pass.extract aug m.rows).run v.engine
    v.deliver m.rows inverse
  else Run.fail (.invalidShape m.shape)

def eliminateAfresh (aug : Matrix α) (n : Nat) : Run v.engine.State α (Matrix α) := do
  Run.ofExcept ((Pass.requireAugmented aug n).mapError .error)
  v.settleAllAfresh n n aug

theorem settleAllAfresh_succ (n k : Nat) (current : Matrix α) :
    v.settleAllAfresh n (k + 1) current =
      v.settleAllAfresh n k current >>= fun m => v.settleAfresh n m k := by
  simp [settleAllAfresh, List.range_succ, List.foldlM_append]

theorem ends_settleAfresh_fits (n : Nat) (current : Matrix α) (r : Nat) :
    (v.settleAfresh n current r).Ends
      (fun m => m.Fits (Stage.augmentedShape n)) fun _ => True := by
  unfold settleAfresh
  refine (Run.ends_trivial _).bind fun _ _ => ?_
  refine ((Pass.eliminate current n r).ends_run_fits v.engine).bind fun next hnext => ?_
  exact Run.ends_report_bind (Run.ends_pure hnext)

theorem ends_settleAllAfresh_fits (n k : Nat) {current : Matrix α}
    (hcurrent : current.Fits (Stage.augmentedShape n)) :
    (v.settleAllAfresh n k current).Ends
      (fun m => m.Fits (Stage.augmentedShape n)) fun _ => True := by
  induction k with
  | zero => exact Run.ends_pure hcurrent
  | succ k ih =>
      rw [settleAllAfresh_succ]
      exact ih.bind fun m _ => v.ends_settleAfresh_fits n m k

/-- The pool while one of its two buffers is in use: the other one is free and
wiped. -/
def spare (n : Nat) : Pool α :=
  ⟨Stage.augmentedShape n, [Matrix.zeros (Stage.augmentedShape n)]⟩

theorem lease_freshPool (n : Nat) :
    v.lease (freshPool n) = pure (Matrix.zeros (Stage.augmentedShape n), spare n) := rfl

theorem lease_spare (n : Nat) :
    v.lease (spare n) =
      pure (Matrix.zeros (Stage.augmentedShape n), ⟨Stage.augmentedShape n, []⟩) := rfl

/-- The free buffer is out when the used one comes back, so the pool is again
as it was before the pass. -/
theorem release_used (n : Nat) {used : Matrix α}
    (hused : used.Fits (Stage.augmentedShape n)) :
    Pool.release ⟨Stage.augmentedShape n, []⟩ used = spare n := by
  rw [Pool.release, if_pos hused.shape, hused.wipe_eq_zeros]
  rfl

theorem settlePivot_spare (n r : Nat) {current : Matrix α}
    (hcurrent : current.Fits (Stage.augmentedShape n)) :
    v.settlePivot n ⟨current, spare n⟩ r =
      (fun m => ⟨m, spare n⟩) <$> v.settleAfresh n current r := by
  simp only [settlePivot, settleAfresh, Pass.run, lease_spare, map_bind, map_pure,
    bind_assoc, pure_bind, release_used n hcurrent]
  rfl

theorem settlePivots_spare (n k : Nat) {current : Matrix α}
    (hcurrent : current.Fits (Stage.augmentedShape n)) :
    v.settlePivots n k ⟨current, spare n⟩ =
      (fun m => ⟨m, spare n⟩) <$> v.settleAllAfresh n k current := by
  induction k with
  | zero => rfl
  | succ k ih =>
      rw [settlePivots_succ, settleAllAfresh_succ, ih, bind_map_left, map_bind]
      -- Every matrix that the passes so far can end in has the shape of the pool, so the
      -- spare buffer is again free and wiped.
      apply (v.ends_settleAllAfresh_fits n k hcurrent).bind_congr
      intro m hm
      exact v.settlePivot_spare n k hm

theorem layOut_eq (m : Matrix α) :
    v.layOut m = (fun aug => ⟨aug, spare m.rows⟩) <$> (Pass.augment m m.rows).run v.engine := by
  simp only [layOut, Pass.run, lease_freshPool, map_eq_pure_bind, bind_assoc, pure_bind]
  rfl

theorem invert_eq_invertAfresh (m : Matrix α) : v.invert m = v.invertAfresh m := by
  unfold invert invertAfresh
  split
  · rw [layOut_eq, bind_map_left]
    apply ((Pass.augment m m.rows).ends_run_fits v.engine).bind_congr
    intro aug haug
    rw [v.settlePivots_spare m.rows m.rows haug, bind_map_left]
  · rfl

theorem eliminate_eq_eliminateAfresh (aug : Matrix α) (n : Nat) :
    v.eliminate aug n = v.eliminateAfresh aug n := by
  unfold eliminate eliminateAfresh
  rcases hrequire : Pass.requireAugmented aug n with e | _
  · rfl
  · have haug := Pass.fits_of_requireAugmented hrequire
    have hload : { (Matrix.zeros (Stage.augmentedShape n) : Matrix α) with data := aug.data } =
        aug := by
      rcases aug with ⟨rows, cols, data⟩
      simp [Matrix.zeros, ← haug.rows, ← haug.cols]
    rw [lease_freshPool, pure_bind]
    simp only [hload]
    rw [v.settlePivots_spare n n haug, bind_map_left]
    simp only [bind_pure]

theorem eliminate_eq_settleAllAfresh {aug : Matrix α} {n : Nat}
    (haug : aug.Fits (Stage.augmentedShape n)) :
    v.eliminate aug n = v.settleAllAfresh n n aug := by
  rw [eliminate_eq_eliminateAfresh, eliminateAfresh, Pass.requireAugmented_eq_ok haug]
  rfl

/-- Stale cells never show: with two recycled buffers the run is the run with a
fresh matrix for every pass, in its trace, the states of the engine and its
result, even for an engine that fails or leaves cells unwritten. -/
theorem recycling_eq_fresh_matrices :
    (∀ m, v.invert m = v.invertAfresh m) ∧
      ∀ aug n, v.eliminate aug n = v.eliminateAfresh aug n :=
  ⟨v.invert_eq_invertAfresh, v.eliminate_eq_eliminateAfresh⟩

end Inverter

end GridInversion
