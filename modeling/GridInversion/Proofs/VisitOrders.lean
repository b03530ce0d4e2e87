import Mathlib.Algebra.Group.Ext
import Mathlib.Algebra.Module.Submodule.Lattice
import Mathlib.Data.List.Nodup
import GridInversion.Proofs.ExactField
import GridInversion.Proofs.RunComparison

namespace GridInversion

variable {α : Type}

theorem nodup_flatMap_map {β γ δ : Type} {f : β → γ → δ} (hf : Function.Injective2 f)
    {outer : List β} {inner : List γ} (houter : outer.Nodup) (hinner : inner.Nodup) :
    (outer.flatMap fun b => inner.map (f b)).Nodup := by
  rw [List.nodup_flatMap]
  refine ⟨fun b _ => hinner.map (hf.right b), houter.imp fun {b b'} hne => ?_⟩
  intro d hd hd'
  obtain ⟨c, -, rfl⟩ := List.mem_map.mp hd
  obtain ⟨c', -, heq⟩ := List.mem_map.mp hd'
  exact hne (hf heq).1.symm

theorem Shape.nodup_rowMajor (s : Shape) : s.rowMajor.Nodup := by
  have hinjective : Function.Injective2 fun y x => Position.mk x y := by
    intro y y' x x' h
    cases h
    exact ⟨rfl, rfl⟩
  exact nodup_flatMap_map hinjective List.nodup_range List.nodup_range

theorem Shape.nodup_columnsBackwards (s : Shape) : s.columnsBackwards.Nodup := by
  have hinjective : Function.Injective2 Position.mk := by
    intro x x' y y' h
    cases h
    exact ⟨rfl, rfl⟩
  exact nodup_flatMap_map hinjective (List.nodup_reverse.mpr List.nodup_range)
    (List.nodup_reverse.mpr List.nodup_range)

theorem Shape.columnsBackwards_perm_rowMajor (s : Shape) :
    s.columnsBackwards.Perm s.rowMajor := by
  rw [List.perm_ext_iff_of_nodup s.nodup_columnsBackwards s.nodup_rowMajor]
  intro p
  rw [mem_columnsBackwards, mem_rowMajor]

namespace Sweep

variable {σ : Type} {n : Nat} {grid : Shape}

/-- The sweep evaluates each of the listed positions once, which one next being its
own choice, and leaves the buffer with the values at their places. -/
inductive WritesEach (grid : Shape) : List Position → Vector α n → Sweep α (Reply σ α n) → Prop
  | finished (state : σ) (buffer : Vector α n) :
      WritesEach grid [] buffer (.finished ⟨state, buffer, .ok ()⟩)
  | evaluate {rest : List Position} {buffer : Vector α n} {p : Position}
      {resume : α → Sweep α (Reply σ α n)} (listed : p ∈ rest)
      (next : ∀ v,
        WritesEach grid (rest.erase p) (buffer.setIfInBounds (grid.offset p) v) (resume v)) :
      WritesEach grid rest buffer (.evaluate p resume)
  | announce {rest : List Position} {buffer : Vector α n} {shape : Shape}
      {sweep : Sweep α (Reply σ α n)} (next : WritesEach grid rest buffer sweep) :
      WritesEach grid rest buffer (.announce shape sweep)

variable {rest : List Position} {buffer : Vector α n} {sweep : Sweep α (Reply σ α n)}
  {cell : Position → Option α} {a : Position → α}

theorem writesEach_fill {order : List Position} (state : σ) (room : grid.cells ≤ n)
    (horder : ∀ p ∈ order, grid.Contains p) (hperm : order.Perm rest) :
    WritesEach grid rest buffer
      (fill grid (fun filled => ⟨state, filled, .ok ()⟩) order buffer) := by
  induction order generalizing rest buffer with
  | nil =>
      rw [List.nil_perm.mp hperm]
      exact .finished state buffer
  | cons p order ih =>
      obtain ⟨hp, hrest⟩ := List.cons_perm_iff_perm_erase.mp hperm
      have hlt : grid.offset p < n :=
        Nat.lt_of_lt_of_le (Shape.offset_lt (horder p List.mem_cons_self)) room
      refine .evaluate hp fun v => ?_
      rw [dif_pos hlt, set_eq_setIfInBounds]
      exact ih (fun q hq => horder q (List.mem_cons_of_mem p hq)) hrest

/-- Whatever order the sweep takes, it ends in the buffer with the values written in
some order of the listed positions. -/
theorem WritesEach.follow_eq (h : sweep.WritesEach grid rest buffer)
    (hcell : ∀ p ∈ rest, cell p = some (a p)) (visits : Array Position)
    (announced : Array Shape) :
    ∃ visits' announced' state order, order.Perm rest ∧
      sweep.follow cell visits announced =
        ⟨visits', announced', some ⟨state, filled grid a order buffer, .ok ()⟩⟩ := by
  induction h generalizing visits announced with
  | finished state buffer => exact ⟨visits, announced, state, [], .refl _, rfl⟩
  | @evaluate rest buffer p resume hp next ih =>
      have hrest : ∀ q ∈ rest.erase p, cell q = some (a q) := fun q hq =>
        hcell q (List.mem_of_mem_erase hq)
      obtain ⟨visits', announced', state, order, hperm, hfollow⟩ :=
        ih (a p) hrest (visits.push p) announced
      refine ⟨visits', announced', state, p :: order, ?_, ?_⟩
      · exact List.cons_perm_iff_perm_erase.mpr ⟨hp, hperm⟩
      · rw [follow, hcell p hp]
        exact hfollow
  | announce next ih => exact ih hcell visits (announced.push _)

theorem WritesEach.result?_eq_none (h : sweep.WritesEach grid rest buffer) {p : Position}
    (hp : p ∈ rest) (hcell : cell p = none) (visits : Array Position)
    (announced : Array Shape) : (sweep.follow cell visits announced).result? = none := by
  induction h generalizing visits announced with
  | finished state buffer => exact absurd hp List.not_mem_nil
  | @evaluate rest buffer q resume hq next ih =>
      rw [follow]
      rcases hv : cell q with _ | v
      · rfl
      · have hne : p ≠ q := by
          rintro rfl
          rw [hcell] at hv
          cases hv
        exact ih v ((List.mem_erase_of_ne hne).mpr hp) _ _
  | announce next ih => exact ih hp visits (announced.push _)

end Sweep

namespace Engine

/-- The engine writes each cell of a grid once.  The order is its own choice, and may
change with its state and with the values that it has seen.  Nothing is said of
buffers whose length is not that of the grid. -/
def WritesEachCell (engine : Engine α) : Prop :=
  ∀ {n : Nat} (s : engine.State) (grid : Shape) (buffer : Vector α n), n = grid.cells →
    (engine.dispatch s grid buffer).WritesEach grid grid.rowMajor buffer

theorem writesEach_walk {order : Shape → List Position} {grid : Shape}
    (horder : (order grid).Perm grid.rowMajor) {n : Nat} (hn : n = grid.cells)
    (buffer : Vector α n) : (walk order grid buffer).WritesEach grid grid.rowMajor buffer := by
  rw [walk, if_pos hn]
  refine Sweep.writesEach_fill () (Nat.le_of_eq hn.symm) (fun p hp => ?_) horder
  exact Shape.mem_rowMajor.mp (horder.mem_iff.mp hp)

theorem writesEachCell_visiting (name : String) (workers : Nat) {order : Shape → List Position}
    (horder : ∀ grid, (order grid).Perm grid.rowMajor) :
    (visiting name workers order : Engine α).WritesEachCell :=
  fun _ grid buffer hn => writesEach_walk (horder grid) hn buffer

theorem writesEachCell_parallelUnder {schedule : Shape → List Position} (workers : Nat)
    (pinned : Bool) (hschedule : ∀ grid, (schedule grid).Perm grid.rowMajor) :
    (parallelUnder schedule workers pinned : Engine α).WritesEachCell := by
  intro n s grid buffer hn
  have hwalk := writesEach_walk (hschedule grid) hn buffer
  simp only [parallelUnder]
  split
  · exact .announce hwalk
  · exact hwalk

theorem writesEachCell_serial : (serial : Engine α).WritesEachCell :=
  writesEachCell_visiting _ _ fun _ => .refl _

theorem writesEachCell_backwards : (backwards : Engine α).WritesEachCell :=
  writesEachCell_visiting _ _ Shape.columnsBackwards_perm_rowMajor

namespace WritesEachCell

variable {engine engine' : Engine α} {grid : Shape} {cell : Position → Option α}

theorem faithful (h : engine.WritesEachCell) : engine.Faithful := by
  intro grid buffer cell a hsize hcell s
  obtain ⟨visits, announced, state, order, hperm, hfollow⟩ :=
    (h s grid buffer.toVector hsize).follow_eq
      (fun p hp => hcell p (Shape.mem_rowMajor.mp hp)) #[] #[]
  rw [fillBuffer_of_follow hfollow]
  refine ⟨rfl, fun p hp => ?_⟩
  have horder : ∀ q, q ∈ order ↔ grid.Contains q := fun q =>
    hperm.mem_iff.trans Shape.mem_rowMajor
  exact getElem?_filled_order horder hsize a buffer.toVector hp

theorem ends_fillBuffer_of_missing (h : engine.WritesEachCell) {buffer : Array α}
    (hsize : buffer.size = grid.cells) {p : Position} (hp : grid.Contains p)
    (hcell : cell p = none) :
    (engine.fillBuffer grid buffer cell).Ends (fun _ => False) (· = .outOfBounds) := by
  intro s
  have hnone := (h s grid buffer.toVector hsize).result?_eq_none (Shape.mem_rowMajor.mpr hp)
    hcell #[] #[]
  rcases hfollow : (engine.dispatch s grid buffer.toVector).follow cell #[] #[] with
    ⟨visits, announced, reply?⟩
  rw [hfollow] at hnone
  simp only at hnone
  simp [fillBuffer, hfollow, hnone]

theorem ends_fillMatrix_of_missing (h : engine.WritesEachCell) {out : Matrix α}
    (hout : out.Fits grid) {p : Position} (hp : grid.Contains p) (hcell : cell p = none) :
    (engine.fillMatrix grid out cell).Ends (fun _ => False) (· = .outOfBounds) := by
  rw [fillMatrix, if_pos ⟨hout.shape, hout.size⟩]
  exact (h.ends_fillBuffer_of_missing hout.size hp hcell).map

end WritesEachCell

end Engine

namespace Comparison

variable {σ τ β : Type}

def results (σ τ α : Type) : Comparison σ τ α where
  traces := fun _ _ => True
  states := fun _ _ => True
  traces_nil := trivial
  traces_append := fun _ _ => trivial
  traces_reported := fun _ => trivial

variable {run : Run σ α β} {run' : Run τ α β} {returns : β → Prop}

theorem Alike.result_eq (h : (results σ τ α).Alike run run') (s : σ) (t : τ) :
    (run s).result = (run' t).result :=
  (h s t trivial).2.2

theorem alike_of_ends_ok (h : run.Ends returns fun _ => False)
    (h' : run'.Ends returns fun _ => False)
    (hunique : ∀ b b', returns b → returns b' → b = b') : (results σ τ α).Alike run run' := by
  intro s t _
  refine ⟨trivial, trivial, ?_⟩
  rcases hs : (run s).result with fault | b
  · exact (h.of_result_error hs).elim
  · rcases ht : (run' t).result with fault | b'
    · exact (h'.of_result_error ht).elim
    · rw [hunique b b' (h.of_result_ok hs) (h'.of_result_ok ht)]

theorem alike_of_ends_error {fault : Fault} (h : run.Ends (fun _ => False) (· = fault))
    (h' : run'.Ends (fun _ => False) (· = fault)) : (results σ τ α).Alike run run' := by
  intro s t _
  refine ⟨trivial, trivial, ?_⟩
  rcases hs : (run s).result with fault | b
  · rcases ht : (run' t).result with fault' | b'
    · rw [h.of_result_error hs, h'.of_result_error ht]
    · exact (h'.of_result_ok ht).elim
  · exact (h.of_result_ok hs).elim

end Comparison

variable [Scalar α]

namespace Engine.WritesEachCell

variable {engine engine' : Engine α} {out out' : Matrix α}

/-- Two engines that write each cell leave the same matrix behind, or come to the same
missing value, whatever was in their buffers before. -/
theorem alike_fillMatrix (h : engine.WritesEachCell) (h' : engine'.WritesEachCell)
    (hshape : out.shape = out'.shape) (hsize : out.data.size = out'.data.size) (grid : Shape)
    (cell : Position → Option α) :
    (Comparison.results engine.State engine'.State α).Alike
      (engine.fillMatrix grid out cell >>= Written.accept)
      (engine'.fillMatrix grid out' cell >>= Written.accept) := by
  by_cases hfits : out.shape = grid ∧ out.data.size = grid.cells
  · have hout : out.Fits grid := ⟨hfits.1, hfits.2⟩
    have hout' : out'.Fits grid := ⟨hshape ▸ hfits.1, hsize ▸ hfits.2⟩
    by_cases htotal : ∀ p, grid.Contains p → (cell p).isSome
    · let a : Cells α := fun y x => (cell ⟨x, y⟩).getD 0
      have hcell : ∀ p, grid.Contains p → cell p = some (a p.y p.x) := by
        intro p hp
        obtain ⟨v, hv⟩ := Option.isSome_iff_exists.mp (htotal p hp)
        simp only [a, hv, Option.getD_some]
      have haccept : ∀ {σ : Type} (w : Written (Matrix α)),
          w.verdict = .ok () ∧ w.out.HasCells grid a →
            (w.accept : Run σ α (Matrix α)).Ends (fun m => m.HasCells grid a) fun _ => False := by
        rintro σ w ⟨hverdict, hcells⟩
        rw [Written.accept, hverdict]
        exact Run.ends_pure hcells
      refine Comparison.alike_of_ends_ok
        ((h.faithful.ends_fillMatrix hout hcell).bind haccept)
        ((h'.faithful.ends_fillMatrix hout' hcell).bind haccept) ?_
      exact fun m m' hm hm' => hm.ext hm' fun _ _ _ _ => rfl
    · obtain ⟨p, hp⟩ := Classical.not_forall.mp htotal
      obtain ⟨hinside, hmissing⟩ := Classical.not_imp.mp hp
      have hnone : cell p = none := Option.not_isSome_iff_eq_none.mp hmissing
      exact Comparison.alike_of_ends_error
        ((h.ends_fillMatrix_of_missing hout hinside hnone).bind fun _ hw => hw.elim)
        ((h'.ends_fillMatrix_of_missing hout' hinside hnone).bind fun _ hw => hw.elim)
  · rw [fillMatrix, if_neg hfits, fillMatrix, ← hshape, ← hsize, if_neg hfits]
    exact (Comparison.results _ _ α).alike_ofExcept _

theorem alike_runInto (h : engine.WritesEachCell) (h' : engine'.WritesEachCell)
    (hshape : out.shape = out'.shape) (hsize : out.data.size = out'.data.size)
    (pass : Pass α) :
    (Comparison.results engine.State engine'.State α).Alike
      (pass.runInto engine out >>= Written.accept)
      (pass.runInto engine' out' >>= Written.accept) := by
  unfold Pass.runInto
  split
  · exact h.alike_fillMatrix h' hshape hsize pass.grid pass.cell
  · exact (Comparison.results _ _ α).alike_ofExcept _

theorem alike_run (h : engine.WritesEachCell) (h' : engine'.WritesEachCell) (pass : Pass α) :
    (Comparison.results engine.State engine'.State α).Alike
      (pass.run engine) (pass.run engine') :=
  h.alike_runInto h' rfl rfl pass

end Engine.WritesEachCell

/-- Two engines that write each cell of a grid once, in orders of their own, are not to
be told apart by any result: neither of a pass into matrices of one shape, whatever
their cells were, nor of a pass into a fresh matrix, nor of an inversion or an
elimination.  A pass is any admission with any cell values, so augmentation,
elimination and extraction are among them for all their inputs. -/
theorem Inverter.results_independent_of_order {v w : Inverter α}
    (hv : v.engine.WritesEachCell) (hw : w.engine.WritesEachCell)
    (hepsilon : v.epsilon = w.epsilon) (s : v.engine.State) (t : w.engine.State) :
    (∀ (pass : Pass α) (out out' : Matrix α), out.shape = out'.shape →
      out.data.size = out'.data.size →
        ((pass.runInto v.engine out >>= Written.accept) s).result =
          ((pass.runInto w.engine out' >>= Written.accept) t).result) ∧
    (∀ pass : Pass α, (pass.run v.engine s).result = (pass.run w.engine t).result) ∧
    (∀ m, (v.invert m s).result = (w.invert m t).result) ∧
    ∀ aug n, (v.eliminate aug n s).result = (w.eliminate aug n t).result := by
  have hrun := hv.alike_run hw
  refine ⟨fun pass out out' hshape hsize => ?_, fun pass => ?_, fun m => ?_, fun aug n => ?_⟩
  · exact (hv.alike_runInto hw hshape hsize pass).result_eq s t
  · exact (hrun pass).result_eq s t
  · exact (alike_invert hepsilon hrun m).result_eq s t
  · exact (alike_eliminate hepsilon hrun aug n).result_eq s t

theorem Inverter.results_independent_of_order_backwards :
    (Engine.serial : Engine ℚ).WritesEachCell ∧ (Engine.backwards : Engine ℚ).WritesEachCell ∧
      ((⟨.backwards, 0⟩ : Inverter ℚ).invert ⟨2, 2, #[2, 1, 4, 3]⟩ ()).result =
        .ok ⟨2, 2, #[3 / 2, -1 / 2, -2, 1]⟩ := by
  have hserial : ((⟨.serial, 0⟩ : Inverter ℚ).invert ⟨2, 2, #[2, 1, 4, 3]⟩ ()).result =
      .ok ⟨2, 2, #[3 / 2, -1 / 2, -2, 1]⟩ := by cbv
  obtain ⟨-, -, hinvert, -⟩ := results_independent_of_order (v := ⟨.serial, 0⟩)
    (w := ⟨.backwards, 0⟩) Engine.writesEachCell_serial
    (Engine.writesEachCell_backwards (α := ℚ)) rfl () ()
  refine ⟨Engine.writesEachCell_serial, Engine.writesEachCell_backwards, ?_⟩
  rw [← hinvert, hserial]

end GridInversion
