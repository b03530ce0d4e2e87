import GridInversion.MachineScalar
import GridInversion.Proofs.PassContracts
import GridInversion.Proofs.VisitOrders

namespace GridInversion

variable {α : Type}

namespace Pass

variable {pass : Pass α} {engine : Engine α} {out : Matrix α} {e : GridError}

variable [Scalar α]

/-- Both forms of a pass answer with an error before any dispatch, and the given matrix stays
as it is. -/
def Refuses (pass : Pass α) (engine : Engine α) (out : Matrix α) (e : GridError) : Prop :=
  ∀ s, pass.runInto engine out s = ⟨[], s, .ok ⟨out, .error e⟩⟩ ∧
    pass.run engine s = ⟨[], s, .error (.error e)⟩

theorem refuses_of_admission_error (h : pass.admission = .error e) (engine : Engine α)
    (out : Matrix α) : pass.Refuses engine out e := by
  intro s
  refine ⟨runInto_of_admission_error h s, ?_⟩
  exact Run.bind_apply_ok (runInto_of_admission_error h s)

theorem ends_run_of_missing (h : engine.WritesEachCell) (hadmission : pass.admission = .ok ())
    (hout : out.Fits pass.grid) {p : Position} (hp : pass.grid.Contains p)
    (hcell : pass.cell p = none) :
    (pass.runInto engine out).Ends (fun _ => False) (· = .outOfBounds) ∧
      (pass.run engine).Ends (fun _ => False) (· = .outOfBounds) := by
  have hinto : ∀ {m : Matrix α}, m.Fits pass.grid →
      (pass.runInto engine m).Ends (fun _ => False) (· = .outOfBounds) := by
    intro m hm
    rw [runInto, hadmission]
    exact h.ends_fillMatrix_of_missing hm hp hcell
  exact ⟨hinto hout, (hinto (Matrix.fits_zeros pass.grid)).bind fun _ hw => hw.elim⟩

variable {m : Matrix α} {n : Nat}

theorem augmentCell_of_le_size (hshape : m.shape = ⟨n, n⟩) (hsize : n * n ≤ m.data.size)
    {p : Position} (hp : (Stage.augmentedShape n).Contains p) :
    augmentCell m n p = some (m.cells.augmented n p.y p.x) := by
  unfold augmentCell Cells.augmented
  split
  · rename_i hx
    have hcols : m.cols = n := congrArg Shape.cols hshape
    have hplace : p.y * m.cols + p.x < m.data.size := by
      rw [hcols]
      exact Nat.lt_of_lt_of_le (Shape.offset_lt (s := ⟨n, n⟩) ⟨hx, hp.2⟩) hsize
    rw [Matrix.cells, Matrix.read?, Array.getElem?_eq_getElem hplace, Option.getD_some]
  · rfl

theorem augmentCell_corner_eq_none (hshape : m.shape = ⟨n, n⟩) (hn : 1 ≤ n)
    (hsize : m.data.size < n * n) : augmentCell m n ⟨n - 1, n - 1⟩ = none := by
  have hcols : m.cols = n := congrArg Shape.cols hshape
  have hcorner : n * n ≤ (n - 1) * n + (n - 1) + 1 := by
    rw [Nat.add_assoc, Nat.sub_add_cancel hn, ← Nat.succ_mul, Nat.succ_eq_add_one,
      Nat.sub_add_cancel hn]
  rw [augmentCell, if_pos (Nat.sub_lt hn Nat.one_pos), Matrix.read?, hcols]
  exact Array.getElem?_eq_none (Nat.le_of_lt_succ (Nat.lt_of_lt_of_le hsize hcorner))

/-- What the passes make of an input whose buffer has not one cell for each position of its
shape.  Elimination and extraction refuse it.  Augmentation looks at the shape only: a buffer
that is too short is read past its end, and of one that is too long the first cells are
taken. -/
theorem answers_to_inconsistent_input (hm : ¬ m.WellFormed) (n r : Nat) :
    (∀ (engine : Engine α) (out : Matrix α),
      (eliminate m n r).Refuses engine out (.shapeMismatch ⟨n, 2 * n⟩ m.shape) ∧
      (extract m n).Refuses engine out (.shapeMismatch ⟨n, 2 * n⟩ m.shape) ∧
      (¬ (1 ≤ n ∧ m.shape = ⟨n, n⟩) → (augment m n).Refuses engine out (.invalidShape m.shape)) ∧
      (1 ≤ n → m.shape = ⟨n, n⟩ → ¬ out.Fits ⟨n, 2 * n⟩ → ∀ s,
        (augment m n).runInto engine out s =
          ⟨[], s, .ok ⟨out, .error (.shapeMismatch ⟨n, 2 * n⟩ out.shape)⟩⟩)) ∧
    ∀ engine : Engine α, engine.WritesEachCell → ∀ out : Matrix α, out.Fits ⟨n, 2 * n⟩ →
      1 ≤ n → m.shape = ⟨n, n⟩ →
        (m.data.size < n * n →
          ((augment m n).runInto engine out).Ends (fun _ => False) (· = .outOfBounds) ∧
          ((augment m n).run engine).Ends (fun _ => False) (· = .outOfBounds)) ∧
        (n * n < m.data.size →
          ((augment m n).runInto engine out).Ends
            (fun w => w.verdict = .ok () ∧ w.out.HasCells ⟨n, 2 * n⟩ (m.cells.augmented n))
            (fun _ => False) ∧
          ((augment m n).run engine).Ends
            (fun aug => aug.HasCells ⟨n, 2 * n⟩ (m.cells.augmented n)) fun _ => False) := by
  have haccepts : 1 ≤ n → m.shape = ⟨n, n⟩ → (augment m n).admission = .ok () :=
    fun hn hshape => (admits_augment m n).admission_eq_ok
      (List.forall_mem_singleton.mpr ⟨hn, hshape⟩)
  rw [← Stage.augmentedShape_eq]
  constructor
  · intro engine out
    refine ⟨?_, ?_, fun hinput => ?_, fun hn hshape hout => ?_⟩
    · have hfirst := (admits_eliminate m n r).admission_eq_error (.here fun h => hm h.1)
      exact refuses_of_admission_error hfirst engine out
    · have hfirst := (admits_extract m n).admission_eq_error (.here fun h => hm h.1)
      exact refuses_of_admission_error hfirst engine out
    · have hfirst := (admits_augment m n).admission_eq_error (.here hinput)
      exact refuses_of_admission_error hfirst engine out
    · exact runInto_of_not_fits (haccepts hn hshape) hout
  · intro engine contract out hout hn hshape
    have hadmission := haccepts hn hshape
    refine ⟨fun hshort => ?_, fun hlong => ?_⟩
    · have hcorner : (augment m n).grid.Contains ⟨n - 1, n - 1⟩ :=
        ⟨lt_augmentedShape_cols (Nat.sub_lt hn Nat.one_pos), Nat.sub_lt hn Nat.one_pos⟩
      exact ends_run_of_missing contract hadmission hout hcorner
        (augmentCell_corner_eq_none hshape hn hshort)
    · have hcell : ∀ p, (augment m n).grid.Contains p →
          (augment m n).cell p = some (m.cells.augmented n p.y p.x) :=
        fun p hp => augmentCell_of_le_size hshape (Nat.le_of_lt hlong) hp
      refine ⟨?_, ends_run contract.faithful hadmission hcell⟩
      rw [runInto, hadmission]
      exact contract.faithful.ends_fillMatrix hout hcell

theorem answers_to_inconsistent_input_one_by_one :
    ¬ (⟨1, 1, #[]⟩ : Matrix Float).WellFormed ∧
      (Engine.serial : Engine Float).WritesEachCell ∧
      (eliminate (⟨1, 1, #[]⟩ : Matrix Float) 1 0).Refuses .serial ⟨1, 2, #[7, 8]⟩
        (.shapeMismatch ⟨1, 2⟩ ⟨1, 1⟩) ∧
      (augment (⟨1, 1, #[]⟩ : Matrix Float) 2).Refuses .serial ⟨1, 2, #[7, 8]⟩
        (.invalidShape ⟨1, 1⟩) ∧
      ((augment (⟨1, 1, #[]⟩ : Matrix Float) 1).run .serial).Ends (fun _ => False)
        (· = .outOfBounds) := by
  have hshort : ¬ (⟨1, 1, #[]⟩ : Matrix Float).WellFormed := nofun
  have hwrites : (Engine.serial : Engine Float).WritesEachCell := Engine.writesEachCell_serial
  obtain ⟨hchecked, haugment⟩ := answers_to_inconsistent_input hshort 1 0
  obtain ⟨heliminate, -⟩ := hchecked .serial ⟨1, 2, #[7, 8]⟩
  obtain ⟨-, -, hrefused, -⟩ :=
    (answers_to_inconsistent_input hshort 2 0).1 .serial ⟨1, 2, #[7, 8]⟩
  obtain ⟨hread, -⟩ :=
    haugment .serial hwrites ⟨1, 2, #[7, 8]⟩ ⟨rfl, rfl⟩ (Nat.le_refl 1) rfl
  exact ⟨hshort, hwrites, heliminate, hrefused nofun, (hread Nat.one_pos).2⟩

/-- A square of one cell whose buffer is empty is read past its end, and one whose buffer
holds two cells is laid out. -/
theorem augment_takes_inconsistent_input :
    ¬ (⟨1, 1, #[]⟩ : Matrix Float).WellFormed ∧ ¬ (⟨1, 1, #[4, 5]⟩ : Matrix Float).WellFormed ∧
      ((augment ⟨1, 1, #[]⟩ 1).runInto .serial (⟨1, 2, #[7, 8]⟩ : Matrix Float) ()).result =
        .error .outOfBounds ∧
      ((augment ⟨1, 1, #[4, 5]⟩ 1).runInto .serial (⟨1, 2, #[7, 8]⟩ : Matrix Float) ()).result =
        .ok ⟨⟨1, 2, #[4, 1]⟩, .ok ()⟩ := by
  refine ⟨nofun, nofun, rfl, rfl⟩

end Pass

end GridInversion
