import GridInversion.Matrix.Arithmetic
import GridInversion.Proofs.InversionVerdict
import GridInversion.Proofs.ProductCells

namespace GridInversion

variable {α β : Type}

/-- The result has the property, or is an error that was reported: nothing was read or
written past the end of a buffer. -/
def InBounds (returns : β → Prop) : Except Fault β → Prop
  | .ok b => returns b
  | .error fault => fault ≠ .outOfBounds

namespace InBounds

variable {returns : β → Prop}

theorem of_error (e : GridError) : InBounds returns (.error (.error e)) := nofun

theorem mapError {result : Except GridError β} (h : ∀ b, result = .ok b → returns b) :
    InBounds returns (result.mapError .error) := by
  cases result with
  | error e => exact of_error e
  | ok b => exact h b rfl

end InBounds

theorem Run.Ends.inBounds {σ : Type} {run : Run σ α β} {returns : β → Prop}
    (h : run.Ends returns (· ≠ .outOfBounds)) (s : σ) : InBounds returns (run s).result :=
  h s

namespace Matrix

variable {m m' : Matrix α}

theorem inBounds_get (h : m.WellFormed) (r c : Nat) : InBounds (fun _ => True) (m.get r c) := by
  unfold get
  split
  · rename_i hinside
    obtain ⟨v, hv⟩ := Option.isSome_iff_exists.mp (read?_isSome h hinside.1 hinside.2)
    rw [read, hv]
    trivial
  · trivial

theorem inBounds_set (h : m.WellFormed) (r c : Nat) (v : α) :
    InBounds WellFormed (m.set r c v) := by
  unfold set
  split
  · rename_i hinside
    have hroom : r * m.cols + c < m.data.size := by
      rw [h]
      exact Shape.offset_lt (s := m.shape) (p := ⟨c, r⟩) ⟨hinside.2, hinside.1⟩
    rw [if_pos hroom]
    exact (Array.size_setIfInBounds ..).trans h
  · exact h

theorem wellFormed_of_ofArray {rows cols : Nat} {data : Array α}
    (h : ofArray rows cols data = .ok m) : m.WellFormed := by
  unfold ofArray at h
  split at h
  · rename_i hsize
    cases h
    exact hsize
  · cases h

theorem wellFormed_of_ofRows {rows : List (Array α)} (h : ofRows rows = .ok m) :
    m.WellFormed := by
  unfold ofRows at h
  dsimp only at h
  split at h
  · cases h
  · split at h
    · cases h
    · rename_i hsame
      cases h
      have hwidth : ∀ row ∈ rows, row.size = (rows.head?.map Array.size).getD 0 := by
        simpa using hsame
      rw [WellFormed, size_foldl_append hwidth #[], Array.size_empty, Nat.zero_add]

section Scalar

variable [Scalar α]

theorem inBounds_product (h : m.WellFormed) (h' : m'.WellFormed) :
    InBounds WellFormed (m.product m') := by
  by_cases hinner : m.cols = m'.rows
  · have hright : m'.Fits ⟨m.cols, m'.cols⟩ := h'.fits (by rw [hinner]; rfl)
    obtain ⟨product, hproduct, hcells⟩ :=
      product_hasCells (h.fits (s := ⟨m.rows, m.cols⟩) rfl).hasCells hright.hasCells
    rw [hproduct]
    exact hcells.toFits.wellFormed
  · rw [product, if_neg hinner]
    exact InBounds.of_error _

theorem inBounds_residual (h : m.WellFormed) (h' : m'.WellFormed) :
    InBounds (fun _ => True) (m.residual m') := by
  unfold residual
  split
  · have hleft := inBounds_product h h'
    have hright := inBounds_product h' h
    rcases hl : m.product m' with fault | left
    · rw [hl] at hleft
      exact hleft
    rcases hr : m'.product m with fault | right
    · rw [hr] at hright
      exact hright
    dsimp only [bind, Except.bind]
    rcases left.identityDistance m.rows with e | l
    · exact InBounds.of_error e
    rcases right.identityDistance m.rows with e | r
    · exact InBounds.of_error e
    · trivial
  · exact InBounds.of_error _

end Scalar

end Matrix

namespace Pass

/-- A pass has a value for each cell of its grid as soon as it accepts its input. -/
def Covered (pass : Pass α) : Prop :=
  pass.admission = .ok () →
    ∃ a : Cells α, ∀ p, pass.grid.Contains p → pass.cell p = some (a p.y p.x)

variable {pass : Pass α} {engine : Engine α}

theorem Covered.ends_runInto (h : pass.Covered) (contract : engine.Faithful) {out : Matrix α}
    (hout : out.WellFormed) :
    (pass.runInto engine out).Ends (fun w => w.out.WellFormed) (· ≠ .outOfBounds) := by
  unfold runInto
  split
  · rename_i hadmission
    obtain ⟨a, hcell⟩ := h hadmission
    by_cases hfits : out.Fits pass.grid
    · refine (contract.ends_fillMatrix hfits hcell).mono ?_ fun _ hfault => hfault.elim
      exact fun w hw => hw.2.toFits.wellFormed
    · rw [Engine.fillMatrix, if_neg fun hsame => hfits ⟨hsame.1, hsame.2⟩]
      exact Run.ends_pure hout
  · exact Run.ends_pure hout

variable [Scalar α]

theorem Covered.ends_run (h : pass.Covered) (contract : engine.Faithful) :
    (pass.run engine).Ends Matrix.WellFormed (· ≠ .outOfBounds) := by
  unfold run
  refine (h.ends_runInto contract (Matrix.wellFormed_zeros pass.grid)).bind fun w hw => ?_
  unfold Written.accept
  split
  · exact Run.ends_pure hw
  · exact Run.ends_fail nofun

variable {m : Matrix α}

theorem covered_augment (h : m.WellFormed) (n : Nat) : (augment m n).Covered := by
  intro hadmission
  simp only [augment] at hadmission
  split at hadmission
  · cases hadmission
  · rename_i hfit
    have hfits : m.Fits ⟨n, n⟩ := h.fits (by rw [Matrix.shape]; congr <;> omega)
    exact ⟨_, fun _ hp => augmentCell_eq hfits.hasCells hp⟩

theorem covered_eliminate (m : Matrix α) (n r : Nat) : (eliminate m n r).Covered := by
  intro hadmission
  simp only [eliminate] at hadmission
  rcases hrequire : requireAugmented m n with e | ⟨⟩
  · rw [hrequire] at hadmission
    cases hadmission
  · rw [hrequire] at hadmission
    by_cases hr : r < n
    · have hfits := fits_of_requireAugmented hrequire
      exact ⟨_, fun _ hp => eliminateCell_eq hfits.hasCells hr hp⟩
    · simp [hr, bind, Except.bind] at hadmission

theorem covered_extract (m : Matrix α) (n : Nat) : (extract m n).Covered := by
  intro hadmission
  have hfits := fits_of_requireAugmented hadmission
  exact ⟨fun y x => m.cells y (x + n), fun _ hp => extractCell_eq hfits.hasCells hp⟩

end Pass

namespace Inverter

variable [Scalar α] {v : Inverter α}

theorem inBounds_invert (contract : v.engine.Faithful) (m : Matrix α) (s : v.engine.State) :
    InBounds Matrix.WellFormed (v.invert m s).result := by
  by_cases hm : Admissible m
  · refine Run.Ends.inBounds ((ends_invert contract hm.fits.hasCells hm.1).mono ?_ ?_) s
    · exact fun x hx => hx.2.1.toFits.wellFormed
    · rintro fault (⟨r, -, rfl, -⟩ | ⟨rfl, -⟩) <;> exact nofun
  · rw [invert, if_neg hm]
    exact InBounds.of_error _

theorem inBounds_eliminate (contract : v.engine.Faithful) (aug : Matrix α) (n : Nat)
    (s : v.engine.State) : InBounds Matrix.WellFormed (v.eliminate aug n s).result := by
  rcases hrequire : Pass.requireAugmented aug n with e | ⟨⟩
  · rw [eliminate, hrequire]
    exact InBounds.of_error e
  · have hfits := Pass.fits_of_requireAugmented hrequire
    refine Run.Ends.inBounds ((ends_eliminate contract hfits.hasCells).mono ?_ ?_) s
    · exact fun done hdone => hdone.2.toFits.wellFormed
    · rintro fault ⟨r, -, rfl, -⟩
      exact nofun

end Inverter

end GridInversion
