import Mathlib.Algebra.Group.Ext
import GridInversion.Engine.Choice
import GridInversion.Proofs.ExactField
import GridInversion.Proofs.InversionVerdict
import GridInversion.Proofs.RecordedRuns

namespace GridInversion

variable {α β : Type}

/-- A sweep that stays inside has its result as soon as every cell of the grid has a
value. -/
theorem Sweep.StaysInside.exists_result {grid : Shape} {cell : Position → Option α}
    {sweep : Sweep α β} (h : sweep.StaysInside grid)
    (hcell : ∀ p, grid.Contains p → (cell p).isSome) (visits : Array Position)
    (announced : Array Shape) :
    ∃ result, (sweep.follow cell visits announced).result? = some result := by
  induction h generalizing visits announced with
  | finished result => exact ⟨result, rfl⟩
  | evaluate inside _ ih =>
      obtain ⟨v, hv⟩ := Option.isSome_iff_exists.mp (hcell _ inside)
      simp only [follow, hv]
      exact ih v _ _
  | announce _ ih => exact ih _ _

namespace Engine

/-- The engine asks for cells of its grid only, and writes inside a buffer that has the
length of the grid.  It may fail at any dispatch, or leave cells as they were. -/
def StaysInside (engine : Engine α) : Prop :=
  ∀ {n : Nat} (s : engine.State) (grid : Shape) (buffer : Vector α n), n = grid.cells →
    (engine.dispatch s grid buffer).StaysInside grid

theorem staysInside_visiting (name : String) (workers : Nat) {order : Shape → List Position}
    (horder : ∀ grid, ∀ p ∈ order grid, grid.Contains p) :
    (visiting name workers order : Engine α).StaysInside := by
  intro n _ grid buffer _
  exact staysInside_walk (horder grid) buffer

theorem staysInside_failing (k : Nat) (e : GridError) :
    (failing k e : Engine α).StaysInside := by
  intro n count grid buffer hn
  simp only [failing]
  split
  · exact .finished _
  · exact Sweep.staysInside_fill (fun p hp => Shape.mem_rowMajor.mp hp) (Nat.le_of_eq hn.symm)
      buffer

theorem staysInside_skippingRow (row : Nat) : (skippingRow row : Engine α).StaysInside := by
  intro n _ grid buffer hn
  refine Sweep.staysInside_fill (fun p hp => ?_) (Nat.le_of_eq hn.symm) buffer
  exact Shape.mem_rowMajor.mp (List.mem_of_mem_filter hp)

theorem StaysInside.ends_fillBuffer {engine : Engine α} (h : engine.StaysInside)
    {grid : Shape} {buffer : Array α} (hsize : buffer.size = grid.cells)
    {cell : Position → Option α} (hcell : ∀ p, grid.Contains p → (cell p).isSome) :
    (engine.fillBuffer grid buffer cell).Ends (fun _ => True) fun _ => False := by
  intro s
  obtain ⟨reply, hreply⟩ := (h s grid buffer.toVector hsize).exists_result hcell #[] #[]
  rcases hfollow : (engine.dispatch s grid buffer.toVector).follow cell #[] #[] with
    ⟨visits, announced, reply?⟩
  rw [hfollow] at hreply
  simp only at hreply
  subst hreply
  rw [fillBuffer_of_follow hfollow]
  trivial

end Engine

theorem Engine.StaysInside.accounts_run [Scalar α] {engine : Engine α} (h : engine.StaysInside)
    {pass : Pass α} (hadmission : pass.admission = .ok ())
    (hcell : ∀ p, pass.grid.Contains p → (pass.cell p).isSome) :
    (pass.run engine.recording).Accounts (fun m => m.Fits pass.grid) fun _ => False := by
  have hzeros : (Matrix.zeros pass.grid : Matrix α).Fits pass.grid := Matrix.fits_zeros _
  have hfill : ∀ s, ∃ trace s' w,
      engine.recording.fillBuffer pass.grid (Matrix.zeros pass.grid : Matrix α).data pass.cell
        (s, []) = ⟨trace, (s', recordVerdict [] w.verdict), .ok w⟩ := by
    intro s
    -- Inside its grid the engine gets every value that it asks for, so there is a verdict.
    have hends := h.ends_fillBuffer hzeros.size hcell s
    rw [fillBuffer_recording]
    rcases hrun : engine.fillBuffer pass.grid (Matrix.zeros pass.grid : Matrix α).data pass.cell s
      with ⟨trace, s', fault | w⟩
    · rw [hrun] at hends
      exact hends.elim
    · exact ⟨trace, s', w, rfl⟩
  have haccounts : (pass.run engine.recording).Accounts (fun _ => True) fun _ => False := by
    rw [Pass.run_eq_fillBuffer _ hadmission]
    exact Run.accounts_accept hfill _
  exact haccounts.returning (pass.ends_run_fits engine.recording)

namespace Inverter

section Answers

variable {v : Inverter α}

/-- What the driver answers for in a call: it refuses an unfit input, and no other, by an
error of the kind of `refusal`, and its other errors are among `own`. -/
structure AnswersFor (v : Inverter α)
    (call : (w : Inverter α) → Run w.engine.State α (Matrix α)) (unfit : Prop)
    (refusal : GridError) (own : GridError → Prop) : Prop where
  /-- To record what the dispatches return changes nothing. -/
  recorded : ∀ s, call v s = (call v.recording (s, [])).forget
  refuses_iff : ∀ s,
    (∃ e, e.name = refusal.name ∧ (call v.recording (s, [])).Raises e) ↔ unfit
  /-- There is no dispatch before a refusal. -/
  refused : unfit → ∀ s, call v s = ⟨[], s, .error (.error refusal)⟩
  raises : ¬ unfit → ∀ s e, (call v.recording (s, [])).Raises e → own e
  inBounds : ∀ s, (call v s).result ≠ .error .outOfBounds

theorem answersFor_of_accounts {call : (w : Inverter α) → Run w.engine.State α (Matrix α)}
    {unfit : Prop} {refusal : GridError} {own : GridError → Prop}
    (hrecorded : ∀ s, call v s = (call v.recording (s, [])).forget)
    (hrefused : unfit → ∀ w, call w = Run.fail refusal)
    (haccounts : ¬ unfit → (call v.recording).Accounts (fun _ => True) own)
    (hown : ∀ e, own e → e.name ≠ refusal.name) : v.AnswersFor call unfit refusal own where
  recorded := hrecorded
  refuses_iff := by
    intro s
    constructor
    · rintro ⟨e, hname, hraises⟩
      by_contra hfit
      exact hown e ((haccounts hfit).own_of_raises hraises) hname
    · intro hunfit
      refine ⟨refusal, rfl, ?_⟩
      rw [hrefused hunfit]
      exact Run.raises_fail s
  refused := by
    intro hunfit s
    rw [hrefused hunfit]
    rfl
  raises := fun hfit s e hraises => (haccounts hfit).own_of_raises hraises
  inBounds := by
    intro s
    by_cases hunfit : unfit
    · rw [hrefused hunfit]
      exact nofun
    · rw [hrecorded]
      exact (haccounts hunfit).result_ne_outOfBounds s

end Answers

variable [Scalar α] (v : Inverter α)

theorem state_checkPivot (aug : Matrix α) (r : Nat) (s : v.engine.State) :
    (v.checkPivot aug r s).state = s := by
  unfold checkPivot
  rcases aug.read r r with fault | pivot
  · rfl
  · rw [Run.ofExcept_ok, pure_bind]
    split <;> rfl

theorem state_deliver (n : Nat) (inverse : Matrix α) (s : v.engine.State) :
    (v.deliver n inverse s).state = s := by
  unfold deliver
  split <;> rfl

variable {v} {n : Nat}

theorem accounts_settleAfresh (inside : v.engine.StaysInside) {m : Matrix α} {r : Nat}
    (hm : m.Fits (Stage.augmentedShape n)) (hr : r < n) :
    (v.recording.settleAfresh n m r).Accounts
      (fun next => next.Fits (Stage.augmentedShape n)) (· = .uninvertible r) := by
  have hpivot : (v.recording.checkPivot m r).Accounts (fun _ => True) (· = .uninvertible r) :=
    ((ends_checkPivot hm.hasCells hr).mono (fun _ _ => trivial)
      fun _ hfault => ⟨_, hfault.1, rfl⟩).accounts (v.recording.state_checkPivot m r)
  have hpass := inside.accounts_run (Pass.admission_eliminate hm hr) fun p hp =>
    Option.isSome_iff_exists.mpr ⟨_, Pass.eliminateCell_eq hm.hasCells hr hp⟩
  unfold settleAfresh
  refine hpivot.bind fun _ _ => ?_
  refine (hpass.mono_own fun _ hown => hown.elim).bind fun next hnext => ?_
  exact Run.Ends.accounts (Run.ends_report_bind (Run.ends_pure hnext)) fun _ => rfl

theorem accounts_settleAllAfresh (inside : v.engine.StaysInside) {m : Matrix α} {k : Nat}
    (hm : m.Fits (Stage.augmentedShape n)) (hk : k ≤ n) :
    (v.recording.settleAllAfresh n k m).Accounts
      (fun done => done.Fits (Stage.augmentedShape n)) fun e => ∃ r < n, e = .uninvertible r := by
  induction k with
  | zero => exact Run.Ends.accounts (Run.ends_pure hm) fun _ => rfl
  | succ k ih =>
      rw [settleAllAfresh_succ]
      refine (ih (Nat.le_of_succ_le hk)).bind fun current hcurrent => ?_
      exact (accounts_settleAfresh inside hcurrent hk).mono_own fun _ hown => ⟨k, hk, hown⟩

theorem accounts_eliminate (inside : v.engine.StaysInside) {aug : Matrix α}
    (haug : aug.Fits (Stage.augmentedShape n)) :
    (v.recording.eliminate aug n).Accounts (fun _ => True)
      fun e => ∃ r < n, e = .uninvertible r := by
  rw [v.recording.eliminate_eq_settleAllAfresh haug]
  exact (accounts_settleAllAfresh inside haug (Nat.le_refl n)).mono (fun _ _ => trivial)
    fun _ hown => hown

theorem accounts_invert (inside : v.engine.StaysInside) {m : Matrix α} (hm : Admissible m) :
    (v.recording.invert m).Accounts (fun _ => True)
      fun e => e = .nonFinite ∨ ∃ r < m.rows, e = .uninvertible r := by
  have haugment := inside.accounts_run (Pass.admission_augment hm.fits hm.1) fun p hp =>
    Option.isSome_iff_exists.mpr ⟨_, Pass.augmentCell_eq hm.fits.hasCells hp⟩
  rw [invert_eq_invertAfresh, invertAfresh, if_pos hm]
  refine (haugment.mono_own fun _ hown => hown.elim).bind fun aug haug => ?_
  have hsettle := accounts_settleAllAfresh inside haug (Nat.le_refl m.rows)
  refine (hsettle.mono_own fun _ hown => .inr hown).bind fun done hdone => ?_
  have hadmission : (Pass.extract done m.rows).admission = .ok () :=
    Pass.requireAugmented_eq_ok hdone
  have hextract := inside.accounts_run hadmission fun p hp =>
    Option.isSome_iff_exists.mpr ⟨_, Pass.extractCell_eq hdone.hasCells hp⟩
  refine (hextract.mono_own fun _ hown => hown.elim).bind fun inverse _ => ?_
  refine Run.Ends.accounts ?_ (v.recording.state_deliver m.rows inverse)
  exact (ends_deliver inverse).mono (fun _ _ => trivial) fun _ hfault =>
    ⟨_, hfault.1, .inl rfl⟩

theorem ends_layOut_settlePivots (m : Matrix α) (r : Nat) :
    (v.layOut m >>= v.settlePivots m.rows r).Ends (fun bench => bench.pool.available = 1)
      fun _ => True := by
  rw [layOut_eq, bind_map_left]
  refine ((Pass.augment m m.rows).ends_run_fits v.engine).bind fun aug haug => ?_
  rw [v.settlePivots_spare m.rows r haug]
  exact ((Run.ends_trivial _).mono (fun _ _ => rfl) fun _ h => h).map

theorem ends_lease_settlePivots {aug : Matrix α} (haug : aug.Fits (Stage.augmentedShape n))
    (r : Nat) :
    (v.lease (freshPool n) >>= fun leased =>
        v.settlePivots n r ⟨{ leased.1 with data := aug.data }, leased.2⟩).Ends
      (fun bench => bench.pool.available = 1) fun _ => True := by
  -- The copied data has the length of the buffer, so the bench fits like any later one.
  have hloaded : Matrix.Fits { (Matrix.zeros (Stage.augmentedShape n) : Matrix α) with
      data := aug.data } (Stage.augmentedShape n) := ⟨rfl, haug.size⟩
  rw [lease_freshPool, pure_bind, v.settlePivots_spare n r hloaded]
  exact ((Run.ends_trivial _).mono (fun _ _ => rfl) fun _ h => h).map

omit [Scalar α] in
theorem admissible_iff {m : Matrix α} :
    Admissible m ↔ ¬ (m.rows = 0 ∨ m.rows ≠ m.cols ∨ m.data.size ≠ m.rows * m.cols) := by
  rw [Admissible, Matrix.WellFormed]
  tauto

omit [Scalar α] in
theorem fits_augmentedShape_iff {aug : Matrix α} :
    aug.Fits (Stage.augmentedShape n) ↔ aug.shape = ⟨n, 2 * n⟩ ∧ aug.data.size = 2 * n * n := by
  have hcells : (Stage.augmentedShape n).cells = 2 * n * n := by
    rw [Stage.augmentedShape_eq, Shape.cells, Nat.mul_comm]
  rw [← Stage.augmentedShape_eq, ← hcells]
  exact ⟨fun h => ⟨h.shape, h.size⟩, fun h => ⟨h.1, h.2⟩⟩

theorem eliminate_of_not_fits {aug : Matrix α} (haug : ¬ aug.Fits (Stage.augmentedShape n)) :
    v.eliminate aug n = Run.fail (.shapeMismatch ⟨n, 2 * n⟩ aug.shape) := by
  rw [eliminate, Pass.requireAugmented_of_not_fits haug, Nat.mul_comm]
  rfl

/-- Where the errors of the driver come from, when its engine asks for cells of its grid
only, however often it fails.  An augmented matrix is copied into a buffer with as many
cells, and whenever a pivot is to be settled one of the two buffers is free. -/
theorem own_errors (inside : v.engine.StaysInside) :
    (∀ m : Matrix α, v.AnswersFor (fun w => w.invert m)
      (m.rows = 0 ∨ m.rows ≠ m.cols ∨ m.data.size ≠ m.rows * m.cols) (.invalidShape m.shape)
      fun e => e = .nonFinite ∨ ∃ r < m.rows, e = .uninvertible r) ∧
    (∀ (aug : Matrix α) (n : Nat), v.AnswersFor (fun w => w.eliminate aug n)
      (aug.shape ≠ ⟨n, 2 * n⟩ ∨ aug.data.size ≠ 2 * n * n) (.shapeMismatch ⟨n, 2 * n⟩ aug.shape)
      fun e => ∃ r < n, e = .uninvertible r) ∧
    (∀ (m : Matrix α) (r : Nat), (v.layOut m >>= v.settlePivots m.rows r).Ends
      (fun bench => bench.pool.available = 1) fun _ => True) ∧
    ∀ (aug : Matrix α) (n : Nat), aug.shape = ⟨n, 2 * n⟩ → aug.data.size = 2 * n * n →
      (v.lease (freshPool n)).Ends (fun leased => leased.1.data.size = aug.data.size)
        (fun _ => False) ∧
      ∀ r, (v.lease (freshPool n) >>= fun leased =>
          v.settlePivots n r ⟨{ leased.1 with data := aug.data }, leased.2⟩).Ends
        (fun bench => bench.pool.available = 1) fun _ => True := by
  refine ⟨fun m => ?_, fun aug n => ?_, ends_layOut_settlePivots, ?_⟩
  · refine answersFor_of_accounts (v.invert_eq_recording m) ?_ ?_ ?_
    · exact fun hunfit w => if_neg fun hm => admissible_iff.mp hm hunfit
    · exact fun hfit => accounts_invert inside (admissible_iff.mpr hfit)
    · rintro e (rfl | ⟨r, -, rfl⟩) <;> simp [GridError.name]
  · have hfits : ¬ (aug.shape ≠ ⟨n, 2 * n⟩ ∨ aug.data.size ≠ 2 * n * n) ↔
        aug.Fits (Stage.augmentedShape n) := by
      rw [fits_augmentedShape_iff, not_or, not_not, not_not]
    refine answersFor_of_accounts (v.eliminate_eq_recording aug n) ?_ ?_ ?_
    · exact fun hunfit w => eliminate_of_not_fits fun haug => hfits.mpr haug hunfit
    · exact fun hfit => accounts_eliminate inside (hfits.mp hfit)
    · rintro e ⟨r, -, rfl⟩
      simp [GridError.name]
  · intro aug n hshape hsize
    have haug := fits_augmentedShape_iff.mpr ⟨hshape, hsize⟩
    refine ⟨?_, ends_lease_settlePivots haug⟩
    rw [lease_freshPool]
    exact Run.ends_pure ((Matrix.fits_zeros _).size.trans haug.size.symm)

/-- An engine whose second dispatch returns the error of an empty pool: the inversion ends
in that error, and it is not the driver's own. -/
theorem own_errors_exhausted_engine :
    (Engine.failing 1 .poolExhausted : Engine ℚ).StaysInside ∧
      ((⟨.failing 1 .poolExhausted, 0⟩ : Inverter ℚ).invert ⟨2, 2, #[2, 1, 4, 3]⟩
        (0 : Nat)).result = .error (.error .poolExhausted) ∧
      ¬ ((⟨.failing 1 .poolExhausted, 0⟩ : Inverter ℚ).recording.invert ⟨2, 2, #[2, 1, 4, 3]⟩
        ((0 : Nat), [])).Raises .poolExhausted ∧
      ((⟨.failing 1 .poolExhausted, 0⟩ : Inverter ℚ).lease (freshPool 1)).Ends
        (fun leased => leased.1.data.size = 2) fun _ => False := by
  have hinside : (Engine.failing 1 .poolExhausted : Engine ℚ).StaysInside :=
    Engine.staysInside_failing 1 .poolExhausted
  obtain ⟨hinvert, -, -, hload⟩ :=
    own_errors (v := (⟨.failing 1 .poolExhausted, 0⟩ : Inverter ℚ)) hinside
  refine ⟨hinside, by cbv, fun hraises => ?_, (hload ⟨1, 2, #[5, 1]⟩ 1 rfl rfl).1⟩
  have hfit : ¬ ((2 : Nat) = 0 ∨ (2 : Nat) ≠ 2 ∨ 4 ≠ 2 * 2) := by decide
  rcases (hinvert ⟨2, 2, #[2, 1, 4, 3]⟩).raises hfit (0 : Nat) _ hraises with h | ⟨r, -, h⟩
  · cases h
  · cases h

end Inverter

end GridInversion
