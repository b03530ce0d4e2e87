import Mathlib.Tactic.IntervalCases
import GridInversion.Proofs.LeadingBlocks
import GridInversion.Proofs.ScalarLaws

namespace GridInversion

namespace Inverter

variable {α : Type} [Scalar α] {v w : Inverter α} {n : Nat}

/-- The right half of an augmented matrix has no say in whether its elimination succeeds,
nor in the left half of what comes out, and each of its columns depends on the left half
and on itself only. -/
theorem right_columns_apart (contract : v.engine.Faithful) (contract' : w.engine.Faithful)
    (hepsilon : v.epsilon = w.epsilon) {aug aug' : Matrix α} (hwell : aug.WellFormed)
    (hshape : aug.shape = Stage.augmentedShape n) (hwell' : aug'.WellFormed)
    (hshape' : aug'.shape = Stage.augmentedShape n)
    (hleft : ∀ y < n, ∀ x < n, aug.read? y x = aug'.read? y x) (s : v.engine.State)
    (t : w.engine.State) :
    (∃ e, (v.eliminate aug n s).result = .error (.error e) ∧
      (w.eliminate aug' n t).result = .error (.error e)) ∨
    ∃ done done', (v.eliminate aug n s).result = .ok done ∧
      (w.eliminate aug' n t).result = .ok done' ∧
      done.Fits (Stage.augmentedShape n) ∧ done'.Fits (Stage.augmentedShape n) ∧
      (∀ y < n, ∀ x < n, done.read? y x = done'.read? y x) ∧
      ∀ c, n ≤ c → c < 2 * n → (∀ y < n, aug.read? y c = aug'.read? y c) →
        ∀ y < n, done.read? y c = done'.read? y c := by
  have haug := (hwell.fits hshape).hasCells
  have haug' := (hwell'.fits hshape').hasCells
  have hagree : Cells.AgreeWithin n aug.cells aug'.cells := by
    intro y hy x hx
    rw [Matrix.cells, Matrix.cells, hleft y hy x hx]
  have hrefuses : ∀ r < n, v.RefusesFirst aug.cells r ↔ w.RefusesFirst aug'.cells r :=
    fun r hr => refusesFirst_congr hepsilon fun y hy x hx =>
      hagree y (Nat.lt_of_lt_of_le hy hr) x (Nat.lt_of_lt_of_le hx hr)
  rcases hv : (v.eliminate aug n s).result with fault | done
  · obtain ⟨r, hr, rfl, hrefused⟩ := (ends_eliminate contract haug).of_result_error hv
    refine Or.inl ⟨.uninvertible r, rfl, ?_⟩
    exact (eliminate_uninvertible_iff contract' haug' t r).mpr ⟨hr, (hrefuses r hr).mp hrefused⟩
  · obtain ⟨haccepts, hdone⟩ := (ends_eliminate contract haug).of_result_ok hv
    rcases hw : (w.eliminate aug' n t).result with fault | done'
    · obtain ⟨r, hr, -, hrefused⟩ := (ends_eliminate contract' haug').of_result_error hw
      exact absurd ((hrefuses r hr).mpr hrefused) (haccepts.not_refusesFirst hr)
    · obtain ⟨-, hdone'⟩ := (ends_eliminate contract' haug').of_result_ok hw
      have hcolumn : ∀ c, c < 2 * n → (∀ y < n, aug.cells y c = aug'.cells y c) →
          ∀ y < n, done.read? y c = done'.read? y c := by
        intro c hc hsame y hy
        have hon : Cells.AgreeOn n (fun x => x < n ∨ x = c) aug.cells aug'.cells := by
          rintro y hy x (hx | rfl)
          · exact hagree y hy x hx
          · exact hsame y hy
        have hcols : c < (Stage.augmentedShape n).cols := by
          rw [Stage.augmentedShape_cols]
          omega
        rw [hdone.read hy hcols, hdone'.read hy hcols,
          hon.settled (Nat.le_refl n) (fun r hr => Or.inl hr) y hy c (Or.inr rfl)]
      refine Or.inr ⟨done, done', rfl, rfl, hdone.toFits, hdone'.toFits, ?_, ?_⟩
      · intro y hy x hx
        exact hcolumn x (by omega) (fun z hz => hagree z hz x hx) y hy
      · intro c _ hc hsame y hy
        refine hcolumn c hc (fun z hz => ?_) y hy
        rw [Matrix.cells, Matrix.cells, hsame z hz]

/-- One right half is the identity; the other has the same first column, and an infinity
and a value that is not a number in the second. -/
theorem right_columns_apart_overflowing :
    (∀ y < 2, ∀ x < 2, (⟨2, 4, #[2, 1, 1, 0, 4, 3, 0, 1]⟩ : Matrix Float).read? y x =
      (⟨2, 4, #[2, 1, 1, 1 / 0, 4, 3, 0, 0 / 0]⟩ : Matrix Float).read? y x) ∧
    ∃ done done',
      ((⟨.serial, 1e-12⟩ : Inverter Float).eliminate ⟨2, 4, #[2, 1, 1, 0, 4, 3, 0, 1]⟩ 2
        ()).result = .ok done ∧
      ((⟨.backwards, 1e-12⟩ : Inverter Float).eliminate
        ⟨2, 4, #[2, 1, 1, 1 / 0, 4, 3, 0, 0 / 0]⟩ 2 ()).result = .ok done' ∧
      ∀ y < 2, done.read? y 2 = done'.read? y 2 := by
  have hleft : ∀ y < 2, ∀ x < 2,
      (⟨2, 4, #[2, 1, 1, 0, 4, 3, 0, 1]⟩ : Matrix Float).read? y x =
        (⟨2, 4, #[2, 1, 1, 1 / 0, 4, 3, 0, 0 / 0]⟩ : Matrix Float).read? y x := by
    intro y hy x hx
    interval_cases y <;> interval_cases x <;> rfl
  have hcolumn : ∀ y < 2, (⟨2, 4, #[2, 1, 1, 0, 4, 3, 0, 1]⟩ : Matrix Float).read? y 2 =
      (⟨2, 4, #[2, 1, 1, 1 / 0, 4, 3, 0, 0 / 0]⟩ : Matrix Float).read? y 2 := by
    intro y hy
    interval_cases y <;> rfl
  have hinverted : ((⟨.serial, 1e-12⟩ : Inverter Float).eliminate
      ⟨2, 4, #[2, 1, 1, 0, 4, 3, 0, 1]⟩ 2 ()).result.toBool = true := by decide +kernel
  have hwell : (⟨2, 4, #[2, 1, 1, 0, 4, 3, 0, 1]⟩ : Matrix Float).WellFormed := rfl
  have hwell' : (⟨2, 4, #[2, 1, 1, 1 / 0, 4, 3, 0, 0 / 0]⟩ : Matrix Float).WellFormed := rfl
  refine ⟨hleft, ?_⟩
  rcases right_columns_apart (v := ⟨.serial, 1e-12⟩) (w := ⟨.backwards, 1e-12⟩)
    Engine.faithful_serial Engine.faithful_backwards rfl (n := 2) hwell rfl hwell' rfl hleft () ()
    with ⟨e, herror, -⟩ | ⟨done, done', hdone, hdone', -, -, -, hagree⟩
  · rw [herror] at hinverted
    cases hinverted
  · exact ⟨done, done', hdone, hdone', hagree 2 (by decide) (by decide) hcolumn⟩

end Inverter

end GridInversion
