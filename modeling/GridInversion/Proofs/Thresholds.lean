import GridInversion.Proofs.InversionVerdict
import GridInversion.Proofs.ScalarLaws

namespace GridInversion.Inverter

variable {α : Type} [Scalar α] {v w : Inverter α} {n k r : Nat} {a : Cells α} {m : Matrix α}

section Accepted

/-- What an inversion ends in once all its pivots are accepted does not depend on the
threshold any more. -/
theorem invert_result_of_accepts (contract : v.engine.Faithful) (hm : m.HasCells ⟨n, n⟩ a)
    (hn : n ≠ 0) (haccepts : v.Accepts (a.augmented n) n) (s : v.engine.State) :
    (v.invert m s).result =
      if (Matrix.ofFn n n (a.inverse n)).isFinite then .ok (Matrix.ofFn n n (a.inverse n))
      else .error (.error .nonFinite) := by
  have hinverse := Matrix.hasCells_ofFn n n (a.inverse n)
  have hends := ends_invert contract hm hn
  rcases hresult : (v.invert m s).result with fault | x
  · rcases hends.of_result_error hresult with ⟨r, hr, -, hrefuses⟩ | ⟨rfl, -, x, hx, hfinite⟩
    · exact absurd hrefuses (haccepts.not_refusesFirst hr)
    · rw [← hx.ext hinverse fun _ _ _ _ => rfl, hfinite]
      rfl
  · obtain ⟨-, hx, hfinite⟩ := hends.of_result_ok hresult
    rw [← hx.ext hinverse fun _ _ _ _ => rfl, hfinite]
    rfl

theorem eliminate_result_of_accepts (contract : v.engine.Faithful)
    (hm : m.HasCells (Stage.augmentedShape n) a) (haccepts : v.Accepts a n)
    (s : v.engine.State) :
    (v.eliminate m n s).result =
      .ok (Matrix.ofFn n (n * Stage.augmentFactor) (a.settled n)) := by
  have hends := ends_eliminate contract hm
  rcases hresult : (v.eliminate m n s).result with fault | done
  · obtain ⟨r, hr, -, hrefuses⟩ := hends.of_result_error hresult
    exact absurd hrefuses (haccepts.not_refusesFirst hr)
  · rw [(hends.of_result_ok hresult).2.ext (Matrix.hasCells_ofFn _ _ _) fun _ _ _ _ => rfl]

end Accepted

section Ordered

variable [IsTrans α (· ≤ ·)]

theorem refuses_of_epsilon_le (hle : v.epsilon ≤ w.epsilon) {pivot : α}
    (h : v.refuses pivot = true) : w.refuses pivot = true := by
  rw [refuses, Bool.or_eq_true, decide_eq_true_iff] at *
  exact h.imp_right fun hpivot => IsTrans.trans _ _ _ hpivot hle

theorem Accepts.of_epsilon_le (hle : v.epsilon ≤ w.epsilon) (h : w.Accepts a k) :
    v.Accepts a k := by
  intro i hi
  by_contra hrefuses
  rw [Bool.not_eq_false] at hrefuses
  have hlarger := refuses_of_epsilon_le hle hrefuses
  rw [h i hi] at hlarger
  cases hlarger

/-- A larger threshold refuses the pivot that a smaller one refuses, unless it has
refused an earlier one. -/
theorem RefusesFirst.exists_le (hle : v.epsilon ≤ w.epsilon) (h : v.RefusesFirst a r) :
    ∃ r' ≤ r, w.RefusesFirst a r' := by
  have hexists : ∃ i, w.refuses (a.pivot i) = true := ⟨r, refuses_of_epsilon_le hle h.1⟩
  refine ⟨Nat.find hexists, Nat.find_min' hexists (refuses_of_epsilon_le hle h.1),
    Nat.find_spec hexists, ?_⟩
  intro i hi
  exact Bool.eq_false_iff.mpr (Nat.find_min hexists hi)

/-- Under a smaller threshold the run of a matrix differs in nothing but that it may come
further: what ended without a refused pivot ends the same, and a pivot is refused no
earlier. -/
theorem results_of_epsilon_le (contract : v.engine.Faithful) (contract' : w.engine.Faithful)
    (hle : v.epsilon ≤ w.epsilon) (s : v.engine.State) (t : w.engine.State) :
    (∀ (n : Nat) (m : Matrix α), 1 ≤ n → m.WellFormed → m.shape = ⟨n, n⟩ →
      (∀ x, (w.invert m t).result = .ok x → (v.invert m s).result = .ok x) ∧
      ((w.invert m t).result = .error (.error .nonFinite) →
        (v.invert m s).result = .error (.error .nonFinite)) ∧
      ∀ r, (v.invert m s).result = .error (.error (.uninvertible r)) →
        ∃ r' ≤ r, (w.invert m t).result = .error (.error (.uninvertible r'))) ∧
    ∀ (n : Nat) (aug : Matrix α), aug.WellFormed → aug.shape = Stage.augmentedShape n →
      (∀ x, (w.eliminate aug n t).result = .ok x → (v.eliminate aug n s).result = .ok x) ∧
      ∀ r, (v.eliminate aug n s).result = .error (.error (.uninvertible r)) →
        ∃ r' ≤ r, (w.eliminate aug n t).result = .error (.error (.uninvertible r')) := by
  constructor
  · intro n m hn hwell hshape
    have hm := (hwell.fits hshape).hasCells
    have hne : n ≠ 0 := Nat.ne_of_gt hn
    have hsame : w.Accepts (m.cells.augmented n) n →
        (w.invert m t).result = (v.invert m s).result := by
      intro haccepts
      rw [invert_result_of_accepts contract' hm hne haccepts,
        invert_result_of_accepts contract hm hne (haccepts.of_epsilon_le hle)]
    have hends := ends_invert contract' hm hne
    refine ⟨fun x hx => ?_, fun hnonfinite => ?_, fun r hr => ?_⟩
    · rw [← hsame (hends.of_result_ok hx).1, hx]
    · rcases hends.of_result_error hnonfinite with ⟨_, _, hfault, -⟩ | ⟨-, haccepts, -⟩
      · cases hfault
      · rw [← hsame haccepts, hnonfinite]
    · obtain ⟨hlt, hrefuses⟩ := (invert_uninvertible_iff contract hm hne s r).mp hr
      obtain ⟨r', hr', hrefuses'⟩ := hrefuses.exists_le hle
      exact ⟨r', hr', (invert_uninvertible_iff contract' hm hne t r').mpr
        ⟨hr'.trans_lt hlt, hrefuses'⟩⟩
  · intro n aug hwell hshape
    have haug := (hwell.fits hshape).hasCells
    refine ⟨fun x hx => ?_, fun r hr => ?_⟩
    · have haccepts := ((ends_eliminate contract' haug).of_result_ok hx).1
      rw [eliminate_result_of_accepts contract haug (haccepts.of_epsilon_le hle), ← hx,
        eliminate_result_of_accepts contract' haug haccepts]
    · obtain ⟨hlt, hrefuses⟩ := (eliminate_uninvertible_iff contract haug s r).mp hr
      obtain ⟨r', hr', hrefuses'⟩ := hrefuses.exists_le hle
      exact ⟨r', hr', (eliminate_uninvertible_iff contract' haug t r').mpr
        ⟨hr'.trans_lt hlt, hrefuses'⟩⟩

end Ordered

/-- In double precision: a matrix that is inverted, one whose inverse overflows, and one
whose first pivot is zero. -/
theorem results_of_epsilon_le_double :
    (0 : Float) ≤ 1e-250 ∧
    (∃ x, ((⟨.serial, 1e-250⟩ : Inverter Float).invert ⟨2, 2, #[2, 1, 4, 3]⟩ ()).result = .ok x ∧
      ((⟨.serial, 0⟩ : Inverter Float).invert ⟨2, 2, #[2, 1, 4, 3]⟩ ()).result = .ok x) ∧
    ((⟨.serial, 0⟩ : Inverter Float).invert ⟨2, 2, #[1e-200, 1e200, 0, 1]⟩ ()).result =
      .error (.error .nonFinite) ∧
    ∃ r ≤ 0, ((⟨.serial, 1e-250⟩ : Inverter Float).invert ⟨2, 2, #[0, 1, 1, 0]⟩ ()).result =
      .error (.error (.uninvertible r)) := by
  have hle : (0 : Float) ≤ 1e-250 := by decide +kernel
  have hwell : ∀ a b c d : Float, (⟨2, 2, #[a, b, c, d]⟩ : Matrix Float).WellFormed :=
    fun _ _ _ _ => rfl
  have hresults := fun a b c d : Float =>
    (results_of_epsilon_le (v := ⟨.serial, 0⟩) (w := ⟨.serial, 1e-250⟩) Engine.faithful_serial
      Engine.faithful_serial hle () ()).1 2 ⟨2, 2, #[a, b, c, d]⟩ (by decide) (hwell a b c d) rfl
  have herror : ∀ {result : Except Fault (Matrix Float)} {fault : Fault},
      result.map (fun _ => ()) = .error fault → result = .error fault := by
    rintro (fault | x) fault' h
    · cases h
      rfl
    · cases h
  have hinverted : ((⟨.serial, 1e-250⟩ : Inverter Float).invert
      ⟨2, 2, #[2, 1, 4, 3]⟩ ()).result.toBool = true := by decide +kernel
  refine ⟨hle, ?_, (hresults _ _ _ _).2.1 (herror (by decide +kernel)),
    (hresults _ _ _ _).2.2 0 (herror (by decide +kernel))⟩
  rcases hresult : ((⟨.serial, 1e-250⟩ : Inverter Float).invert
      ⟨2, 2, #[2, 1, 4, 3]⟩ ()).result with fault | x
  · rw [hresult] at hinverted
    cases hinverted
  · exact ⟨x, rfl, (hresults _ _ _ _).1 x hresult⟩

end GridInversion.Inverter
