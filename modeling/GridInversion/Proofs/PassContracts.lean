import Mathlib.Algebra.Group.Ext
import GridInversion.Proofs.ExactField
import GridInversion.Proofs.InversionVerdict

namespace GridInversion

/-- A condition on a call, with the error that answers a call which does not meet it. -/
structure Requirement where
  holds : Prop
  error : GridError

def Requirement.ofShape {α : Type} (m : Matrix α) (s : Shape) : Requirement :=
  ⟨m.WellFormed ∧ m.shape = s, .shapeMismatch s m.shape⟩

/-- The error belongs to the first requirement of a list that is not met. -/
inductive FirstUnmet : List Requirement → GridError → Prop
  | here {r : Requirement} {rest : List Requirement} (unmet : ¬ r.holds) :
      FirstUnmet (r :: rest) r.error
  | later {r : Requirement} {rest : List Requirement} {e : GridError} (met : r.holds)
      (next : FirstUnmet rest e) : FirstUnmet (r :: rest) e

namespace FirstUnmet

variable {requirements rest : List Requirement} {e : GridError}

theorem not_all (h : FirstUnmet requirements e) : ¬ ∀ r ∈ requirements, r.holds := by
  induction h with
  | here unmet => exact fun hall => unmet (hall _ List.mem_cons_self)
  | later met next ih => exact fun hall => ih fun r hr => hall r (List.mem_cons_of_mem _ hr)

theorem unique {e' : GridError} (h : FirstUnmet requirements e)
    (h' : FirstUnmet requirements e') : e = e' := by
  induction h with
  | here unmet =>
      cases h' with
      | here _ => rfl
      | later met _ => exact absurd met unmet
  | later met _ ih =>
      cases h' with
      | here unmet => exact absurd met unmet
      | later _ next => exact ih next

theorem append_right (h : FirstUnmet requirements e) (rest : List Requirement) :
    FirstUnmet (requirements ++ rest) e := by
  induction h with
  | here unmet => exact .here unmet
  | later met next ih => exact .later met ih

theorem append_left (hall : ∀ r ∈ requirements, r.holds) (h : FirstUnmet rest e) :
    FirstUnmet (requirements ++ rest) e := by
  induction requirements with
  | nil => exact h
  | cons r requirements ih =>
      refine .later (hall r List.mem_cons_self) (ih fun r' hr' => ?_)
      exact hall r' (List.mem_cons_of_mem r hr')

end FirstUnmet

theorem Matrix.fits_iff {α : Type} {m : Matrix α} {s : Shape} :
    m.Fits s ↔ m.WellFormed ∧ m.shape = s :=
  ⟨fun h => ⟨h.wellFormed, h.shape⟩, fun h => h.1.fits h.2⟩

namespace Pass

variable {α : Type} {pass : Pass α} {engine : Engine α} {out : Matrix α}
  {requirements input : List Requirement} {e : GridError}

/-- What the checks of a pass say of its input is decided by a list of requirements. -/
def Admits (pass : Pass α) (input : List Requirement) : Prop :=
  (pass.admission = .ok () ∧ ∀ r ∈ input, r.holds) ∨
    ∃ e, pass.admission = .error e ∧ FirstUnmet input e

theorem Admits.admission_eq_ok (h : pass.Admits input) (hall : ∀ r ∈ input, r.holds) :
    pass.admission = .ok () := by
  rcases h with ⟨hadmission, -⟩ | ⟨e, -, hfirst⟩
  · exact hadmission
  · exact absurd hall hfirst.not_all

theorem Admits.admission_eq_error (h : pass.Admits input) (hfirst : FirstUnmet input e) :
    pass.admission = .error e := by
  rcases h with ⟨-, hall⟩ | ⟨e', hadmission, hfirst'⟩
  · exact absurd hall hfirst.not_all
  · rw [hfirst.unique hfirst', hadmission]

theorem runInto_of_admission_error (h : pass.admission = .error e) (s : engine.State) :
    pass.runInto engine out s = ⟨[], s, .ok ⟨out, .error e⟩⟩ := by
  rw [runInto, h]
  rfl

theorem runInto_of_not_fits (h : pass.admission = .ok ()) (hout : ¬ out.Fits pass.grid)
    (s : engine.State) :
    pass.runInto engine out s =
      ⟨[], s, .ok ⟨out, .error (.shapeMismatch pass.grid out.shape)⟩⟩ := by
  rw [runInto, h]
  simp only
  rw [Engine.fillMatrix, if_neg fun hsame => hout ⟨hsame.1, hsame.2⟩]
  rfl

section Cells

variable {a : Cells α}

/-- What a pass into a given matrix promises: it succeeds if all requirements are met, and then
the matrix has its shape still and the cells `a`.  Otherwise it answers with the error of the
first one that is not, nothing is dispatched, and the matrix and the engine are as before. -/
structure Honours (pass : Pass α) (engine : Engine α) (out : Matrix α)
    (requirements : List Requirement) (a : Cells α) : Prop where
  succeeds_iff : ∀ s,
    (∃ filled, (pass.runInto engine out s).result = .ok ⟨filled, .ok ()⟩) ↔
      ∀ r ∈ requirements, r.holds
  fills : ∀ s filled, (pass.runInto engine out s).result = .ok ⟨filled, .ok ()⟩ →
    filled.HasCells out.shape a
  refuses : (¬ ∀ r ∈ requirements, r.holds) → ∃ e, FirstUnmet requirements e ∧
    ∀ s, pass.runInto engine out s = ⟨[], s, .ok ⟨out, .error e⟩⟩

theorem honours_of_refused (hfirst : FirstUnmet requirements e)
    (hrun : ∀ s, pass.runInto engine out s = ⟨[], s, .ok ⟨out, .error e⟩⟩) :
    pass.Honours engine out requirements a := by
  have hfailed : ∀ s filled,
      (pass.runInto engine out s).result ≠ .ok ⟨filled, .ok ()⟩ := by
    intro s filled hresult
    rw [hrun] at hresult
    cases hresult
  refine ⟨fun s => ⟨?_, fun hall => absurd hall hfirst.not_all⟩,
    fun s filled hresult => absurd hresult (hfailed s filled), fun _ => ⟨e, hfirst, hrun⟩⟩
  rintro ⟨filled, hresult⟩
  exact absurd hresult (hfailed s filled)

theorem honours_of_filled (hall : ∀ r ∈ requirements, r.holds)
    (hends : (pass.runInto engine out).Ends
      (fun w => w.verdict = .ok () ∧ w.out.HasCells out.shape a) fun _ => False) :
    pass.Honours engine out requirements a := by
  refine ⟨fun s => ⟨fun _ => hall, fun _ => ?_⟩, fun s filled hresult => ?_,
    fun hunmet => absurd hall hunmet⟩
  · obtain ⟨⟨filled, verdict⟩, hresult, hverdict, -⟩ := hends.exists_result s
    simp only at hverdict
    rw [hverdict] at hresult
    exact ⟨filled, hresult⟩
  · exact (hends.of_result_ok hresult).2

/-- On a faithful engine a pass keeps its promise, if it looks at the shape of the matrix that it
is to fill after all the requirements on its input. -/
theorem honours (contract : engine.Faithful) (hadmits : pass.Admits input)
    (hcell : (∀ r ∈ input, r.holds) →
      ∀ p, pass.grid.Contains p → pass.cell p = some (a p.y p.x)) :
    pass.Honours engine out (input ++ [.ofShape out pass.grid]) a := by
  rcases hadmits with ⟨hadmission, hall⟩ | ⟨e, hadmission, hfirst⟩
  · by_cases hout : out.Fits pass.grid
    · refine honours_of_filled (fun r hr => ?_) ?_
      · rcases List.mem_append.mp hr with hinput | hlast
        · exact hall r hinput
        · rw [List.mem_singleton.mp hlast]
          exact Matrix.fits_iff.mp hout
      · rw [runInto, hadmission, hout.shape]
        exact contract.ends_fillMatrix hout (hcell hall)
    · refine honours_of_refused (.append_left hall (.here ?_)) (runInto_of_not_fits hadmission hout)
      exact fun hfits => hout (Matrix.fits_iff.mpr hfits)
  · exact honours_of_refused (hfirst.append_right _) (runInto_of_admission_error hadmission)

end Cells

theorem admits_extract (m : Matrix α) (n : Nat) :
    (extract m n).Admits [.ofShape m (Stage.augmentedShape n)] := by
  by_cases hm : m.Fits (Stage.augmentedShape n)
  · exact .inl ⟨requireAugmented_eq_ok hm, List.forall_mem_singleton.mpr (Matrix.fits_iff.mp hm)⟩
  · refine .inr ⟨_, requireAugmented_of_not_fits hm, .here ?_⟩
    exact fun hfits => hm (Matrix.fits_iff.mpr hfits)

variable [Scalar α]

theorem admits_augment (m : Matrix α) (n : Nat) :
    (augment m n).Admits [⟨1 ≤ n ∧ m.shape = ⟨n, n⟩, .invalidShape m.shape⟩] := by
  have hguard : (n = 0 ∨ m.rows ≠ m.cols ∨ m.rows ≠ n) ↔ ¬ (1 ≤ n ∧ m.shape = ⟨n, n⟩) := by
    rw [Matrix.shape, Shape.mk.injEq]
    omega
  by_cases hinput : 1 ≤ n ∧ m.shape = ⟨n, n⟩
  · refine .inl ⟨?_, List.forall_mem_singleton.mpr hinput⟩
    exact if_neg fun h => hguard.mp h hinput
  · exact .inr ⟨_, if_pos (hguard.mpr hinput), .here hinput⟩

theorem admits_eliminate (m : Matrix α) (n r : Nat) :
    (eliminate m n r).Admits
      [.ofShape m (Stage.augmentedShape n), ⟨r < n, .pivotOutOfRange r n⟩] := by
  by_cases hm : m.Fits (Stage.augmentedShape n)
  · have hadmission : (eliminate m n r).admission =
        if r < n then .ok () else .error (.pivotOutOfRange r n) := by
      rw [eliminate, requireAugmented_eq_ok hm]
      rfl
    have hinput := Matrix.fits_iff.mp hm
    by_cases hr : r < n
    · refine .inl ⟨hadmission.trans (if_pos hr), fun q hq => ?_⟩
      rcases List.mem_pair.mp hq with rfl | rfl
      · exact hinput
      · exact hr
    · exact .inr ⟨_, hadmission.trans (if_neg hr), .later hinput (.here hr)⟩
  · refine .inr ⟨.shapeMismatch (Stage.augmentedShape n) m.shape, ?_, .here ?_⟩
    · rw [eliminate, requireAugmented_of_not_fits hm]
      rfl
    · exact fun hfits => hm (Matrix.fits_iff.mpr hfits)

end Pass

end GridInversion
