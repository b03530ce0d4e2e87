import GridInversion.Proofs.InversionCourses

namespace GridInversion

variable {α β γ : Type}

/-- What the dispatch returned that ended a run in this fault: nothing, if it was cut short. -/
def Fault.verdicts : Fault → List (Except GridError Unit)
  | error cause => [.error cause]
  | outOfBounds => []

/-- What the dispatches of an inversion of size `n` returned, first to last. -/
def Conclusion.verdicts (n : Nat) : Conclusion α → List (Except GridError Unit)
  | inverted _ => List.replicate (n + 2) (.ok ())
  | overflowed => List.replicate (n + 2) (.ok ())
  | refused r _ => List.replicate (r + 1) (.ok ())
  | failed k fault => List.replicate k (.ok ()) ++ fault.verdicts

def enterVerdict (journal : List (Except GridError Unit)) (verdict : Except GridError Unit) :
    List (Except GridError Unit) :=
  journal ++ [verdict]

namespace Engine

def journaling (engine : Engine α) : Engine α := engine.noting [] enterVerdict

theorem fillBuffer_journaling (engine : Engine α) (grid : Shape) (buffer : Array α)
    (cell : Position → Option α) (s : engine.State)
    (journal : List (Except GridError Unit)) :
    engine.journaling.fillBuffer grid buffer cell (s, journal) =
      match engine.fillBuffer grid buffer cell s with
      | ⟨trace, s', .ok w⟩ => ⟨trace, (s', journal ++ [w.verdict]), .ok w⟩
      | ⟨trace, s', .error fault⟩ => ⟨trace, (s', journal), .error fault⟩ :=
  engine.fillBuffer_noting [] enterVerdict grid buffer cell s journal

end Engine

theorem Engine.Faithful.noting {ω : Type} {engine : Engine α} (h : engine.Faithful) (blank : ω)
    (note : ω → Except GridError Unit → ω) : (engine.noting blank note).Faithful := by
  rintro grid buffer cell a hsize hcell ⟨s, notes⟩
  have hfill := h grid buffer cell a hsize hcell s
  rw [fillBuffer_noting]
  rcases hs : engine.fillBuffer grid buffer cell s with ⟨trace, s', fault | w⟩
  · rwa [hs] at hfill
  · rwa [hs] at hfill

namespace Inverter

def journaling (v : Inverter α) : Inverter α := ⟨v.engine.journaling, v.epsilon⟩

variable [Scalar α]

def verdicts (v : Inverter α) (m : Matrix α) (s : v.engine.State) :
    List (Except GridError Unit) :=
  (v.journaling.invert m (s, [])).state.2

/-- The inversion of `m` from the state `s` of the engine ends as `conclusion` says. -/
structure Concludes (v : Inverter α) (m : Matrix α) (s : v.engine.State)
    (conclusion : Conclusion α) : Prop where
  result : (v.invert m s).result = conclusion.result
  verdicts : v.verdicts m s = conclusion.verdicts m.rows
  /-- The refused pivot is the diagonal cell of the matrix after the earlier passes. -/
  pivot : ∀ r pivot, conclusion = .refused r pivot → r < m.rows ∧ v.refuses pivot = true ∧
    ∃ bench, ((v.layOut m >>= v.settlePivots m.rows r) s).result = .ok bench ∧
      bench.current.read r r = .ok pivot

section Journal

variable {m current x : Matrix α} {n k r : Nat} {t : Trace α}

theorem journal_of_run_ok {engine : Engine α} {pass : Pass α} {s s' : engine.journaling.State}
    (hadmission : pass.admission = .ok ())
    (h : pass.run engine.journaling s = ⟨t, s', .ok x⟩) : s'.2 = s.2 ++ [.ok ()] := by
  obtain ⟨s, journal⟩ := s
  rw [Pass.run_eq_fillBuffer _ hadmission] at h
  obtain ⟨_, _, ⟨out, verdict⟩, _, hfill, haccept, -⟩ := Run.bind_eq_ok h
  rw [Engine.fillBuffer_journaling] at hfill
  split at hfill
  · cases hfill
    rcases verdict with e | _
    · cases haccept
    · cases haccept
      rfl
  · cases hfill

theorem journal_of_run_error {engine : Engine α} {pass : Pass α}
    {s s' : engine.journaling.State} {fault : Fault} (hadmission : pass.admission = .ok ())
    (h : pass.run engine.journaling s = ⟨t, s', .error fault⟩) :
    s'.2 = s.2 ++ fault.verdicts := by
  obtain ⟨s, journal⟩ := s
  rw [Pass.run_eq_fillBuffer _ hadmission] at h
  rcases Run.bind_eq_error h with hfill | ⟨_, _, ⟨out, verdict⟩, _, hfill, haccept, -⟩
  · have hbounds : fault = .outOfBounds :=
      (engine.journaling.ends_fillBuffer_outOfBounds _ _ _).of_result_error
        (congrArg Outcome.result hfill)
    rw [Engine.fillBuffer_journaling] at hfill
    split at hfill
    · cases hfill
    · cases hfill
      subst hbounds
      exact (List.append_nil journal).symm
  · rw [Engine.fillBuffer_journaling] at hfill
    split at hfill
    · cases hfill
      rcases verdict with e | _
      · cases haccept
        rfl
      · cases haccept
    · cases hfill

variable {v : Inverter α} {s s' : v.journaling.engine.State}

theorem journal_of_settleAllAfresh (hm : m.Fits (Stage.augmentedShape n)) (hk : k ≤ n)
    (h : v.journaling.settleAllAfresh n k m s = ⟨t, s', .ok current⟩) :
    s'.2 = s.2 ++ List.replicate k (.ok ()) := by
  induction k generalizing t s' current with
  | zero =>
      cases h
      exact (List.append_nil _).symm
  | succ k ih =>
      rw [settleAllAfresh_succ] at h
      obtain ⟨t₁, s₁, earlier, t₂, hsettled, hstep, -⟩ := Run.bind_eq_ok h
      have hearlier := settleAllAfresh_fits hm hsettled
      obtain ⟨t₃, hpass, -⟩ := settleAfresh_eq_ok hearlier hk hstep
      rw [journal_of_run_ok (Pass.admission_eliminate hearlier hk) hpass,
        ih (Nat.le_of_succ_le hk) hsettled, List.append_assoc, List.replicate_succ']

theorem journal_of_advance (hm : Admissible m) (hr : r ≤ m.rows)
    (h : v.journaling.advance m r s = ⟨t, s', .ok current⟩) :
    s'.2 = s.2 ++ List.replicate (r + 1) (.ok ()) := by
  obtain ⟨t₁, s₁, aug, t₂, haugment, hsettle, -⟩ := Run.bind_eq_ok h
  rw [journal_of_settleAllAfresh (augment_fits haugment) hr hsettle,
    journal_of_run_ok (Pass.admission_augment hm.fits hm.1) haugment, List.append_assoc,
    List.replicate_succ]
  rfl

theorem journal_of_extract (hm : Admissible m) {done inverse : Matrix α}
    {s₁ : v.journaling.engine.State} {t₁ t₂ : Trace α}
    (hreached : v.journaling.advance m m.rows s = ⟨t₁, s₁, .ok done⟩)
    (hpass : (Pass.extract done m.rows).run v.journaling.engine s₁ = ⟨t₂, s', .ok inverse⟩) :
    s'.2 = s.2 ++ List.replicate (m.rows + 2) (.ok ()) := by
  rw [journal_of_run_ok (Pass.requireAugmented_eq_ok (advance_fits hreached)) hpass,
    journal_of_advance hm (Nat.le_refl _) hreached, List.append_assoc, ← List.replicate_succ']

theorem Course.journal_eq (hm : Admissible m) {c : Conclusion α}
    {o : Outcome v.journaling.engine.State α (Matrix α)} (h : v.journaling.Course m s c o) :
    o.state.2 = s.2 ++ c.verdicts m.rows := by
  cases h with
  | augmentFailed hpass => exact journal_of_run_error (Pass.admission_augment hm.fits hm.1) hpass
  | refused hr hreached hread hrefuses => exact journal_of_advance hm (Nat.le_of_lt hr) hreached
  | eliminateFailed hr hreached hpass =>
      have hadmission := Pass.admission_eliminate (advance_fits hreached) hr
      rw [journal_of_run_error hadmission hpass,
        journal_of_advance hm (Nat.le_of_lt hr) hreached, List.append_assoc]
      rfl
  | extractFailed hreached hpass =>
      have hadmission := Pass.requireAugmented_eq_ok (advance_fits hreached)
      rw [journal_of_run_error hadmission hpass,
        journal_of_advance hm (Nat.le_refl _) hreached, List.append_assoc]
      rfl
  | overflowed hreached hpass => exact journal_of_extract hm hreached hpass
  | inverted hreached hpass => exact journal_of_extract hm hreached hpass

end Journal

variable (v : Inverter α) {m : Matrix α}

theorem result_advance_journaling (m : Matrix α) (r : Nat) (s : v.engine.State) :
    (v.advance m r s).result = (v.journaling.advance m r (s, [])).result := by
  have halike := related_advance (v := v) (w := v.journaling)
    (R := (Comparison.projected v.journaling.engine.State α Prod.fst).relation) rfl
    (v.alike_run_noting [] enterVerdict) m r
  rw [Comparison.Alike.apply_eq halike (s, [])]

theorem exists_concludes (hm : Admissible m) (s : v.engine.State) :
    ∃ c, v.Concludes m s c ∧ (v.engine.Faithful → ∀ k fault, c ≠ .failed k fault) ∧
      ∀ {γ : Type} (view : View v.engine γ),
        view.see (v.invert m s).trace =
          view.dispatch (Stage.augmentedShape m.rows) ++
            view.settling m.rows (c.settled m.rows) ++
              (c.unsettled m.rows).flatMap view.dispatch ++
                view.see (c.closing m.rows v.epsilon) := by
  obtain ⟨c, hcourse⟩ := exists_course (v := v.journaling) hm (s, [])
  -- The journal changes nothing, so the course with a journal is the course of `v` itself.
  have hsame := v.invert_eq_noting [] enterVerdict m s []
  refine ⟨c, ⟨?_, hcourse.journal_eq hm, ?_⟩, fun contract => ?_, fun view => ?_⟩
  · rw [hsame]
    exact hcourse.result_eq
  · rintro r pivot rfl
    obtain ⟨hr, hrefuses, current, hreached, hread⟩ := hcourse.pivot_eq
    refine ⟨hr, hrefuses, ⟨current, spare m.rows⟩, ?_, hread⟩
    rw [← v.result_advance_journaling] at hreached
    rw [layOut_bind_settlePivots, map_eq_pure_bind]
    rcases hs : v.advance m r s with ⟨t, s', result⟩
    rw [hs] at hreached
    simp only at hreached
    rw [hreached] at hs
    rw [Run.bind_apply_ok hs]
    rfl
  · exact hcourse.ne_failed (contract.noting _ _) hm
  · rw [hsame]
    exact hcourse.see_eq (view.noting [] enterVerdict) hm

end Inverter

end GridInversion
