import GridInversion.Proofs.InversionVerdict
import GridInversion.Proofs.TraceViews

namespace GridInversion

/-- How the inversion of an admissible matrix can end. -/
inductive Conclusion (α : Type) where
  | inverted (inverse : Matrix α)
  | overflowed
  /-- The inverter refused pivot `r`, which has this value. -/
  | refused (r : Nat) (pivot : α)
  /-- Dispatch number `k`, from zero, returned an error or was cut short. -/
  | failed (k : Nat) (fault : Fault)

namespace Conclusion

variable {α : Type}

def result : Conclusion α → Except Fault (Matrix α)
  | inverted inverse => .ok inverse
  | overflowed => .error (.error .nonFinite)
  | refused r _ => .error (.error (.uninvertible r))
  | failed _ fault => .error fault

/-- How many pivots of a matrix of size `n` are settled before. -/
@[simp] def settled (n : Nat) : Conclusion α → Nat
  | inverted _ => n
  | overflowed => n
  | refused r _ => r
  | failed k _ => k - 1

/-- The grids of the dispatches after the last pivot was settled. -/
@[simp] def unsettled (n : Nat) : Conclusion α → List Shape
  | inverted _ => [⟨n, n⟩]
  | overflowed => [⟨n, n⟩]
  | refused _ _ => []
  | failed 0 _ => []
  | failed (k + 1) _ => [if k < n then Stage.augmentedShape n else ⟨n, n⟩]

@[simp] def closing (n : Nat) (epsilon : α) : Conclusion α → Trace α
  | inverted _ => [.reported (.inverted n)]
  | overflowed => [.reported (.overflowed n)]
  | refused r pivot => [.reported (.pivotRejected r pivot epsilon)]
  | failed _ _ => []

end Conclusion

namespace Inverter

variable {α γ : Type} [Scalar α] (v : Inverter α)

/-- The inversion of `m` up to the augmented matrix with `r` pivots settled. -/
def advance (m : Matrix α) (r : Nat) : Run v.engine.State α (Matrix α) :=
  (Pass.augment m m.rows).run v.engine >>= v.settleAllAfresh m.rows r

theorem layOut_bind_settlePivots (m : Matrix α) (r : Nat) :
    v.layOut m >>= v.settlePivots m.rows r =
      (fun aug => ⟨aug, spare m.rows⟩) <$> v.advance m r := by
  rw [layOut_eq, bind_map_left, advance, map_bind]
  apply ((Pass.augment m m.rows).ends_run_fits v.engine).bind_congr
  intro aug haug
  exact v.settlePivots_spare m.rows r haug

variable {v} {m current next : Matrix α} {n k r : Nat} {s s' : v.engine.State} {t : Trace α}
  {fault : Fault} {pivot : α}

theorem related_advance {w : Inverter α} {R : RunRelation v.engine.State w.engine.State α}
    (hepsilon : v.epsilon = w.epsilon)
    (hpass : ∀ pass : Pass α, R.Related (pass.run v.engine) (pass.run w.engine)) (m : Matrix α)
    (r : Nat) : R.Related (v.advance m r) (w.advance m r) :=
  R.bind (hpass _) fun aug => related_settleAllAfresh hepsilon hpass m.rows r aug

theorem checkPivot_apply (hread : current.read r r = .ok pivot) (s : v.engine.State) :
    v.checkPivot current r s =
      if v.refuses pivot then
        ⟨[.reported (.pivotRejected r pivot v.epsilon)], s, .error (.error (.uninvertible r))⟩
      else ⟨[], s, .ok ()⟩ := by
  unfold checkPivot
  rw [hread, Run.ofExcept_ok, pure_bind]
  split <;> rfl

variable (v) in
/-- How the settling of pivot `r` stops an inversion. -/
inductive Stops (n r : Nat) (current : Matrix α) (s : v.engine.State) :
    Outcome v.engine.State α (Matrix α) → Prop
  | refused {pivot : α} (hread : current.read r r = .ok pivot)
      (hrefuses : v.refuses pivot = true) :
      Stops n r current s
        ⟨[.reported (.pivotRejected r pivot v.epsilon)], s, .error (.error (.uninvertible r))⟩
  | failed {t : Trace α} {s' : v.engine.State} {fault : Fault}
      (hpass : (Pass.eliminate current n r).run v.engine s = ⟨t, s', .error fault⟩) :
      Stops n r current s ⟨t, s', .error fault⟩

theorem read_diagonal (hcurrent : current.Fits (Stage.augmentedShape n)) (hr : r < n) :
    current.read r r = .ok (current.cells r r) := by
  rw [Matrix.read, hcurrent.hasCells.read hr (Pass.lt_augmentedShape_cols hr),
    boundsChecked_some]

theorem stops_of_settleAfresh (hcurrent : current.Fits (Stage.augmentedShape n)) (hr : r < n)
    (h : v.settleAfresh n current r s = ⟨t, s', .error fault⟩) :
    v.Stops n r current s ⟨t, s', .error fault⟩ := by
  have hread := read_diagonal hcurrent hr
  rcases Run.bind_eq_error h with hcheck | ⟨t₁, s₁, _, t₂, hcheck, hrest, rfl⟩
  · rw [checkPivot_apply hread] at hcheck
    split at hcheck
    · rename_i hrefuses
      cases hcheck
      exact .refused hread hrefuses
    · cases hcheck
  · rw [checkPivot_apply hread] at hcheck
    split at hcheck
    · cases hcheck
    · cases hcheck
      rcases Run.bind_eq_error hrest with hpass | ⟨_, _, _, _, -, hreport, -⟩
      · exact .failed hpass
      · cases hreport

theorem settleAfresh_eq_ok (hcurrent : current.Fits (Stage.augmentedShape n)) (hr : r < n)
    (h : v.settleAfresh n current r s = ⟨t, s', .ok next⟩) :
    ∃ t₁, (Pass.eliminate current n r).run v.engine s = ⟨t₁, s', .ok next⟩ ∧
      t = t₁ ++ [.reported (.pivotSettled (r + 1) n)] := by
  obtain ⟨t₁, s₁, _, t₂, hcheck, hrest, rfl⟩ := Run.bind_eq_ok h
  rw [checkPivot_apply (read_diagonal hcurrent hr)] at hcheck
  split at hcheck
  · cases hcheck
  · cases hcheck
    obtain ⟨t₃, s₃, _, t₄, hpass, hreport, rfl⟩ := Run.bind_eq_ok hrest
    cases hreport
    exact ⟨t₃, hpass, rfl⟩

theorem augment_fits {aug : Matrix α}
    (h : (Pass.augment m m.rows).run v.engine s = ⟨t, s', .ok aug⟩) :
    aug.Fits (Stage.augmentedShape m.rows) :=
  ((Pass.augment m m.rows).ends_run_fits v.engine).of_result_ok (congrArg Outcome.result h)

theorem settleAllAfresh_fits (hm : m.Fits (Stage.augmentedShape n))
    (h : v.settleAllAfresh n k m s = ⟨t, s', .ok current⟩) :
    current.Fits (Stage.augmentedShape n) :=
  (v.ends_settleAllAfresh_fits n k hm).of_result_ok (congrArg Outcome.result h)

theorem exists_stops (hm : m.Fits (Stage.augmentedShape n)) (hk : k ≤ n)
    (h : v.settleAllAfresh n k m s = ⟨t, s', .error fault⟩) :
    ∃ r < k, ∃ t₁ s₁ current t₂, v.settleAllAfresh n r m s = ⟨t₁, s₁, .ok current⟩ ∧
      v.Stops n r current s₁ ⟨t₂, s', .error fault⟩ ∧ t = t₁ ++ t₂ := by
  induction k generalizing t s' fault with
  | zero => cases h
  | succ k ih =>
      rw [settleAllAfresh_succ] at h
      rcases Run.bind_eq_error h with hearlier | ⟨t₁, s₁, current, t₂, hsettled, hstep, rfl⟩
      · obtain ⟨r, hr, hstops⟩ := ih (Nat.le_of_succ_le hk) hearlier
        exact ⟨r, Nat.lt_succ_of_lt hr, hstops⟩
      · have hcurrent := settleAllAfresh_fits hm hsettled
        exact ⟨k, Nat.lt_succ_self k, t₁, s₁, current, t₂, hsettled,
          stops_of_settleAfresh hcurrent hk hstep, rfl⟩

variable (v) in
/-- The courses that the inversion of an admissible matrix can take, by their conclusions. -/
inductive Course (m : Matrix α) (s : v.engine.State) :
    Conclusion α → Outcome v.engine.State α (Matrix α) → Prop
  | augmentFailed {t : Trace α} {s' : v.engine.State} {fault : Fault}
      (hpass : (Pass.augment m m.rows).run v.engine s = ⟨t, s', .error fault⟩) :
      Course m s (.failed 0 fault) ⟨t, s', .error fault⟩
  | refused {r : Nat} {t : Trace α} {s' : v.engine.State} {current : Matrix α} {pivot : α}
      (hr : r < m.rows) (hreached : v.advance m r s = ⟨t, s', .ok current⟩)
      (hread : current.read r r = .ok pivot) (hrefuses : v.refuses pivot = true) :
      Course m s (.refused r pivot)
        ⟨t ++ [.reported (.pivotRejected r pivot v.epsilon)], s',
          .error (.error (.uninvertible r))⟩
  | eliminateFailed {r : Nat} {t₁ t₂ : Trace α} {s₁ s' : v.engine.State} {current : Matrix α}
      {fault : Fault} (hr : r < m.rows) (hreached : v.advance m r s = ⟨t₁, s₁, .ok current⟩)
      (hpass : (Pass.eliminate current m.rows r).run v.engine s₁ = ⟨t₂, s', .error fault⟩) :
      Course m s (.failed (r + 1) fault) ⟨t₁ ++ t₂, s', .error fault⟩
  | extractFailed {t₁ t₂ : Trace α} {s₁ s' : v.engine.State} {done : Matrix α} {fault : Fault}
      (hreached : v.advance m m.rows s = ⟨t₁, s₁, .ok done⟩)
      (hpass : (Pass.extract done m.rows).run v.engine s₁ = ⟨t₂, s', .error fault⟩) :
      Course m s (.failed (m.rows + 1) fault) ⟨t₁ ++ t₂, s', .error fault⟩
  | overflowed {t₁ t₂ : Trace α} {s₁ s' : v.engine.State} {done inverse : Matrix α}
      (hreached : v.advance m m.rows s = ⟨t₁, s₁, .ok done⟩)
      (hpass : (Pass.extract done m.rows).run v.engine s₁ = ⟨t₂, s', .ok inverse⟩) :
      Course m s .overflowed
        ⟨t₁ ++ (t₂ ++ [.reported (.overflowed m.rows)]), s', .error (.error .nonFinite)⟩
  | inverted {t₁ t₂ : Trace α} {s₁ s' : v.engine.State} {done inverse : Matrix α}
      (hreached : v.advance m m.rows s = ⟨t₁, s₁, .ok done⟩)
      (hpass : (Pass.extract done m.rows).run v.engine s₁ = ⟨t₂, s', .ok inverse⟩) :
      Course m s (.inverted inverse)
        ⟨t₁ ++ (t₂ ++ [.reported (.inverted m.rows)]), s', .ok inverse⟩

theorem invert_eq_advance (hm : Admissible m) :
    v.invert m = v.advance m m.rows >>= fun done =>
      (Pass.extract done m.rows).run v.engine >>= v.deliver m.rows := by
  rw [invert_eq_invertAfresh, invertAfresh, if_pos hm, advance, bind_assoc]

theorem exists_course (hm : Admissible m) (s : v.engine.State) :
    ∃ c, v.Course m s c (v.invert m s) := by
  rw [invert_eq_advance hm]
  rcases hreached : v.advance m m.rows s with ⟨t₁, s₁, fault | done⟩
  · rw [Run.bind_apply_error hreached]
    rcases Run.bind_eq_error hreached with hpass | ⟨t₂, s₂, aug, t₃, hpass, hsettle, rfl⟩
    · exact ⟨_, .augmentFailed hpass⟩
    · obtain ⟨r, hr, t₄, s₄, current, t₅, hsettled, hstops, rfl⟩ :=
        exists_stops (augment_fits hpass) (Nat.le_refl _) hsettle
      have hadvance : v.advance m r s = ⟨t₂ ++ t₄, s₄, .ok current⟩ := by
        rw [advance, Run.bind_apply_ok hpass, hsettled]
      rw [← List.append_assoc]
      cases hstops with
      | refused hread hrefuses => exact ⟨_, .refused hr hadvance hread hrefuses⟩
      | failed hpass => exact ⟨_, .eliminateFailed hr hadvance hpass⟩
  · rw [Run.bind_apply_ok hreached]
    rcases hpass : (Pass.extract done m.rows).run v.engine s₁ with ⟨t₂, s₂, fault | inverse⟩
    · rw [Run.bind_apply_error hpass]
      exact ⟨_, .extractFailed hreached hpass⟩
    · rw [Run.bind_apply_ok hpass, deliver]
      split
      · exact ⟨_, .inverted hreached hpass⟩
      · exact ⟨_, .overflowed hreached hpass⟩

section Seen

variable (view : View v.engine γ)

theorem cells_augmentedShape_ne_zero (hr : r < n) : (Stage.augmentedShape n).cells ≠ 0 := by
  have hn : 0 < n := Nat.zero_lt_of_lt hr
  exact Nat.ne_of_gt (Nat.mul_pos hn (Nat.mul_pos hn Nat.two_pos))

theorem see_eliminate (hcurrent : current.Fits (Stage.augmentedShape n)) (hr : r < n)
    {result : Except Fault (Matrix α)}
    (h : (Pass.eliminate current n r).run v.engine s = ⟨t, s', result⟩) :
    view.see t = view.dispatch (Stage.augmentedShape n) :=
  view.see_run (Pass.admission_eliminate hcurrent hr) (cells_augmentedShape_ne_zero hr) h

theorem see_settleAllAfresh (hm : m.Fits (Stage.augmentedShape n)) (hk : k ≤ n)
    (h : v.settleAllAfresh n k m s = ⟨t, s', .ok current⟩) :
    view.see t = view.settling n k := by
  induction k generalizing t s' current with
  | zero =>
      cases h
      exact view.see_nil
  | succ k ih =>
      rw [settleAllAfresh_succ] at h
      obtain ⟨t₁, s₁, earlier, t₂, hsettled, hstep, rfl⟩ := Run.bind_eq_ok h
      have hearlier := settleAllAfresh_fits hm hsettled
      obtain ⟨t₃, hpass, rfl⟩ := settleAfresh_eq_ok hearlier hk hstep
      rw [view.see_append, view.see_append, ih (Nat.le_of_succ_le hk) hsettled,
        see_eliminate view hearlier hk hpass, view.settling_succ]

theorem see_augment (hm : Admissible m) {result : Except Fault (Matrix α)}
    (h : (Pass.augment m m.rows).run v.engine s = ⟨t, s', result⟩) :
    view.see t = view.dispatch (Stage.augmentedShape m.rows) :=
  view.see_run (Pass.admission_augment hm.fits hm.1)
    (cells_augmentedShape_ne_zero (Nat.pos_of_ne_zero hm.1)) h

theorem advance_fits (h : v.advance m r s = ⟨t, s', .ok current⟩) :
    current.Fits (Stage.augmentedShape m.rows) := by
  obtain ⟨_, _, aug, _, haugment, hsettle, -⟩ := Run.bind_eq_ok h
  exact settleAllAfresh_fits (augment_fits haugment) hsettle

theorem see_advance (hm : Admissible m) (hr : r ≤ m.rows)
    (h : v.advance m r s = ⟨t, s', .ok current⟩) :
    view.see t = view.dispatch (Stage.augmentedShape m.rows) ++ view.settling m.rows r := by
  obtain ⟨t₁, s₁, aug, t₂, haugment, hsettle, rfl⟩ := Run.bind_eq_ok h
  rw [view.see_append, see_augment view hm haugment,
    see_settleAllAfresh view (augment_fits haugment) hr hsettle]

theorem see_extract (hm : Admissible m) (hcurrent : current.Fits (Stage.augmentedShape m.rows))
    {result : Except Fault (Matrix α)}
    (h : (Pass.extract current m.rows).run v.engine s = ⟨t, s', result⟩) :
    view.see t = view.dispatch ⟨m.rows, m.rows⟩ := by
  have hadmission : (Pass.extract current m.rows).admission = .ok () :=
    Pass.requireAugmented_eq_ok hcurrent
  exact view.see_run hadmission (Nat.mul_ne_zero hm.1 hm.1) h

theorem Course.see_eq (hm : Admissible m) {c : Conclusion α}
    {o : Outcome v.engine.State α (Matrix α)} (h : v.Course m s c o) :
    view.see o.trace =
      view.dispatch (Stage.augmentedShape m.rows) ++ view.settling m.rows (c.settled m.rows) ++
        (c.unsettled m.rows).flatMap view.dispatch ++
          view.see (c.closing m.rows v.epsilon) := by
  cases h with
  | augmentFailed hpass =>
      rw [see_augment view hm hpass]
      simp [View.settling]
  | refused hr hreached hread hrefuses =>
      rw [view.see_append, see_advance view hm (Nat.le_of_lt hr) hreached]
      simp
  | eliminateFailed hr hreached hpass =>
      rw [view.see_append, see_advance view hm (Nat.le_of_lt hr) hreached,
        see_eliminate view (advance_fits hreached) hr hpass]
      simp [hr]
  | extractFailed hreached hpass =>
      rw [view.see_append, see_advance view hm (Nat.le_refl _) hreached,
        see_extract view hm (advance_fits hreached) hpass]
      simp
  | overflowed hreached hpass | inverted hreached hpass =>
      rw [view.see_append, view.see_append, see_advance view hm (Nat.le_refl _) hreached,
        see_extract view hm (advance_fits hreached) hpass]
      simp

end Seen

namespace Course

variable {c : Conclusion α} {o : Outcome v.engine.State α (Matrix α)}

theorem result_eq (h : v.Course m s c o) : o.result = c.result := by
  cases h <;> rfl

theorem pivot_eq {r : Nat} {pivot : α} (h : v.Course m s (.refused r pivot) o) :
    r < m.rows ∧ v.refuses pivot = true ∧
      ∃ current, (v.advance m r s).result = .ok current ∧ current.read r r = .ok pivot := by
  cases h with
  | refused hr hreached hread hrefuses =>
      exact ⟨hr, hrefuses, _, congrArg Outcome.result hreached, hread⟩

theorem ne_failed (contract : v.engine.Faithful) (hm : Admissible m) (h : v.Course m s c o)
    (k : Nat) (fault : Fault) : c ≠ .failed k fault := by
  rintro rfl
  cases h with
  | augmentFailed hpass =>
      exact (Pass.ends_augment contract hm.fits.hasCells hm.1).of_result_error
        (congrArg Outcome.result hpass)
  | eliminateFailed hr hreached hpass =>
      exact (Pass.ends_eliminate contract (advance_fits hreached).hasCells hr).of_result_error
        (congrArg Outcome.result hpass)
  | extractFailed hreached hpass =>
      exact (Pass.ends_extract contract (advance_fits hreached).hasCells).of_result_error
        (congrArg Outcome.result hpass)

theorem dispatchCount_eq (hm : Admissible m) (h : v.Course m s c o) :
    o.trace.dispatchCount = c.settled m.rows + (c.unsettled m.rows).length + 1 := by
  have hsee := congrArg List.length (h.see_eq (View.dispatches v.engine) hm)
  have hclosing : (View.dispatches v.engine).see (c.closing m.rows v.epsilon) = [] := by
    cases c <;> rfl
  have hunsettled : (c.unsettled m.rows).flatMap (View.dispatches v.engine).dispatch =
      c.unsettled m.rows := List.flatMap_singleton' _
  rw [hclosing, hunsettled, List.append_nil, List.length_append, List.length_append,
    View.length_settling_dispatches] at hsee
  have haugment : ((View.dispatches v.engine).dispatch (Stage.augmentedShape m.rows)).length =
      1 := rfl
  rw [Trace.dispatchCount]
  exact hsee.trans (by omega)

end Course

end Inverter

end GridInversion
