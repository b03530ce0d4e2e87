import Mathlib.Order.Bounds.Defs
import GridInversion.Proofs.DispatchContract
import GridInversion.Proofs.EliminationCells

namespace GridInversion

variable {α : Type} [Scalar α] {n : Nat} {a : Cells α} {m : Matrix α}

namespace Pass

variable {engine : Engine α} (contract : engine.Faithful)
include contract

theorem ends_augment (hm : m.HasCells ⟨n, n⟩ a) (hn : n ≠ 0) :
    ((Pass.augment m n).run engine).Ends
      (fun aug => aug.HasCells (Stage.augmentedShape n) (a.augmented n)) fun _ => False :=
  ends_run contract (admission_augment hm.toFits hn) fun _ hp => augmentCell_eq hm hp

theorem ends_eliminate {r : Nat} (hm : m.HasCells (Stage.augmentedShape n) a) (hr : r < n) :
    ((Pass.eliminate m n r).run engine).Ends
      (fun next => next.HasCells (Stage.augmentedShape n) (a.settle r)) fun _ => False :=
  ends_run contract (admission_eliminate hm.toFits hr) fun _ hp => eliminateCell_eq hm hr hp

theorem ends_extract (hm : m.HasCells (Stage.augmentedShape n) a) :
    ((Pass.extract m n).run engine).Ends
      (fun x => x.HasCells ⟨n, n⟩ fun y c => a y (c + n)) fun _ => False :=
  ends_run contract (requireAugmented_eq_ok hm.toFits) fun _ hp => extractCell_eq hm hp

end Pass

namespace Inverter

variable (v : Inverter α)

def Accepts (a : Cells α) (k : Nat) : Prop := ∀ i < k, v.refuses (a.pivot i) = false

def RefusesFirst (a : Cells α) (r : Nat) : Prop :=
  v.refuses (a.pivot r) = true ∧ v.Accepts a r

variable {v}

theorem Accepts.succ {k : Nat} (h : v.Accepts a k) (hk : v.refuses (a.pivot k) = false) :
    v.Accepts a (k + 1) := by
  intro i hi
  rcases Nat.lt_succ_iff_lt_or_eq.mp hi with hlt | rfl
  · exact h i hlt
  · exact hk

theorem Accepts.not_refusesFirst {k r : Nat} (h : v.Accepts a k) (hr : r < k) :
    ¬ v.RefusesFirst a r := by
  rintro ⟨hrefuses, -⟩
  rw [h r hr] at hrefuses
  cases hrefuses

theorem RefusesFirst.unique {r r' : Nat} (h : v.RefusesFirst a r)
    (h' : v.RefusesFirst a r') : r = r' := by
  rcases Nat.lt_trichotomy r r' with hlt | heq | hgt
  · exact absurd h (h'.2.not_refusesFirst hlt)
  · exact heq
  · exact absurd h' (h.2.not_refusesFirst hgt)

/-- Whoever can tell which pivot is refused, as long as no earlier one is, can tell which is
refused first. -/
theorem accepts_iff_forall {P : Nat → Prop}
    (hrefuses : ∀ i < n, v.Accepts a i → (∀ j < i, ¬ P j) →
      (v.refuses (a.pivot i) = true ↔ P i)) {k : Nat} (hk : k ≤ n) :
    v.Accepts a k ↔ ∀ i < k, ¬ P i := by
  induction k with
  | zero => exact ⟨fun _ i hi => absurd hi (Nat.not_lt_zero i),
      fun _ i hi => absurd hi (Nat.not_lt_zero i)⟩
  | succ k ih =>
      have hearlier := ih (Nat.le_of_succ_le hk)
      constructor
      · intro haccepts i hi
        have hbefore : v.Accepts a k := fun j hj => haccepts j (Nat.lt_succ_of_lt hj)
        have hnone := hearlier.mp hbefore
        rcases Nat.lt_succ_iff_lt_or_eq.mp hi with hlt | rfl
        · exact hnone i hlt
        · rw [← hrefuses i hk hbefore hnone, haccepts i hi]
          exact Bool.false_ne_true
      · intro hnone
        have hbefore : ∀ i < k, ¬ P i := fun i hi => hnone i (Nat.lt_succ_of_lt hi)
        have haccepts := hearlier.mpr hbefore
        refine haccepts.succ (Bool.eq_false_iff.mpr fun hrefused => ?_)
        exact hnone k (Nat.lt_succ_self k) ((hrefuses k hk haccepts hbefore).mp hrefused)

theorem refusesFirst_iff_isLeast_setOf {P : Nat → Prop}
    (hrefuses : ∀ i < n, v.Accepts a i → (∀ j < i, ¬ P j) →
      (v.refuses (a.pivot i) = true ↔ P i)) {r : Nat} :
    r < n ∧ v.RefusesFirst a r ↔ IsLeast {i | i < n ∧ P i} r := by
  constructor
  · rintro ⟨hr, hrefused, haccepts⟩
    have hnone := (accepts_iff_forall hrefuses (Nat.le_of_lt hr)).mp haccepts
    refine ⟨⟨hr, (hrefuses r hr haccepts hnone).mp hrefused⟩, ?_⟩
    rintro i ⟨-, hi⟩
    exact Nat.le_of_not_lt fun hlt => hnone i hlt hi
  · rintro ⟨⟨hr, hrefused⟩, hleast⟩
    have hnone : ∀ i < r, ¬ P i := fun i hi hP =>
      absurd hi (Nat.not_lt.mpr (hleast ⟨Nat.lt_trans hi hr, hP⟩))
    have haccepts := (accepts_iff_forall hrefuses (Nat.le_of_lt hr)).mpr hnone
    exact ⟨hr, (hrefuses r hr haccepts hnone).mpr hrefused, haccepts⟩

theorem ends_checkPivot {r : Nat} (hm : m.HasCells (Stage.augmentedShape n) a) (hr : r < n) :
    (v.checkPivot m r).Ends (fun _ => v.refuses (a r r) = false)
      fun fault => fault = .error (.uninvertible r) ∧ v.refuses (a r r) = true := by
  have hread : m.read r r = .ok (a r r) := by
    rw [Matrix.read, hm.read hr (Pass.lt_augmentedShape_cols hr), boundsChecked_some]
  unfold checkPivot
  rw [hread, Run.ofExcept_ok, pure_bind]
  split
  · rename_i hrefuses
    exact Run.ends_report_bind (Run.ends_fail ⟨rfl, hrefuses⟩)
  · rename_i hrefuses
    exact Run.ends_pure (Bool.eq_false_iff.mpr hrefuses)

theorem ends_settleAfresh (contract : v.engine.Faithful) {r : Nat}
    (hm : m.HasCells (Stage.augmentedShape n) a) (hr : r < n) :
    (v.settleAfresh n m r).Ends
      (fun next => v.refuses (a r r) = false ∧
        next.HasCells (Stage.augmentedShape n) (a.settle r))
      fun fault => fault = .error (.uninvertible r) ∧ v.refuses (a r r) = true := by
  unfold settleAfresh
  refine (ends_checkPivot hm hr).bind fun _ haccepts => ?_
  refine ((Pass.ends_eliminate contract hm hr).mono_faults fun _ h => h.elim).bind fun next hnext => ?_
  exact Run.ends_report_bind (Run.ends_pure ⟨haccepts, hnext⟩)

theorem ends_settleAllAfresh (contract : v.engine.Faithful) {k : Nat}
    (hm : m.HasCells (Stage.augmentedShape n) a) (hk : k ≤ n) :
    (v.settleAllAfresh n k m).Ends
      (fun done => v.Accepts a k ∧ done.HasCells (Stage.augmentedShape n) (a.settled k))
      fun fault => ∃ r < k, fault = .error (.uninvertible r) ∧ v.RefusesFirst a r := by
  induction k with
  | zero => exact Run.ends_pure ⟨fun i hi => absurd hi (Nat.not_lt_zero i), hm⟩
  | succ k ih =>
      rw [settleAllAfresh_succ]
      have hearlier := (ih (Nat.le_of_succ_le hk)).mono_faults
        fun fault h => h.imp fun r hr => And.imp_left Nat.lt_succ_of_lt hr
      refine hearlier.bind ?_
      rintro current ⟨haccepts, hcurrent⟩
      refine (ends_settleAfresh contract hcurrent hk).mono ?_ ?_
      · rintro next ⟨hpivot, hnext⟩
        exact ⟨haccepts.succ hpivot, hnext⟩
      · rintro fault ⟨hfault, hrefuses⟩
        exact ⟨k, Nat.lt_succ_self k, hfault, hrefuses, haccepts⟩

/-- On a faithful engine, elimination settles all pivots or stops at the first
one that is refused. -/
theorem ends_eliminate (contract : v.engine.Faithful)
    (hm : m.HasCells (Stage.augmentedShape n) a) :
    (v.eliminate m n).Ends
      (fun done => v.Accepts a n ∧ done.HasCells (Stage.augmentedShape n) (a.settled n))
      fun fault => ∃ r < n, fault = .error (.uninvertible r) ∧ v.RefusesFirst a r := by
  rw [v.eliminate_eq_settleAllAfresh hm.toFits]
  exact ends_settleAllAfresh contract hm (Nat.le_refl n)

theorem ends_deliver (inverse : Matrix α) :
    (v.deliver n inverse).Ends (fun x => x = inverse ∧ inverse.isFinite = true)
      fun fault => fault = .error .nonFinite ∧ inverse.isFinite = false := by
  unfold deliver
  split
  · rename_i hfinite
    exact Run.ends_report_bind (Run.ends_pure ⟨rfl, hfinite⟩)
  · rename_i hfinite
    exact Run.ends_report_bind (Run.ends_fail ⟨rfl, Bool.eq_false_iff.mpr hfinite⟩)

/-- On a faithful engine, inversion refuses the first pivot that is refused, and
otherwise hands out the right half if all its cells are finite. -/
theorem ends_invert (contract : v.engine.Faithful) (hm : m.HasCells ⟨n, n⟩ a) (hn : n ≠ 0) :
    (v.invert m).Ends
      (fun x => v.Accepts (a.augmented n) n ∧ x.HasCells ⟨n, n⟩ (a.inverse n) ∧
        x.isFinite = true)
      fun fault => (∃ r < n, fault = .error (.uninvertible r) ∧
          v.RefusesFirst (a.augmented n) r) ∨
        fault = .error .nonFinite ∧ v.Accepts (a.augmented n) n ∧
          ∃ x : Matrix α, x.HasCells ⟨n, n⟩ (a.inverse n) ∧ x.isFinite = false := by
  have hrows : m.rows = n := hm.rows
  have hadmissible : Admissible m :=
    ⟨hrows.symm ▸ hn, hrows.trans hm.cols.symm, hm.toFits.wellFormed⟩
  rw [invert_eq_invertAfresh, invertAfresh, if_pos hadmissible, hrows]
  refine ((Pass.ends_augment contract hm hn).mono_faults fun _ h => h.elim).bind fun aug haug => ?_
  refine ((ends_settleAllAfresh contract haug (Nat.le_refl n)).mono_faults
    fun _ h => Or.inl h).bind ?_
  rintro done ⟨haccepts, hdone⟩
  refine ((Pass.ends_extract contract hdone).mono_faults fun _ h => h.elim).bind fun x hx => ?_
  refine (ends_deliver x).mono ?_ ?_
  · rintro y ⟨rfl, hfinite⟩
    exact ⟨haccepts, hx, hfinite⟩
  · rintro fault ⟨hfault, hfinite⟩
    exact Or.inr ⟨hfault, haccepts, x, hx, hfinite⟩

theorem eliminate_uninvertible_iff (contract : v.engine.Faithful)
    (hm : m.HasCells (Stage.augmentedShape n) a) (s : v.engine.State) (r : Nat) :
    (v.eliminate m n s).result = .error (.error (.uninvertible r)) ↔
      r < n ∧ v.RefusesFirst a r := by
  have hends := ends_eliminate contract hm
  constructor
  · intro h
    obtain ⟨r', hr', hfault, hrefuses⟩ := hends.of_result_error h
    cases hfault
    exact ⟨hr', hrefuses⟩
  · rintro ⟨hr, hrefuses⟩
    rcases h : (v.eliminate m n s).result with fault | done
    · obtain ⟨r', -, rfl, hrefuses'⟩ := hends.of_result_error h
      rw [hrefuses.unique hrefuses']
    · exact absurd hrefuses ((hends.of_result_ok h).1.not_refusesFirst hr)

theorem invert_uninvertible_iff (contract : v.engine.Faithful) (hm : m.HasCells ⟨n, n⟩ a)
    (hn : n ≠ 0) (s : v.engine.State) (r : Nat) :
    (v.invert m s).result = .error (.error (.uninvertible r)) ↔
      r < n ∧ v.RefusesFirst (a.augmented n) r := by
  have hends := ends_invert contract hm hn
  constructor
  · intro h
    rcases hends.of_result_error h with ⟨r', hr', hfault, hrefuses⟩ | ⟨hfault, -⟩
    · cases hfault
      exact ⟨hr', hrefuses⟩
    · cases hfault
  · rintro ⟨hr, hrefuses⟩
    rcases h : (v.invert m s).result with fault | x
    · rcases hends.of_result_error h with ⟨r', -, rfl, hrefuses'⟩ | ⟨-, haccepts, -⟩
      · rw [hrefuses.unique hrefuses']
      · exact absurd hrefuses (haccepts.not_refusesFirst hr)
    · exact absurd hrefuses ((hends.of_result_ok h).1.not_refusesFirst hr)

theorem admissible_of_invert_eq_ok {s : v.engine.State} {x : Matrix α}
    (h : (v.invert m s).result = .ok x) : Admissible m := by
  by_cases hm : Admissible m
  · exact hm
  · rw [invert, if_neg hm] at h
    cases h

end Inverter

end GridInversion
