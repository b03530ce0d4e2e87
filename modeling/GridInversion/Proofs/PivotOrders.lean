import Mathlib.Algebra.Group.Ext
import GridInversion.Proofs.BlockSystem
import GridInversion.Proofs.RowSpans

namespace GridInversion

namespace Cells

section Scalar

variable {α : Type} [Scalar α]

/-- The cells after the passes for the listed pivots, in their order. -/
def settledAlong (a : Cells α) (pivots : List ℕ) : Cells α := pivots.foldl settle a

@[simp] theorem settledAlong_nil (a : Cells α) : a.settledAlong [] = a := rfl

@[simp] theorem settledAlong_cons (a : Cells α) (r : ℕ) (rest : List ℕ) :
    a.settledAlong (r :: rest) = (a.settle r).settledAlong rest := rfl

theorem settledAlong_concat (a : Cells α) (pivots : List ℕ) (r : ℕ) :
    a.settledAlong (pivots ++ [r]) = (a.settledAlong pivots).settle r :=
  List.foldl_concat ..

/-- The passes for the listed pivots find no zero at the diagonal cell that they divide by. -/
def MeetsNoZero (a : Cells α) (pivots : List ℕ) : Prop :=
  ∀ earlier r, earlier ++ [r] <+: pivots → a.settledAlong earlier r r ≠ 0

theorem meetsNoZero_nil (a : Cells α) : a.MeetsNoZero [] := by
  intro earlier r h
  simp at h

theorem meetsNoZero_cons {a : Cells α} {r : ℕ} {rest : List ℕ} :
    a.MeetsNoZero (r :: rest) ↔ a r r ≠ 0 ∧ (a.settle r).MeetsNoZero rest := by
  constructor
  · intro h
    refine ⟨h [] r (List.prefix_append [r] rest), fun earlier r' hr' => ?_⟩
    exact h (r :: earlier) r' ((List.prefix_cons_inj r).mpr hr')
  · rintro ⟨hr, hrest⟩ earlier r' hr'
    rcases earlier with _ | ⟨first, earlier⟩
    · obtain ⟨rfl, -⟩ := List.cons_prefix_cons.mp hr'
      exact hr
    · obtain ⟨rfl, htail⟩ := List.cons_prefix_cons.mp hr'
      exact hrest earlier r' htail

instance MeetsNoZero.decidable [DecidableEq α] :
    (a : Cells α) → (pivots : List ℕ) → Decidable (a.MeetsNoZero pivots)
  | a, [] => isTrue (meetsNoZero_nil a)
  | a, r :: rest =>
      have := MeetsNoZero.decidable (a.settle r) rest
      decidable_of_iff _ meetsNoZero_cons.symm

end Scalar

section Exact

variable {K : Type} [ExactField K] {a : Cells K} {pivots pivots' : List ℕ} {s : Finset ℕ}

theorem rowSpan_settledAlong (h : a.MeetsNoZero pivots) (hs : ∀ r ∈ pivots, r ∈ s) :
    rowSpan s (a.settledAlong pivots) = rowSpan s a := by
  induction pivots generalizing a with
  | nil => rfl
  | cons r rest ih =>
      obtain ⟨hr, hrest⟩ := meetsNoZero_cons.mp h
      rw [settledAlong_cons, ih hrest fun t ht => hs t (List.mem_cons_of_mem r ht)]
      exact (pivoted_settle hr).rowSpan_eq (hs r List.mem_cons_self)

theorem settledAlong_sub_mem_rowSpan (h : a.MeetsNoZero pivots) (hs : ∀ r ∈ pivots, r ∈ s)
    (y : ℕ) : a.settledAlong pivots y - a y ∈ rowSpan s a := by
  induction pivots generalizing a with
  | nil => simp
  | cons r rest ih =>
      obtain ⟨hr, hrest⟩ := meetsNoZero_cons.mp h
      have hstep := pivoted_settle hr
      have hmem : r ∈ s := hs r List.mem_cons_self
      have hlater := ih hrest fun t ht => hs t (List.mem_cons_of_mem r ht)
      rw [hstep.rowSpan_eq hmem] at hlater
      rw [settledAlong_cons, ← sub_add_sub_cancel _ (a.settle r y)]
      exact add_mem hlater (hstep.sub_mem_rowSpan hmem y)

theorem unitOn_settledAlong (h : a.MeetsNoZero pivots) :
    UnitOn pivots.toFinset (a.settledAlong pivots) := by
  -- From the end of the list: the last pass keeps the unit columns that the earlier ones left.
  induction pivots using List.reverseRecOn with
  | nil => simp [UnitOn]
  | append_singleton earlier r ih =>
      have hr : a.settledAlong earlier r r ≠ 0 := h earlier r (List.prefix_refl _)
      have hearlier : a.MeetsNoZero earlier := fun before t ht =>
        h before t (ht.trans (List.prefix_append earlier [r]))
      rw [settledAlong_concat]
      have hunit := (pivoted_settle hr).unitOn_insert (ih hearlier)
      simpa using hunit

/-- What the passes lead to depends on the set of their pivots alone, as long as none of them
divides by zero. -/
theorem settledAlong_eq (h : a.MeetsNoZero pivots) (h' : a.MeetsNoZero pivots')
    (hsame : ∀ r, r ∈ pivots ↔ r ∈ pivots') :
    a.settledAlong pivots = a.settledAlong pivots' := by
  have hset : pivots.toFinset = pivots'.toFinset := by
    ext r
    simp [hsame r]
  have hmem : ∀ r ∈ pivots, r ∈ pivots'.toFinset := fun r hr =>
    List.mem_toFinset.mpr ((hsame r).mp hr)
  have hmem' : ∀ r ∈ pivots', r ∈ pivots'.toFinset := fun r hr => List.mem_toFinset.mpr hr
  -- The rows of the two ends differ by combinations of the rows of one of them.  Where its
  -- columns are those of the identity, no combination but zero vanishes in all of them.
  refine (unitOn_settledAlong h').eq_of_sub_mem_rowSpan (hset ▸ unitOn_settledAlong h) ?_
  intro y
  rw [rowSpan_settledAlong h' hmem', ← sub_sub_sub_cancel_right _ _ (a y)]
  exact sub_mem (settledAlong_sub_mem_rowSpan h hmem y) (settledAlong_sub_mem_rowSpan h' hmem' y)

/-- A pass for a pivot that was met before changes nothing, and finds no zero. -/
theorem meetsNoZero_concat (h : a.MeetsNoZero pivots) {r : ℕ} (hr : r ∈ pivots) :
    a.MeetsNoZero (pivots ++ [r]) := by
  intro earlier t ht
  rcases List.prefix_concat_iff.mp ht with heq | hlt
  · obtain ⟨hearlier, hlast⟩ := List.append_inj' heq rfl
    obtain rfl : t = r := List.singleton_inj.mp hlast
    rw [hearlier, unitOn_settledAlong h t (List.mem_toFinset.mpr hr) t, if_pos rfl]
    exact one_ne_zero
  · exact h earlier t hlt

theorem settledAlong_repeat (h : a.MeetsNoZero pivots) {r : ℕ} (hr : r ∈ pivots) :
    a.settledAlong (pivots ++ [r]) = a.settledAlong pivots := by
  apply settledAlong_eq (meetsNoZero_concat h hr) h
  intro t
  simp only [List.mem_append, List.mem_singleton, or_iff_left_iff_imp]
  rintro rfl
  exact hr

theorem annihilates_settledAlong_iff {n : ℕ} (h : a.MeetsNoZero pivots)
    (hpivots : ∀ r ∈ pivots, r < n) (width : ℕ) (z : ℕ → K) :
    Annihilates n width (a.settledAlong pivots) z ↔ Annihilates n width a z := by
  induction pivots generalizing a with
  | nil => rfl
  | cons r rest ih =>
      obtain ⟨hr, hrest⟩ := meetsNoZero_cons.mp h
      rw [settledAlong_cons, ih hrest fun t ht => hpivots t (List.mem_cons_of_mem r ht)]
      exact (pivoted_settle hr).annihilates_iff (hpivots r List.mem_cons_self) width z

/-- Any order of all pivots leads to the inverse in the right half. -/
theorem sum_mul_settledAlong {n : ℕ} (h : (a.augmented n).MeetsNoZero pivots)
    (hall : ∀ r, r ∈ pivots ↔ r < n) :
    ∀ y < n, ∀ c < n, ∑ k ∈ Finset.range n,
      a y k * (a.augmented n).settledAlong pivots k (c + n) = if y = c then 1 else 0 := by
  refine sum_mul_of_augmented (fun y _ x hx => ?_) fun z => ?_
  · exact unitOn_settledAlong h x (List.mem_toFinset.mpr ((hall x).mpr hx)) y
  · exact (annihilates_settledAlong_iff h (fun r hr => (hall r).mp hr) (n + n) z).mp

end Exact

end Cells

section Runs

variable {α : Type} [Scalar α] {engine : Engine α} {n : ℕ} {m : Matrix α} {a : Cells α}
  {pivots : List ℕ}

/-- The pivot passes of a list, one after another, each into a fresh matrix. -/
def Pass.eliminateAlong (engine : Engine α) (n : ℕ) (pivots : List ℕ) (m : Matrix α) :
    Run engine.State α (Matrix α) :=
  pivots.foldlM (fun current r => (Pass.eliminate current n r).run engine) m

/-- Inversion by the pivot passes of a list, without a look at the pivots. -/
def Pass.invertAlong (engine : Engine α) (n : ℕ) (pivots : List ℕ) (m : Matrix α) :
    Run engine.State α (Matrix α) := do
  let aug ← (Pass.augment m n).run engine
  let done ← eliminateAlong engine n pivots aug
  (Pass.extract done n).run engine

/-- Each pass of a list, run after those before it in the list, finds a matrix whose diagonal
cell in the row of the pivot is not zero. -/
def Pass.MeetsNoZero (engine : Engine α) (n : ℕ) (start : Run engine.State α (Matrix α))
    (pivots : List ℕ) (s : engine.State) : Prop :=
  ∀ earlier r, earlier ++ [r] <+: pivots → ∀ current,
    ((start >>= eliminateAlong engine n earlier) s).result = .ok current →
      ∃ pivot, current.read? r r = some pivot ∧ pivot ≠ 0

variable (contract : engine.Faithful)
include contract

theorem Pass.ends_eliminateAlong (hm : m.HasCells (Stage.augmentedShape n) a)
    (hpivots : ∀ r ∈ pivots, r < n) :
    (eliminateAlong engine n pivots m).Ends
      (fun done => done.HasCells (Stage.augmentedShape n) (a.settledAlong pivots))
      fun _ => False := by
  induction pivots generalizing m a with
  | nil => exact Run.ends_pure hm
  | cons r rest ih =>
      rw [eliminateAlong, List.foldlM_cons]
      refine (ends_eliminate contract hm (hpivots r List.mem_cons_self)).bind fun next hnext => ?_
      exact ih hnext fun t ht => hpivots t (List.mem_cons_of_mem r ht)

theorem Pass.ends_invertAlong (hm : m.HasCells ⟨n, n⟩ a) (hn : n ≠ 0)
    (hpivots : ∀ r ∈ pivots, r < n) :
    (invertAlong engine n pivots m).Ends
      (fun x => x.HasCells ⟨n, n⟩ fun y c => (a.augmented n).settledAlong pivots y (c + n))
      fun _ => False := by
  refine (ends_augment contract hm hn).bind fun aug haug => ?_
  exact (ends_eliminateAlong contract haug hpivots).bind fun _ => ends_extract contract

/-- On a faithful engine only the cells that the passes lead to count. -/
theorem Pass.result_eliminateAlong_eq {pivots' : List ℕ}
    (hm : m.HasCells (Stage.augmentedShape n) a) (hpivots : ∀ r ∈ pivots, r < n)
    (hpivots' : ∀ r ∈ pivots', r < n) (h : a.settledAlong pivots = a.settledAlong pivots')
    (s s' : engine.State) :
    (eliminateAlong engine n pivots m s).result = (eliminateAlong engine n pivots' m s').result := by
  have hends := ends_eliminateAlong contract hm hpivots
  rw [h] at hends
  apply hends.result_eq (ends_eliminateAlong contract hm hpivots')
  exact fun _ _ hdone hdone' => hdone.ext hdone' fun _ _ _ _ => rfl

theorem Pass.result_invertAlong_eq {pivots' : List ℕ} (hm : m.HasCells ⟨n, n⟩ a) (hn : n ≠ 0)
    (hpivots : ∀ r ∈ pivots, r < n) (hpivots' : ∀ r ∈ pivots', r < n)
    (h : (a.augmented n).settledAlong pivots = (a.augmented n).settledAlong pivots')
    (s s' : engine.State) :
    (invertAlong engine n pivots m s).result = (invertAlong engine n pivots' m s').result := by
  have hends := ends_invertAlong contract hm hn hpivots
  rw [h] at hends
  apply hends.result_eq (ends_invertAlong contract hm hn hpivots')
  exact fun _ _ hx hx' => hx.ext hx' fun _ _ _ _ => rfl

/-- What the passes of a list find can be read off the cells that they start from. -/
theorem Pass.meetsNoZero_iff {start : Run engine.State α (Matrix α)}
    (hstart : start.Ends (fun m => m.HasCells (Stage.augmentedShape n) a) fun _ => False)
    (hpivots : ∀ r ∈ pivots, r < n) (s : engine.State) :
    Pass.MeetsNoZero engine n start pivots s ↔ a.MeetsNoZero pivots := by
  have hprefix : ∀ earlier r, earlier ++ [r] <+: pivots →
      r < n ∧ (start >>= eliminateAlong engine n earlier).Ends
        (fun current => current.HasCells (Stage.augmentedShape n) (a.settledAlong earlier))
        fun _ => False := by
    intro earlier r hr
    have hmem : ∀ t ∈ earlier ++ [r], t < n := fun t ht => hpivots t (hr.mem ht)
    refine ⟨hmem r (by simp), hstart.bind fun m hm => ?_⟩
    exact ends_eliminateAlong contract hm fun t ht => hmem t (List.mem_append_left _ ht)
  constructor
  · intro h earlier r hr
    obtain ⟨hlt, hends⟩ := hprefix earlier r hr
    obtain ⟨current, hcurrent, hcells⟩ := hends.exists_result s
    obtain ⟨pivot, hread, hpivot⟩ := h earlier r hr current hcurrent
    rw [hcells.read hlt (Pass.lt_augmentedShape_cols hlt)] at hread
    rwa [← Option.some_inj.mp hread] at hpivot
  · intro h earlier r hr current hcurrent
    obtain ⟨hlt, hends⟩ := hprefix earlier r hr
    have hcells := hends.of_result_ok hcurrent
    exact ⟨_, hcells.read hlt (Pass.lt_augmentedShape_cols hlt), h earlier r hr⟩

end Runs

section Exact

variable {K : Type} [ExactField K] {engine : Engine K}

/-- Over an exact field the passes for two lists of pivots end in the same matrix if the lists
have the same members, in whatever order and however often, and no pass meets a zero.  If all
pivots are among them, the right half is the inverse. -/
theorem Pass.eliminateAlong_eq (contract : engine.Faithful) (n : ℕ) :
    (∀ m : Matrix K, m.WellFormed → m.shape = Stage.augmentedShape n →
      ∀ (pivots pivots' : List ℕ) (s s' : engine.State), (∀ r ∈ pivots, r < n) →
        (∀ r, r ∈ pivots ↔ r ∈ pivots') → Pass.MeetsNoZero engine n (pure m) pivots s →
        Pass.MeetsNoZero engine n (pure m) pivots' s' →
          ∃ done, (eliminateAlong engine n pivots m s).result = .ok done ∧
            (eliminateAlong engine n pivots' m s').result = .ok done ∧
            ∀ r ∈ pivots, (eliminateAlong engine n (pivots ++ [r]) m s).result = .ok done) ∧
    ∀ m : Matrix K, m.WellFormed → m.shape = ⟨n, n⟩ → n ≠ 0 →
      ∀ (order order' : List ℕ) (s s' : engine.State), (∀ r, r ∈ order ↔ r < n) →
        (∀ r, r ∈ order' ↔ r < n) →
        Pass.MeetsNoZero engine n ((Pass.augment m n).run engine) order s →
        Pass.MeetsNoZero engine n ((Pass.augment m n).run engine) order' s' →
          ∃ x, (invertAlong engine n order m s).result = .ok x ∧
            (invertAlong engine n order' m s').result = .ok x ∧
            m.product x = .ok (Matrix.identity n) ∧ x.product m = .ok (Matrix.identity n) := by
  constructor
  · intro m hwell hshape pivots pivots' s s' hlt hsame hzero hzero'
    have hm := (hwell.fits hshape).hasCells
    have hlt' : ∀ r ∈ pivots', r < n := fun r hr => hlt r ((hsame r).mpr hr)
    rw [meetsNoZero_iff contract (Run.ends_pure hm) hlt] at hzero
    rw [meetsNoZero_iff contract (Run.ends_pure hm) hlt'] at hzero'
    obtain ⟨done, hdone, -⟩ := (ends_eliminateAlong contract hm hlt).exists_result s
    refine ⟨done, hdone, ?_, fun r hr => ?_⟩
    · rw [← hdone]
      exact (result_eliminateAlong_eq contract hm hlt hlt'
        (Cells.settledAlong_eq hzero hzero' hsame) s s').symm
    · rw [← hdone]
      have hrepeat : ∀ t ∈ pivots ++ [r], t < n := by
        simpa [or_imp, forall_and] using ⟨hlt, hlt r hr⟩
      exact result_eliminateAlong_eq contract hm hrepeat hlt (Cells.settledAlong_repeat hzero hr) s s
  · intro m hwell hshape hn order order' s s' hall hall' hzero hzero'
    have hm := (hwell.fits hshape).hasCells
    have haug := ends_augment contract hm hn
    have hlt : ∀ r ∈ order, r < n := fun r hr => (hall r).mp hr
    have hlt' : ∀ r ∈ order', r < n := fun r hr => (hall' r).mp hr
    rw [meetsNoZero_iff contract haug hlt] at hzero
    rw [meetsNoZero_iff contract haug hlt'] at hzero'
    obtain ⟨x, hx, hcells⟩ := (ends_invertAlong contract hm hn hlt).exists_result s
    have hsame := Cells.settledAlong_eq hzero hzero' fun r => (hall r).trans (hall' r).symm
    have hx' := result_invertAlong_eq contract hm hn hlt hlt' hsame s s'
    have hmx := Cells.sum_mul_settledAlong hzero hall
    exact ⟨x, hx, hx' ▸ hx, Matrix.product_eq_identity hm hcells hmx,
      Matrix.product_eq_identity hcells hm (Cells.sum_mul_comm hmx)⟩

theorem Pass.eliminateAlong_eq_two_by_two :
    (∃ done, (eliminateAlong Engine.serial 2 [0, 1]
          (⟨2, 4, #[2, 1, 3, 1, 4, 3, 7, 1]⟩ : Matrix ℚ) ()).result = .ok done ∧
        (eliminateAlong Engine.serial 2 [1, 0, 1]
          (⟨2, 4, #[2, 1, 3, 1, 4, 3, 7, 1]⟩ : Matrix ℚ) ()).result = .ok done) ∧
      ∃ x, (invertAlong Engine.serial 2 [0, 1]
            (⟨2, 2, #[2, 1, 4, 3]⟩ : Matrix ℚ) ()).result = .ok x ∧
        (invertAlong Engine.serial 2 [1, 0]
            (⟨2, 2, #[2, 1, 4, 3]⟩ : Matrix ℚ) ()).result = .ok x ∧
        (⟨2, 2, #[2, 1, 4, 3]⟩ : Matrix ℚ).product x = .ok (Matrix.identity 2) := by
  have contract : (Engine.serial : Engine ℚ).Faithful := Engine.faithful_serial
  obtain ⟨hchains, hinverses⟩ := eliminateAlong_eq contract 2
  have hwide : (⟨2, 4, #[2, 1, 3, 1, 4, 3, 7, 1]⟩ : Matrix ℚ).Fits (Stage.augmentedShape 2) :=
    ⟨rfl, rfl⟩
  have hsquare : (⟨2, 2, #[2, 1, 4, 3]⟩ : Matrix ℚ).Fits ⟨2, 2⟩ := ⟨rfl, rfl⟩
  constructor
  · have hzero : ∀ pivots ∈ [[0, 1], [1, 0, 1]],
        (⟨2, 4, #[2, 1, 3, 1, 4, 3, 7, 1]⟩ : Matrix ℚ).cells.MeetsNoZero pivots := by
      decide +kernel
    have hstart := hwide.hasCells
    obtain ⟨done, hdone, hdone', -⟩ := hchains _ hwide.wellFormed hwide.shape [0, 1] [1, 0, 1]
      () () (by decide) (by simp)
      ((meetsNoZero_iff contract (Run.ends_pure hstart) (by decide) ()).mpr (hzero _ (by decide)))
      ((meetsNoZero_iff contract (Run.ends_pure hstart) (by decide) ()).mpr (hzero _ (by decide)))
    exact ⟨done, hdone, hdone'⟩
  · have hzero : ∀ order ∈ [[0, 1], [1, 0]],
        ((⟨2, 2, #[2, 1, 4, 3]⟩ : Matrix ℚ).cells.augmented 2).MeetsNoZero order := by
      decide +kernel
    have hstart := ends_augment contract hsquare.hasCells two_ne_zero
    obtain ⟨x, hx, hx', hproduct, -⟩ := hinverses _ hsquare.wellFormed hsquare.shape two_ne_zero
      [0, 1] [1, 0] () () (by simp; omega) (by simp; omega)
      ((meetsNoZero_iff contract hstart (by decide) ()).mpr (hzero _ (by decide)))
      ((meetsNoZero_iff contract hstart (by decide) ()).mpr (hzero _ (by decide)))
    exact ⟨x, hx, hx', hproduct⟩

end Exact

end GridInversion
