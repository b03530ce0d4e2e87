import GridInversion.Proofs.MachineBits

namespace GridInversion

/-- Scalars whose finite values are totally ordered.  Only zero may share its place in the order,
with a zero of the other sign. -/
class OrdersFinite (α : Type) [Scalar α] : Prop where
  isFinite_zero : Scalar.isFinite (0 : α) = true
  le_total : ∀ x y : α, Scalar.isFinite x = true → Scalar.isFinite y = true → x ≤ y ∨ y ≤ x
  le_trans : ∀ x y z : α, Scalar.isFinite x = true → Scalar.isFinite y = true →
    Scalar.isFinite z = true → x ≤ y → y ≤ z → x ≤ z
  lt_iff : ∀ x y : α, Scalar.isFinite x = true → Scalar.isFinite y = true → (x < y ↔ ¬ y ≤ x)
  eq_or_zero : ∀ x y : α, Scalar.isFinite x = true → Scalar.isFinite y = true →
    x ≤ y → y ≤ x → x = y ∨ x ≤ 0 ∧ 0 ≤ x

/-- Scalars with ordered finite values, where what is below zero is above it after a change of
sign: no absolute value is below zero. -/
class OrdersSizes (α : Type) [Scalar α] : Prop extends NegatesFinite α, OrdersFinite α where
  neg_nonneg : ∀ x : α, Scalar.isFinite x = true → x < 0 → 0 ≤ -x

namespace OrdersFinite

variable {α : Type} [Scalar α] [OrdersFinite α] {x y : α}

theorem le_refl (hx : Scalar.isFinite x = true) : x ≤ x := (le_total x x hx hx).elim id id

theorem le_of_lt (hx : Scalar.isFinite x = true) (hy : Scalar.isFinite y = true) (h : x < y) :
    x ≤ y :=
  (le_total x y hx hy).resolve_right ((lt_iff x y hx hy).mp h)

theorem le_of_not_lt (hx : Scalar.isFinite x = true) (hy : Scalar.isFinite y = true)
    (h : ¬ x < y) : y ≤ x := by
  rwa [lt_iff x y hx hy, not_not] at h

end OrdersFinite

theorem OrdersSizes.abs_nonneg {α : Type} [Scalar α] [OrdersSizes α] {x : α}
    (hx : Scalar.isFinite x = true) : 0 ≤ Scalar.abs x := by
  unfold Scalar.abs
  split
  · rename_i hneg
    exact neg_nonneg x hx hneg
  · rename_i hneg
    exact OrdersFinite.le_of_not_lt hx NegatesFinite.isFinite_zero hneg

instance {K : Type} [ExactOrderedField K] : OrdersSizes K where
  le_total := fun x y _ _ => le_total x y
  le_trans := fun _ _ _ _ _ _ hxy hyz => le_trans hxy hyz
  lt_iff := fun _ _ _ _ => not_le.symm
  eq_or_zero := fun _ _ _ _ hxy hyx => .inl (le_antisymm hxy hyx)
  neg_nonneg := fun _ _ hx => neg_nonneg.mpr (le_of_lt hx)

namespace MachineScalar

open Float.Model

variable {spec : Format} {x y : UnpackedFloat}

theorem exists_place (hx : x.isFinite = true) : ∃ p, place x = some p := by
  rcases x with _ | _ | _ | ⟨_ | _, _, _, _⟩
  · cases hx
  · cases hx
  · exact ⟨_, rfl⟩
  · exact ⟨_, rfl⟩
  · exact ⟨_, rfl⟩

/-- Only zeros share a place. -/
theorem eq_or_zero_of_place_eq (hx : x.isFinite = true) (h : place x = place y) :
    x = y ∨ ∃ sign, x = .zero sign := by
  rcases x with _ | _ | _ | ⟨_ | _, _, _, _⟩ <;>
    rcases y with (_ | _) | _ | _ | ⟨_ | _, _, _, _⟩ <;>
    simp_all [place, UnpackedFloat.isFinite]

theorem compare_eq_swap (x y : UnpackedFloat) :
    y.compare x = (x.compare y).map Ordering.swap := by
  rcases x with (_ | _) | _ | _ | ⟨_ | _, m, e, _⟩ <;>
    rcases y with (_ | _) | _ | _ | ⟨_ | _, m', e', _⟩ <;>
    first
      | rfl
      | simp [UnpackedFloat.compare, Ordering.swap_then, ← Int.compare_swap e e',
          ← Nat.compare_swap m m']

theorem exists_compare (hx : x ≠ .notANumber) (hy : y ≠ .notANumber) :
    ∃ o, x.compare y = some o := by
  rcases x with (_ | _) | _ | _ | ⟨_ | _, _, _, _⟩ <;>
    rcases y with (_ | _) | _ | _ | ⟨_ | _, _, _, _⟩ <;>
    first
      | exact ⟨_, rfl⟩
      | exact absurd rfl hx
      | exact absurd rfl hy

theorem ne_notANumber (hx : x.isFinite = true) : x ≠ .notANumber := by
  rintro rfl
  cases hx

theorem unpacked_lt_iff (hx : x.isFinite = true) (hy : y.isFinite = true) :
    x.lt y = true ↔ ¬ y.le x = true := by
  obtain ⟨o, ho⟩ := exists_compare (ne_notANumber hx) (ne_notANumber hy)
  rw [UnpackedFloat.lt, UnpackedFloat.le, compare_eq_swap x y, ho]
  cases o <;> decide

theorem unpacked_le_total (hx : x.isFinite = true) (hy : y.isFinite = true) :
    x.le y = true ∨ y.le x = true := by
  obtain ⟨p, hp⟩ := exists_place hx
  obtain ⟨q, hq⟩ := exists_place hy
  rw [unpacked_le_iff, unpacked_le_iff]
  rcases le_total p q with h | h
  · exact .inl ⟨p, q, hp, hq, h⟩
  · exact .inr ⟨q, p, hq, hp, h⟩

theorem eq_or_zero_of_unpacked_le (hx : x.isFinite = true) (hxy : x.le y = true)
    (hyx : y.le x = true) : x = y ∨ ∃ sign, x = .zero sign := by
  obtain ⟨p, q, hp, hq, hpq⟩ := unpacked_le_iff.mp hxy
  obtain ⟨q', p', hq', hp', hqp⟩ := unpacked_le_iff.mp hyx
  obtain rfl : q = q' := Option.some_inj.mp (hq.symm.trans hq')
  obtain rfl : p = p' := Option.some_inj.mp (hp.symm.trans hp')
  refine eq_or_zero_of_place_eq hx ?_
  rw [hp, hq, le_antisymm hpq hqp]

theorem zero_le_neg (hneg : x.lt (.zero .positive) = true) :
    UnpackedFloat.le (.zero .positive) x.neg = true := by
  rcases x with (_ | _) | _ | _ | ⟨_ | _, _, _, _⟩
  · rfl
  · cases hneg
  · cases hneg
  · cases hneg
  · rfl
  · cases hneg

theorem isZero_le {sign : UnpackedFloat.Sign} (hx : x = .zero sign) :
    x.le (.zero .positive) = true ∧ UnpackedFloat.le (.zero .positive) x = true := by
  subst hx
  exact ⟨rfl, rfl⟩

theorem lt_iff_unpacked_double (x y : Float) :
    x < y ↔ x.toModel.unpack.lt y.toModel.unpack = true := decide_eq_true_iff

theorem lt_iff_unpacked_single (x y : Float32) :
    x < y ↔ x.toModel.unpack.lt y.toModel.unpack = true := decide_eq_true_iff

instance : OrdersSizes Float where
  le_total := fun x y hx hy => by
    rw [le_iff_unpacked_double, le_iff_unpacked_double]
    exact unpacked_le_total hx hy
  le_trans := fun x y z _ _ _ hxy hyz => IsTrans.trans x y z hxy hyz
  lt_iff := fun x y hx hy => by
    rw [lt_iff_unpacked_double, le_iff_unpacked_double]
    exact unpacked_lt_iff hx hy
  eq_or_zero := fun x y hx hy hxy hyx => by
    rw [le_iff_unpacked_double] at hxy hyx
    rcases eq_or_zero_of_unpacked_le hx hxy hyx with h | ⟨sign, h⟩
    · exact .inl (eq_of_unpack_double h)
    · rw [le_iff_unpacked_double, le_iff_unpacked_double]
      exact .inr (isZero_le h)
  neg_nonneg := fun x _ hneg => by
    rw [le_iff_unpacked_double, unpack_neg_double]
    exact zero_le_neg ((lt_iff_unpacked_double x 0).mp hneg)

instance : OrdersSizes Float32 where
  le_total := fun x y hx hy => by
    rw [le_iff_unpacked_single, le_iff_unpacked_single]
    exact unpacked_le_total hx hy
  le_trans := fun x y z _ _ _ hxy hyz => IsTrans.trans x y z hxy hyz
  lt_iff := fun x y hx hy => by
    rw [lt_iff_unpacked_single, le_iff_unpacked_single]
    exact unpacked_lt_iff hx hy
  eq_or_zero := fun x y hx hy hxy hyx => by
    rw [le_iff_unpacked_single] at hxy hyx
    rcases eq_or_zero_of_unpacked_le hx hxy hyx with h | ⟨sign, h⟩
    · exact .inl (eq_of_unpack_single h)
    · rw [le_iff_unpacked_single, le_iff_unpacked_single]
      exact .inr (isZero_le h)
  neg_nonneg := fun x _ hneg => by
    rw [le_iff_unpacked_single, unpack_neg_single]
    exact zero_le_neg ((lt_iff_unpacked_single x 0).mp hneg)

end MachineScalar

end GridInversion
