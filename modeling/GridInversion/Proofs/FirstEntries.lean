import Mathlib.Data.Nat.Notation

namespace GridInversion

/-- The entry `x` stands behind `k` others and is the first in the list with the property. -/
structure FirstAt {α : Type} (P : α → Prop) (l : List α) (k : ℕ) (x : α) : Prop where
  getElem? : l[k]? = some x
  holds : P x
  before : ∀ y ∈ l.take k, ¬ P y

namespace FirstAt

variable {α : Type} {P : α → Prop} {l : List α} {x y : α} {k : ℕ}

theorem cons_iff_of_holds (hy : P y) : FirstAt P (y :: l) k x ↔ k = 0 ∧ x = y := by
  constructor
  · rintro ⟨hget, -, hbefore⟩
    cases k with
    | zero => exact ⟨rfl, (Option.some.inj hget).symm⟩
    | succ k => exact absurd hy (hbefore y (by simp))
  · rintro ⟨rfl, rfl⟩
    exact ⟨rfl, hy, by simp⟩

theorem cons_iff_of_not (hy : ¬ P y) :
    FirstAt P (y :: l) k x ↔ ∃ j, k = j + 1 ∧ FirstAt P l j x := by
  constructor
  · rintro ⟨hget, hx, hbefore⟩
    cases k with
    | zero =>
        obtain rfl : y = x := Option.some.inj hget
        exact absurd hx hy
    | succ k =>
        rw [List.take_succ_cons, List.forall_mem_cons] at hbefore
        exact ⟨k, rfl, by simpa using hget, hx, hbefore.2⟩
  · rintro ⟨j, rfl, hget, hx, hbefore⟩
    refine ⟨by simpa using hget, hx, ?_⟩
    rw [List.take_succ_cons, List.forall_mem_cons]
    exact ⟨hy, hbefore⟩

theorem mem (h : FirstAt P l k x) : x ∈ l := List.mem_of_getElem? h.getElem?

theorem exists_of_mem (hx : x ∈ l) (hP : P x) : ∃ k y, FirstAt P l k y := by
  induction l with
  | nil => cases hx
  | cons z l ih =>
      by_cases hz : P z
      · exact ⟨0, z, (cons_iff_of_holds hz).mpr ⟨rfl, rfl⟩⟩
      · have hrest : x ∈ l := (List.mem_cons.mp hx).resolve_left fun h => hz (h ▸ hP)
        obtain ⟨k, y, h⟩ := ih hrest
        exact ⟨k + 1, y, (cons_iff_of_not hz).mpr ⟨k, rfl, h⟩⟩

theorem find?_eq [DecidablePred P] (h : FirstAt P l k x) : l.find? (P ·) = some x := by
  induction l generalizing k with
  | nil => cases h.mem
  | cons y l ih =>
      by_cases hy : P y
      · obtain ⟨-, rfl⟩ := (cons_iff_of_holds hy).mp h
        exact List.find?_cons_of_pos (by simpa using hy)
      · obtain ⟨j, -, hrest⟩ := (cons_iff_of_not hy).mp h
        rw [List.find?_cons_of_neg (by simpa using hy), ih hrest]

theorem map {β : Type} {f : β → α} {l : List β} {x : β} (h : FirstAt (fun y => P (f y)) l k x) :
    FirstAt P (l.map f) k (f x) := by
  refine ⟨by rw [List.getElem?_map, h.getElem?, Option.map_some], h.holds, ?_⟩
  rw [← List.map_take]
  exact List.forall_mem_map.mpr h.before

end FirstAt

end GridInversion
