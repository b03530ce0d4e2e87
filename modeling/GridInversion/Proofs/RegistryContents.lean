import Mathlib.Data.List.Perm.Basic
import GridInversion.Registry

namespace GridInversion.Registry

variable {β γ : Type} {r : Registry β} {name : String} {value : β}

def Distinct (r : Registry β) : Prop := (r.entries.map Prod.fst).Nodup

theorem distinct_empty : (empty : Registry β).Distinct := List.nodup_nil

theorem Distinct.erase (h : r.Distinct) (name : String) : (r.erase name).Distinct :=
  h.sublist (List.filter_sublist.map Prod.fst)

theorem Distinct.put (h : r.Distinct) (name : String) (value : β) :
    (r.put name value).Distinct := by
  refine List.nodup_cons.mpr ⟨?_, h.erase name⟩
  simp [Registry.erase]

theorem values_put (r : Registry β) (name : String) (value : β) :
    (r.put name value).values = value :: (r.erase name).values := rfl

/-- The values of a registry are the one under a given name, if it is in use, and those that
are left without it. -/
theorem Distinct.values_perm (h : r.Distinct) (name : String) :
    r.values.Perm ((r.get? name).toList ++ (r.erase name).values) := by
  obtain ⟨entries⟩ := r
  induction entries with
  | nil => exact List.Perm.refl _
  | cons e rest ih =>
      obtain ⟨hfresh, hrest⟩ := List.nodup_cons.mp h
      by_cases he : e.1 = name
      · have hnone : ∀ e' ∈ rest, e'.1 ≠ name := by
          intro e' he' heq
          exact hfresh (List.mem_map.mpr ⟨e', he', heq.trans he.symm⟩)
        have hget : (Registry.mk (e :: rest)).get? name = some e.2 := by
          simp [get?, he]
        have herase : (Registry.mk (e :: rest)).erase name = ⟨rest⟩ := by
          simpa [Registry.erase, he] using hnone
        rw [hget, herase]
        exact List.Perm.refl _
      · have hget : (Registry.mk (e :: rest)).get? name = (Registry.mk rest).get? name := by
          simp [get?, he]
        have herase : (Registry.mk (e :: rest)).erase name =
            ⟨e :: ((Registry.mk rest).erase name).entries⟩ := by
          simp [Registry.erase, he]
        rw [hget, herase]
        exact ((ih hrest).cons e.2).trans List.perm_middle.symm

theorem Distinct.map_values_perm (h : r.Distinct) (name : String) (f : β → γ) :
    (r.values.map f).Perm
      (((r.get? name).toList.map f) ++ ((r.erase name).values.map f)) := by
  rw [← List.map_append]
  exact (h.values_perm name).map f

/-- A new value under a name in use makes no difference to what both values agree on. -/
theorem Distinct.map_values_put (h : r.Distinct) {old : β} (hold : r.get? name = some old)
    {f : β → γ} (hf : f value = f old) :
    ((r.put name value).values.map f).Perm (r.values.map f) := by
  have hperm := h.map_values_perm name f
  rw [hold] at hperm
  rw [values_put, List.map_cons, hf]
  exact hperm.symm

end GridInversion.Registry
