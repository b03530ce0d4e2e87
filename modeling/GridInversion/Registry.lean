namespace GridInversion

structure Registry (β : Type) where
  entries : List (String × β)

namespace Registry

variable {β : Type}

def empty : Registry β := ⟨[]⟩

def get? (r : Registry β) (name : String) : Option β :=
  (r.entries.find? fun e => e.1 = name).map (·.2)

def erase (r : Registry β) (name : String) : Registry β :=
  ⟨r.entries.filter fun e => e.1 ≠ name⟩

def put (r : Registry β) (name : String) (value : β) : Registry β :=
  ⟨(name, value) :: (r.erase name).entries⟩

def values (r : Registry β) : List β := r.entries.map (·.2)

@[simp] theorem get?_empty (name : String) : (empty : Registry β).get? name = none := rfl

@[simp] theorem get?_put_self (r : Registry β) (name : String) (value : β) :
    (r.put name value).get? name = some value := by
  simp [get?, put]

@[simp] theorem get?_erase_self (r : Registry β) (name : String) :
    (r.erase name).get? name = none := by
  simp [get?, erase, List.find?_eq_none]

theorem get?_erase_of_ne (r : Registry β) {name other : String} (h : other ≠ name) :
    (r.erase name).get? other = r.get? other := by
  simp only [get?, erase, List.find?_filter]
  congr 2
  funext e
  grind

theorem get?_put_of_ne (r : Registry β) {name other : String} (h : other ≠ name) (value : β) :
    (r.put name value).get? other = r.get? other := by
  rw [← get?_erase_of_ne r h]
  simp [get?, put, Ne.symm h]

theorem mem_values_of_get? {r : Registry β} {name : String} {value : β}
    (h : r.get? name = some value) : value ∈ r.values := by
  obtain ⟨e, he, rfl⟩ := Option.map_eq_some_iff.1 h
  exact List.mem_map_of_mem (List.mem_of_find?_eq_some he)

end Registry

end GridInversion
