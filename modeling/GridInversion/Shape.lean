namespace GridInversion

structure Shape where
  rows : Nat
  cols : Nat
deriving DecidableEq

/-- The column `x` and the row `y` of a cell. -/
structure Position where
  x : Nat
  y : Nat
deriving DecidableEq

namespace Shape

/-- The product is taken not to overflow a machine word. -/
def cells (s : Shape) : Nat := s.rows * s.cols

def Contains (s : Shape) (p : Position) : Prop := p.x < s.cols ∧ p.y < s.rows

instance (s : Shape) (p : Position) : Decidable (s.Contains p) :=
  inferInstanceAs (Decidable (_ ∧ _))

def offset (s : Shape) (p : Position) : Nat := p.y * s.cols + p.x

def rowMajor (s : Shape) : List Position :=
  (List.range s.rows).flatMap fun y => (List.range s.cols).map fun x => ⟨x, y⟩

def columnsBackwards (s : Shape) : List Position :=
  (List.range s.cols).reverse.flatMap fun x =>
    (List.range s.rows).reverse.map fun y => ⟨x, y⟩

def text (s : Shape) : String := toString s.rows ++ "x" ++ toString s.cols

def blocks (n factor : Nat) : Shape := ⟨n, n * factor⟩

@[simp] theorem mem_rowMajor {s : Shape} {p : Position} :
    p ∈ s.rowMajor ↔ s.Contains p := by
  obtain ⟨x, y⟩ := p
  simp only [rowMajor, List.mem_flatMap, List.mem_map, List.mem_range, Contains,
    Position.mk.injEq]
  grind

@[simp] theorem mem_columnsBackwards {s : Shape} {p : Position} :
    p ∈ s.columnsBackwards ↔ s.Contains p := by
  obtain ⟨x, y⟩ := p
  simp only [columnsBackwards, List.mem_flatMap, List.mem_map, List.mem_reverse,
    List.mem_range, Contains, Position.mk.injEq]
  grind

theorem offset_lt {s : Shape} {p : Position} (h : s.Contains p) : s.offset p < s.cells := by
  obtain ⟨hx, hy⟩ := h
  calc s.offset p = p.y * s.cols + p.x := rfl
    _ < p.y * s.cols + s.cols := by omega
    _ = (p.y + 1) * s.cols := by rw [Nat.add_mul, Nat.one_mul]
    _ ≤ s.rows * s.cols := Nat.mul_le_mul_right _ hy

theorem eq_of_offset_eq {s : Shape} {p q : Position} (hp : s.Contains p)
    (hq : s.Contains q) (h : s.offset p = s.offset q) : p = q := by
  rcases p with ⟨x, y⟩
  rcases q with ⟨x', y'⟩
  obtain ⟨hx, -⟩ := hp
  obtain ⟨hx', -⟩ := hq
  simp only [offset] at h hx hx'
  have hcols : 0 < s.cols := Nat.zero_lt_of_lt hx
  have hy : y = y' := by
    have hdiv := congrArg (· / s.cols) h
    simpa [Nat.mul_comm _ s.cols, Nat.mul_add_div hcols, Nat.div_eq_of_lt hx,
      Nat.div_eq_of_lt hx'] using hdiv
  subst hy
  have hxx : x = x' := by omega
  rw [hxx]

end Shape

end GridInversion
