import GridInversion.Shape

namespace GridInversion

inductive Stage where
  | augmentInit
  | rowEliminate
  | extractResult
deriving DecidableEq

namespace Stage

def augmentFactor : Nat := 2

def pingPongBuffers : Nat := 2

/-- Twice the size is taken not to overflow a machine word. -/
def augmentedShape (n : Nat) : Shape := Shape.blocks n augmentFactor

def name : Stage → String
  | augmentInit => "augment-init"
  | rowEliminate => "row-eliminate"
  | extractResult => "extract-result"

def code : Stage → Nat
  | augmentInit => 1
  | rowEliminate => 2
  | extractResult => 3

def grid : Stage → Nat → Shape
  | augmentInit, n => augmentedShape n
  | rowEliminate, n => augmentedShape n
  | extractResult, n => ⟨n, n⟩

instance : Ord Stage := ⟨fun a b => compare a.code b.code⟩

theorem code_injective {a b : Stage} (h : a.code = b.code) : a = b := by
  cases a <;> cases b <;> simp_all [code]

end Stage

end GridInversion
