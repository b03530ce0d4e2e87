import GridInversion.Shape

namespace GridInversion

inductive GridError where
  | invalidShape (found : Shape)
  | shapeMismatch (expected found : Shape)
  | pivotOutOfRange (pivot size : Nat)
  | uninvertible (pivot : Nat)
  | nonFinite
  | poolExhausted
deriving DecidableEq

namespace GridError

def name : GridError → String
  | invalidShape _ => "InvalidShape"
  | shapeMismatch _ _ => "ShapeMismatch"
  | pivotOutOfRange _ _ => "PivotOutOfRange"
  | uninvertible _ => "Uninvertible"
  | nonFinite => "NonFinite"
  | poolExhausted => "PoolExhausted"

def message : GridError → String
  | invalidShape found => "invalid input shape " ++ found.text
  | shapeMismatch expected found =>
      "buffer shape mismatch: expected " ++ expected.text ++ ", found " ++ found.text
  | pivotOutOfRange pivot size =>
      "pivot " ++ toString pivot ++ " out of range for size " ++ toString size
  | uninvertible pivot =>
      "uninvertible matrix (zero pivot at row " ++ toString pivot ++ ")"
  | nonFinite => name nonFinite
  | poolExhausted => name poolExhausted

def record (name : String) (fields : List (String × String)) : String :=
  if fields.isEmpty then name
  else
    name ++ " \x7b " ++
      ", ".intercalate (fields.map fun f => f.1 ++ ": " ++ f.2) ++ " \x7d"

def pairText (s : Shape) : String :=
  "(" ++ toString s.rows ++ ", " ++ toString s.cols ++ ")"

def fields : GridError → List (String × String)
  | invalidShape found => [("rows", toString found.rows), ("cols", toString found.cols)]
  | shapeMismatch expected found =>
      [("expected", pairText expected), ("found", pairText found)]
  | pivotOutOfRange pivot size => [("pivot", toString pivot), ("size", toString size)]
  | uninvertible pivot => [("pivot", toString pivot)]
  | nonFinite => []
  | poolExhausted => []

def describe (e : GridError) : String := record e.name e.fields

end GridError

inductive Fault where
  | error (cause : GridError)
  | outOfBounds
deriving DecidableEq

def boundsChecked {β : Type} : Option β → Except Fault β
  | some b => .ok b
  | none => .error .outOfBounds

@[simp] theorem boundsChecked_some {β : Type} (b : β) : boundsChecked (some b) = .ok b := rfl

@[simp] theorem boundsChecked_none {β : Type} :
    boundsChecked (none : Option β) = .error .outOfBounds := rfl

end GridInversion
