import GridInversion.Inverter
import GridInversion.Matrix.Arithmetic
import GridInversion.Registry

namespace GridInversion.Session

inductive PassKind where
  | augment (n : Nat)
  | eliminate (n r : Nat)
  | extract (n : Nat)
deriving DecidableEq

def PassKind.over {α : Type} [Scalar α] (input : Matrix α) : PassKind → Pass α
  | augment n => Pass.augment input n
  | eliminate n r => Pass.eliminate input n r
  | extract n => Pass.extract input n

inductive Recipe (α : Type) where
  | zeros (shape : Shape)
  | identity (n : Nat)
  | empty
  | ofArray (shape : Shape) (data : Array α)
  | ofRows (rows : List (Array α))
  | raw (m : Matrix α)
  | copy (source : String)
  | product (left right : String)
  | pass (kind : PassKind) (input : String)
  | invert (source : String) (epsilon : α)
  | reduce (source : String) (n : Nat) (epsilon : α)

inductive Change (α : Type) where
  | set (r c : Nat) (v : α)
  | wipe
  | reshape (shape : Shape)

inductive Question where
  | whole
  | get (r c : Nat)
  | read (r c : Nat)
  | row (r : Nat)
  | rows
  | shape
  | isSquare
  | isFinite
  | augmentCell (n : Nat) (p : Position)
  | eliminateCell (r : Nat) (p : Position)
  | extractCell (n : Nat) (p : Position)

inductive Comparison (α : Type) where
  | equal
  | maxAbsDiff
  | approxEq (tolerance : α)
  | residual

inductive Step (α : Type) where
  | make (target : String) (recipe : Recipe α)
  | change (name : String) (change : Change α)
  | passInto (kind : PassKind) (input out : String)
  | ask (name : String) (question : Question)
  | compare (first second : String) (comparison : Comparison α)
  | describe (epsilon : α)

inductive Reply (α : Type) where
  | matrix (m : Matrix α)
  | number (x : α)
  | cell (x : Option α)
  | flag (b : Bool)
  | shape (s : Shape)
  | row (cells : Array α)
  | rows (rows : List (Array α))
  | inverter (epsilon : α) (engine : String) (workers : Nat)
  | fault (f : Fault)
  | missing

end GridInversion.Session
