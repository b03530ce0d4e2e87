import GridInversion.Buffer.Pool
import GridInversion.Registry

/-!
Several pools and the leases that are out, under names.

A lease holds a buffer of its pool, and whoever has the lease may do anything to the buffer. A
lease that is dropped, or overwritten by another one, gives its buffer back. The ledger also keeps
account of the buffers that did not come back because they had lost the shape of their pool.
-/

namespace GridInversion

structure Lease (α : Type) where
  pool : Nat
  matrix : Matrix α

/-- Pools, the leases that are out, and for each buffer lost the number of its pool. -/
structure Ledger (α : Type) where
  pools : Array (Pool α)
  leases : Registry (Lease α)
  lost : List Nat

namespace Ledger

inductive Step (α : Type) where
  | alloc (pool : Nat) (name : String)
  | lease (pool : Nat) (name : String)
  | shape (pool : Nat)
  | drop (name : String)
  | move (source target : String)
  /-- Swap the matrices of two leases. Each lease stays with its pool. -/
  | swap (first second : String)
  | copy (name : String)
  | get (name : String) (r c : Nat)
  | set (name : String) (r c : Nat) (v : α)
  | fill (name : String) (v : α)
  | resize (name : String) (size : Nat) (v : α)
  | reshape (name : String) (shape : Shape)
  | replace (name : String) (m : Matrix α)

inductive Reply (α : Type) where
  | done
  | matrix (m : Matrix α)
  | matrices (first second : Matrix α)
  | shape (s : Shape)
  | cell (x : Option α)
  | nothing
  | fault (f : Fault)
  | missing

variable {α : Type} [Scalar α]

def new (pools : List (Nat × Shape)) : Ledger α :=
  ⟨(pools.map fun p => Pool.new p.1 p.2).toArray, .empty, []⟩

def available (l : Ledger α) : List Nat := l.pools.toList.map Pool.available

def giveBack (l : Ledger α) (lease : Lease α) : Ledger α :=
  match l.pools[lease.pool]? with
  | none => l
  | some pool =>
      if lease.matrix.shape = pool.shape then
        { l with pools := l.pools.setIfInBounds lease.pool (pool.release lease.matrix) }
      else { l with lost := lease.pool :: l.lost }

def store (l : Ledger α) (name : String) (lease : Lease α) : Ledger α :=
  let stored := { l with leases := l.leases.put name lease }
  match l.leases.get? name with
  | none => stored
  | some old => stored.giveBack old

def takeFrom (l : Ledger α) (pool : Nat) (name : String) (exhausted : Reply α) :
    Ledger α × Reply α :=
  match l.pools[pool]? with
  | none => (l, .missing)
  | some p =>
      match p.take? with
      | none => (l, exhausted)
      | some (m, p) =>
          (({ l with pools := l.pools.setIfInBounds pool p }).store name ⟨pool, m⟩, .matrix m)

def modify (l : Ledger α) (name : String) (f : Matrix α → Except Fault (Matrix α)) :
    Ledger α × Reply α :=
  match l.leases.get? name with
  | none => (l, .missing)
  | some lease =>
      match f lease.matrix with
      | .ok m => ({ l with leases := l.leases.put name { lease with matrix := m } }, .matrix m)
      | .error fault => (l, .fault fault)

def inspect (l : Ledger α) (name : String) (f : Matrix α → Reply α) : Ledger α × Reply α :=
  match l.leases.get? name with
  | none => (l, .missing)
  | some lease => (l, f lease.matrix)

def resized (data : Array α) (size : Nat) (v : α) : Array α :=
  data.extract 0 size ++ Array.replicate (size - data.size) v

def step (l : Ledger α) : Step α → Ledger α × Reply α
  | .alloc pool name => l.takeFrom pool name .nothing
  | .lease pool name => l.takeFrom pool name (.fault (.error .poolExhausted))
  | .shape pool =>
      match l.pools[pool]? with
      | none => (l, .missing)
      | some p => (l, .shape p.shape)
  | .drop name =>
      match l.leases.get? name with
      | none => (l, .missing)
      | some lease => (({ l with leases := l.leases.erase name }).giveBack lease, .done)
  | .move source target =>
      match l.leases.get? source with
      | none => (l, .missing)
      | some lease =>
          if source = target then (l, .done)
          else (({ l with leases := l.leases.erase source }).store target lease, .done)
  | .swap first second =>
      match l.leases.get? first, l.leases.get? second with
      | some a, some b =>
          let leases := l.leases.put first { a with matrix := b.matrix }
          let leases := leases.put second { b with matrix := a.matrix }
          ({ l with leases := leases }, .matrices b.matrix a.matrix)
      | _, _ => (l, .missing)
  | .copy name => l.inspect name .matrix
  | .get name r c =>
      l.inspect name fun m =>
        match m.get r c with
        | .ok x => .cell x
        | .error fault => .fault fault
  | .set name r c v => l.modify name (·.set r c v)
  | .fill name v => l.modify name fun m => .ok { m with data := m.data.map fun _ => v }
  | .resize name size v => l.modify name fun m => .ok { m with data := resized m.data size v }
  | .reshape name shape => l.modify name fun m => .ok ⟨shape.rows, shape.cols, m.data⟩
  | .replace name m => l.modify name fun _ => .ok m

end Ledger

end GridInversion
