import GridInversion.Binary.Value
import GridInversion.Scalar

namespace GridInversion

class MachineScalar (α : Type) extends Scalar α where
  format : Binary.Format
  toBits : α → Nat
  ofBits : Nat → α
  /-- The size up to which a pivot counts as zero unless the user says otherwise. It does not
  depend on the size of the other cells. -/
  defaultEpsilon : α

namespace MachineScalar

instance : Scalar Float where
  zero := 0
  one := 1
  isFinite := Float.isFinite
  decidableLT := inferInstance
  decidableLE := inferInstance

instance : Scalar Float32 where
  zero := 0
  one := 1
  isFinite := Float32.isFinite
  decidableLT := inferInstance
  decidableLE := inferInstance

instance : MachineScalar Float where
  format := .double
  toBits := fun x => x.toBits.toNat
  ofBits := fun bits => Float.ofBits (UInt64.ofNat bits)
  defaultEpsilon := 1e-12

instance : MachineScalar Float32 where
  format := .single
  toBits := fun x => x.toBits.toNat
  ofBits := fun bits => Float32.ofBits (UInt32.ofNat bits)
  defaultEpsilon := 1e-6

variable {α : Type} [MachineScalar α]

def value (x : α) : Binary.Value := (format α).decode (toBits x)

def ofValue (v : Binary.Value) : α := ofBits ((format α).encode ((format α).convert v))

def ofDouble (x : Float) : α := ofValue (value x)

def toDouble (x : α) : Float := ofValue (value x)

end MachineScalar

inductive Tolerance (α : Type) where
  | standard
  | exact
  | upTo (epsilon : α)

def Tolerance.epsilon {α : Type} [MachineScalar α] : Tolerance α → α
  | standard => MachineScalar.defaultEpsilon
  | exact => 0
  | upTo epsilon => epsilon

end GridInversion
