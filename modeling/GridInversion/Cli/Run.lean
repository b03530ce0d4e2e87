import GridInversion.Decimal.Fixed
import GridInversion.Engine.Choice
import GridInversion.Inverter
import GridInversion.Matrix.Arithmetic
import GridInversion.MatrixText
import GridInversion.Random.Dominant

namespace GridInversion.Cli

inductive Source where
  | example
  | random (n : Nat)
  | stdin
  | file (path : String)
deriving DecidableEq

structure Options where
  source : Source
  seed : Nat
  epsilon : Option Float
  serial : Bool
  /-- The number of workers; with 0 it is left to the machine. -/
  threads : Nat
  pinCores : Bool
  places : Nat
  single : Bool
  verify : Bool

def Options.verifying (o : Options) : Options := { o with verify := true }

inductive Unreadable where
  | missing
  | directory
  | notUnicode
  | other (reason : String)
deriving DecidableEq

def Unreadable.message : Unreadable → String
  | missing => "No such file or directory (os error 2)"
  | directory => "Is a directory (os error 21)"
  | notUnicode => "stream did not contain valid UTF-8"
  | other reason => reason

inductive Failure where
  | unreadable (input : String) (why : Unreadable)
  | emptyRandom
  | noRows (e : MatrixText.ReadError)
  | noMatrix (e : GridError)
  | notInverted (shape : Shape) (fault : Fault)
  | notVerified (fault : Fault)

/-- No run comes to a read past the end of a buffer. -/
def faultMessage : Fault → String
  | .error e => e.message
  | .outOfBounds => "read past the end of a buffer"

def Failure.message : Failure → String
  | unreadable input why => "reading " ++ input ++ ": " ++ why.message
  | emptyRandom => "--random needs N >= 1"
  | noRows e => e.message
  | noMatrix e => e.message
  | notInverted shape fault => "inverting " ++ shape.text ++ " matrix: " ++ faultMessage fault
  | notVerified fault => faultMessage fault

abbrev Content := Except Unreadable ByteArray

def textOf (input : String) (content : Content) : Except Failure (List Char) :=
  match content with
  | .error why => .error (.unreadable input why)
  | .ok bytes =>
      match String.fromUTF8? bytes with
      | some text => .ok text.toList
      | none => .error (.unreadable input .notUnicode)

def readInput (input : String) (content : Content) : Except Failure (List (List Float)) :=
  match textOf input content with
  | .error failure => .error failure
  | .ok text => (MatrixText.readRows text).mapError .noRows

structure Report where
  stdout : String
  stderr : String
deriving DecidableEq

def residualLine {α : Type} [MachineScalar α] (r : α) : String :=
  "verified: identity residual " ++
    Decimal.scientificText 3 (MachineScalar.value r) ++ "\n"

namespace Options

variable (o : Options)

/-- The rows of the matrix to invert. The content is that of the input that the options name. -/
def rows (g : Random.Generator) (content : Content) : Except Failure (List (List Float)) :=
  match o.source with
  | .example => .ok Random.exampleRows
  | .random n =>
      if n = 0 then .error .emptyRandom else .ok (g.dominantRows n (UInt64.ofNat o.seed))
  | .stdin => readInput "stdin" content
  | .file path => readInput path content

def engine : EngineChoice := if o.serial then .serial else .parallel o.threads o.pinCores

section Precision

variable (α : Type) [MachineScalar α]

def tolerance : Tolerance α :=
  match o.epsilon with
  | none => .standard
  | some x => .upTo (MachineScalar.ofDouble x)

def inverter : Inverter α := ⟨o.engine.engine, (o.tolerance α).epsilon⟩

/-- The matrix of the rows in the precision of `α`, and its inverse. -/
def inverted (rows : List (List Float)) : Except Failure (Matrix α × Matrix α) :=
  match Matrix.ofRows (rows.map fun row => (row.map MachineScalar.ofDouble).toArray) with
  | .error e => .error (.noMatrix e)
  | .ok m =>
      match ((o.inverter α).invert m (o.inverter α).engine.start).result with
      | .error fault => .error (.notInverted m.shape fault)
      | .ok x => .ok (m, x)

variable {α}

/-- What the error stream says about an inverse. An inverse that cannot be checked is a failure. -/
def check (m x : Matrix α) : Except Failure String :=
  if o.verify then ((m.residual x).mapError .notVerified).map residualLine else .ok ""

def text (x : Matrix α) : String := MatrixText.matrixText x o.places ++ "\n"

variable (α)

def report (rows : List (List Float)) : Except Failure Report :=
  match o.inverted α rows with
  | .error failure => .error failure
  | .ok (m, x) => (o.check m x).map fun line => ⟨o.text x, line⟩

end Precision

def run (g : Random.Generator) (content : Content) : Except Failure Report :=
  match o.rows g content with
  | .error failure => .error failure
  | .ok rows => if o.single then o.report Float32 rows else o.report Float rows

end Options

end GridInversion.Cli
