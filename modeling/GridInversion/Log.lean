import GridInversion.Decimal.Shortest
import GridInversion.Event
import GridInversion.MachineScalar

namespace GridInversion.Log

inductive Level where
  | debug
  | info
  | warn
deriving DecidableEq

def Level.name : Level → String
  | debug => "DEBUG"
  | info => "INFO"
  | warn => "WARN"

inductive Source where
  | engine
  | inverter
deriving DecidableEq

structure Line where
  level : Level
  source : Source
  text : String
deriving DecidableEq

def squareText (n : Nat) : String := Shape.text ⟨n, n⟩

section Events

variable {α : Type}

def lineWith (write : α → String) : Event α → Line
  | .poolReady workers pinned =>
      ⟨.info, .engine, "[GRID] rayon pool ready: " ++ toString workers ++ " workers" ++
        if pinned then " (pinned)" else ""⟩
  | .dispatching grid => ⟨.debug, .engine, "[GRID] dispatch " ++ grid.text⟩
  | .engineChosen engine workers epsilon =>
      ⟨.info, .inverter, "[SOLVER] engine: " ++ engine ++ " (" ++ toString workers ++
        " workers), epsilon " ++ write epsilon⟩
  | .pivotSettled settled size =>
      ⟨.debug, .inverter, "[PIVOT] " ++ toString settled ++ "/" ++ toString size ++ " settled"⟩
  | .pivotRejected row pivot epsilon =>
      ⟨.warn, .inverter, "[PIVOT] row " ++ toString row ++ " diagonal " ++ write pivot ++
        " within " ++ write epsilon ++ " of zero"⟩
  | .overflowed size =>
      ⟨.warn, .inverter, "[SOLVER] " ++ squareText size ++ " inverse overflowed"⟩
  | .inverted size => ⟨.info, .inverter, "[SOLVER] inverted " ++ squareText size⟩

def linesWith (write : α → String) (t : Trace α) : List Line := t.events.map (lineWith write)

@[simp] theorem linesWith_append (write : α → String) (t u : Trace α) :
    linesWith write (t ++ u) = linesWith write t ++ linesWith write u := by
  simp [linesWith]

end Events

section Machine

variable {α : Type} [MachineScalar α]

def numberText (x : α) : String :=
  Decimal.shortestText (MachineScalar.format α) (MachineScalar.value x)

def lines (t : Trace α) : List Line := linesWith numberText t

end Machine

end GridInversion.Log
