import GridInversion.Shape

namespace GridInversion

inductive Event (α : Type) where
  | poolReady (workers : Nat) (pinned : Bool)
  | dispatching (grid : Shape)
  | engineChosen (engine : String) (workers : Nat) (epsilon : α)
  | pivotSettled (settled size : Nat)
  | pivotRejected (row : Nat) (pivot epsilon : α)
  | overflowed (size : Nat)
  | inverted (size : Nat)

inductive Occurrence (α : Type) where
  | dispatched (grid : Shape) (visits : Array Position)
  | reported (event : Event α)

abbrev Trace (α : Type) := List (Occurrence α)

namespace Trace

variable {α : Type}

def events (t : Trace α) : List (Event α) :=
  t.filterMap fun
    | .dispatched _ _ => none
    | .reported event => some event

def visits (t : Trace α) : List Position :=
  t.flatMap fun
    | .dispatched _ visits => visits.toList
    | .reported _ => []

def dispatches (t : Trace α) : List Shape :=
  t.filterMap fun
    | .dispatched grid _ => some grid
    | .reported _ => none

@[simp] theorem events_append (s t : Trace α) : events (s ++ t) = events s ++ events t :=
  List.filterMap_append ..

@[simp] theorem visits_append (s t : Trace α) : visits (s ++ t) = visits s ++ visits t :=
  List.flatMap_append ..

@[simp] theorem dispatches_append (s t : Trace α) :
    dispatches (s ++ t) = dispatches s ++ dispatches t :=
  List.filterMap_append ..

end Trace

end GridInversion
