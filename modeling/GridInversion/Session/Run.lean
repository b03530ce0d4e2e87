import GridInversion.Session.Step

namespace GridInversion.Session

variable {α : Type} [Scalar α]

abbrev Store (α : Type) := Registry (Matrix α)

structure Outcome (α : Type) where
  store : Store α
  reply : Reply α
  trace : Trace α

def opening (engine : Engine α) (setUp : List (Event α)) : Trace α :=
  (engine.banner ++ setUp).map .reported

/-- A step that needs an engine sets up a new one. That is reported first, so it shows even if there
is no matrix to work on. -/
def withEngine {β : Type} (engine : Engine α) (setUp : List (Event α))
    (work : Option (Run engine.State α β)) : Trace α × Option (Except Fault β) :=
  match work with
  | none => (opening engine setUp, none)
  | some run =>
      let o := run engine.start
      (opening engine setUp ++ o.trace, some o.result)

def Recipe.follow (engine : Engine α) (store : Store α) :
    Recipe α → Trace α × Option (Except Fault (Matrix α))
  | zeros shape => ([], some (.ok (.zeros shape)))
  | identity n => ([], some (.ok (.identity n)))
  | empty => ([], some (.ok .empty))
  | ofArray shape data =>
      ([], some ((Matrix.ofArray shape.rows shape.cols data).mapError .error))
  | ofRows rows => ([], some ((Matrix.ofRows rows).mapError .error))
  | raw m => ([], some (.ok m))
  | copy source => ([], (store.get? source).map .ok)
  | product left right =>
      ([], do
        let l ← store.get? left
        let r ← store.get? right
        some (l.product r))
  | pass kind input =>
      withEngine engine [] <| (store.get? input).map fun m => (kind.over m).run engine
  | invert source epsilon =>
      let v : Inverter α := ⟨engine, epsilon⟩
      withEngine engine [v.announcement] <| (store.get? source).map fun m => v.invert m
  | reduce source n epsilon =>
      let v : Inverter α := ⟨engine, epsilon⟩
      withEngine engine [v.announcement] <| (store.get? source).map fun m => v.eliminate m n

def Change.apply (m : Matrix α) : Change α → Except Fault (Matrix α)
  | set r c v => m.set r c v
  | wipe => .ok m.wipe
  | reshape shape => .ok ⟨shape.rows, shape.cols, m.data⟩

def Reply.ofExcept {β : Type} (f : β → Reply α) : Except Fault β → Reply α
  | .ok b => f b
  | .error cause => .fault cause

def Question.answer (m : Matrix α) : Question → Reply α
  | whole => .matrix m
  | get r c => .ofExcept .cell (m.get r c)
  | read r c => .ofExcept .number (m.read r c)
  | row r => .ofExcept .row (m.row r)
  | rows => .rows m.toRows
  | shape => .shape m.shape
  | isSquare => .flag m.isSquare
  | isFinite => .flag m.isFinite
  | augmentCell n p => .ofExcept .number (boundsChecked (Pass.augmentCell m n p))
  | eliminateCell r p => .ofExcept .number (boundsChecked (Pass.eliminateCell m r p))
  | extractCell n p => .ofExcept .number (boundsChecked (Pass.extractCell m n p))

def Comparison.answer (a b : Matrix α) : Comparison α → Reply α
  | equal => .flag (a == b)
  | maxAbsDiff => .cell (a.maxAbsDiff b)
  | approxEq tolerance => .flag (a.approxEq b tolerance)
  | residual => .ofExcept .number (a.residual b)

/-- Runs a pass over one matrix into another. After a read past the end of the input the output
is half written, and is given up. -/
def passInto (engine : Engine α) (store : Store α) (kind : PassKind) (input out : String) :
    Outcome α :=
  let work := do
    let m ← store.get? input
    let o ← store.get? out
    some ((kind.over m).runInto engine o)
  match withEngine engine [] work with
  | (trace, none) => ⟨store, .missing, trace⟩
  | (trace, some (.error fault)) => ⟨store.erase out, .fault fault, trace⟩
  | (trace, some (.ok w)) =>
      match w.verdict with
      | .ok () => ⟨store.put out w.out, .matrix w.out, trace⟩
      | .error e => ⟨store.put out w.out, .fault (.error e), trace⟩

def step (engine : Engine α) (store : Store α) : Step α → Outcome α
  | .make target recipe =>
      match recipe.follow engine store with
      | (trace, none) => ⟨store, .missing, trace⟩
      | (trace, some (.error fault)) => ⟨store, .fault fault, trace⟩
      | (trace, some (.ok m)) => ⟨store.put target m, .matrix m, trace⟩
  | .change name change =>
      match store.get? name with
      | none => ⟨store, .missing, []⟩
      | some m =>
          match change.apply m with
          | .ok m => ⟨store.put name m, .matrix m, []⟩
          | .error fault => ⟨store, .fault fault, []⟩
  | .passInto kind input out => passInto engine store kind input out
  | .ask name question =>
      match store.get? name with
      | none => ⟨store, .missing, []⟩
      | some m => ⟨store, question.answer m, []⟩
  | .compare first second comparison =>
      match store.get? first, store.get? second with
      | some a, some b => ⟨store, comparison.answer a b, []⟩
      | _, _ => ⟨store, .missing, []⟩
  | .describe epsilon =>
      let v : Inverter α := ⟨engine, epsilon⟩
      ⟨store, .inverter epsilon engine.name engine.workers,
        opening engine [v.announcement]⟩

end GridInversion.Session
