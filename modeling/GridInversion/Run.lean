import GridInversion.Error
import GridInversion.Event

namespace GridInversion

structure Outcome (σ α β : Type) where
  trace : Trace α
  state : σ
  result : Except Fault β

def Run (σ α β : Type) : Type := σ → Outcome σ α β

namespace Run

variable {σ α β γ : Type}

protected def pure (b : β) : Run σ α β := fun s => ⟨[], s, .ok b⟩

protected def bind (run : Run σ α β) (next : β → Run σ α γ) : Run σ α γ := fun s =>
  match run s with
  | ⟨trace, s, .error fault⟩ => ⟨trace, s, .error fault⟩
  | ⟨trace, s, .ok b⟩ =>
      match next b s with
      | ⟨rest, s, result⟩ => ⟨trace ++ rest, s, result⟩

instance : Monad (Run σ α) where
  pure := Run.pure
  bind := Run.bind

def ofExcept (result : Except Fault β) : Run σ α β := fun s => ⟨[], s, result⟩

def fail (e : GridError) : Run σ α β := ofExcept (.error (.error e))

def report (event : Event α) : Run σ α Unit := fun s => ⟨[.reported event], s, .ok ()⟩

@[simp] theorem pure_apply (b : β) (s : σ) :
    (pure b : Run σ α β) s = ⟨[], s, .ok b⟩ := rfl

theorem bind_apply_ok {run : Run σ α β} {next : β → Run σ α γ} {s s' : σ} {t : Trace α} {b : β}
    (h : run s = ⟨t, s', .ok b⟩) :
    (run >>= next) s =
      ⟨t ++ (next b s').trace, (next b s').state, (next b s').result⟩ := by
  show Run.bind run next s = _
  rw [Run.bind, h]

theorem bind_apply_error {run : Run σ α β} {next : β → Run σ α γ} {s s' : σ} {t : Trace α}
    {fault : Fault} (h : run s = ⟨t, s', .error fault⟩) :
    (run >>= next) s = ⟨t, s', .error fault⟩ := by
  show Run.bind run next s = _
  rw [Run.bind, h]

instance : LawfulMonad (Run σ α) := LawfulMonad.mk' _
  (by
    intro β run
    funext s
    show Run.bind run (fun b => Run.pure b) s = run s
    rcases h : run s with ⟨t, s', fault | b⟩ <;> simp [Run.bind, Run.pure, h])
  (by intros; rfl)
  (by
    intro β γ δ run next last
    funext s
    show Run.bind (Run.bind run next) last s = Run.bind run (fun b => Run.bind (next b) last) s
    rcases h : run s with ⟨t, s', fault | b⟩
    · simp [Run.bind, h]
    · rcases h' : next b s' with ⟨t', s'', fault | c⟩ <;>
        simp [Run.bind, h, h', List.append_assoc])

end Run

end GridInversion
