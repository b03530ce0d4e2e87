import Mathlib.Algebra.Group.Ext
import GridInversion.Engine.Choice
import GridInversion.Proofs.ExactField
import GridInversion.Proofs.InversionCourses

namespace GridInversion

variable {α β γ : Type}

theorem Sweep.map_fill {n : Nat} (grid : Shape) (finish : Vector α n → β) (f : β → γ)
    (order : List Position) (buffer : Vector α n) :
    (fill grid finish order buffer).map f = fill grid (fun filled => f (finish filled)) order
      buffer := by
  induction order generalizing buffer with
  | nil => rfl
  | cons p rest ih =>
      simp only [fill, map, Sweep.evaluate.injEq, true_and]
      funext x
      split
      · exact ih _
      · rfl

/-- The state of the first run counts dispatches.  The run ends in the error `e` if the
dispatches of the second run would take the count beyond `k`, and otherwise as the second
run does. -/
def Run.Interrupts (k : Nat) (e : GridError) (run : Run Nat α β) (run' : Run Unit α β) : Prop :=
  ∀ count ≤ k,
    (count + (run' ()).trace.dispatchCount ≤ k →
      (run count).result = (run' ()).result ∧
        ∀ b, (run' ()).result = .ok b →
          (run count).state = count + (run' ()).trace.dispatchCount) ∧
    (k < count + (run' ()).trace.dispatchCount → (run count).result = .error (.error e))

namespace Run.Interrupts

variable {k : Nat} {e : GridError}

theorem of_dispatchCount_eq_zero {run : Run Nat α β} {run' : Run Unit α β}
    (hcount : (run' ()).trace.dispatchCount = 0)
    (hsame : ∀ count, (run count).state = count ∧ (run count).result = (run' ()).result) :
    run.Interrupts k e run' := by
  intro count hk
  rw [hcount]
  exact ⟨fun _ => ⟨(hsame count).2, fun _ _ => (hsame count).1⟩,
    fun h => absurd hk (Nat.not_le_of_lt h)⟩

/-- Of one dispatch: it must fail as number `k`, and be as in the second run before that. -/
theorem of_dispatchCount_eq_one {run : Run Nat α β} {run' : Run Unit α β}
    (hcount : (run' ()).trace.dispatchCount = 1) (hreached : (run k).result = .error (.error e))
    (hsame : ∀ count < k, (run count).result = (run' ()).result ∧
      ∀ b, (run' ()).result = .ok b → (run count).state = count + 1) :
    run.Interrupts k e run' := by
  intro count hk
  rw [hcount]
  rcases Nat.eq_or_lt_of_le hk with rfl | hlt
  · exact ⟨fun h => absurd h (Nat.not_succ_le_self _), fun _ => hreached⟩
  · exact ⟨fun _ => hsame count hlt, fun h => absurd hlt (Nat.not_lt_of_le (Nat.le_of_lt_succ h))⟩

theorem bind {run : Run Nat α β} {run' : Run Unit α β} {next : β → Run Nat α γ}
    {next' : β → Run Unit α γ} (h : run.Interrupts k e run')
    (hnext : ∀ b, (next b).Interrupts k e (next' b)) :
    (run >>= next).Interrupts k e (run' >>= next') := by
  intro count hk
  obtain ⟨hsame, hinterrupted⟩ := h count hk
  rcases hs : run count with ⟨t, s, result⟩
  rcases hs' : run' () with ⟨t', ⟨⟩, fault | b⟩
  · rw [hs, hs'] at hsame hinterrupted
    rw [Run.bind_apply_error hs']
    refine ⟨fun hle => ?_, fun hlt => ?_⟩
    · obtain ⟨rfl, -⟩ := hsame hle
      rw [Run.bind_apply_error hs]
      exact ⟨rfl, nofun⟩
    · obtain rfl := hinterrupted hlt
      rw [Run.bind_apply_error hs]
  · rw [hs, hs'] at hsame hinterrupted
    rw [Run.bind_apply_ok hs', Trace.dispatchCount_append, ← Nat.add_assoc]
    by_cases hreached : k < count + t'.dispatchCount
    · obtain rfl := hinterrupted hreached
      rw [Run.bind_apply_error hs]
      exact ⟨fun hle => absurd hreached (by omega), fun _ => rfl⟩
    · obtain ⟨rfl, hstate⟩ := hsame (Nat.le_of_not_lt hreached)
      obtain rfl := hstate b rfl
      rw [Run.bind_apply_ok hs]
      exact hnext b _ (Nat.le_of_not_lt hreached)

def relation (α : Type) (k : Nat) (e : GridError) : RunRelation Nat Unit α where
  Related := fun run run' => run.Interrupts k e run'
  ofExcept := fun _ => of_dispatchCount_eq_zero rfl fun _ => ⟨rfl, rfl⟩
  report := fun _ => of_dispatchCount_eq_zero rfl fun _ => ⟨rfl, rfl⟩
  bind := bind

theorem result_zero {run : Run Nat α β} {run' : Run Unit α β} (h : run.Interrupts k e run') :
    (run (0 : Nat)).result =
      if k < (run' ()).trace.dispatchCount then .error (.error e) else (run' ()).result := by
  obtain ⟨hsame, hinterrupted⟩ := h 0 (Nat.zero_le k)
  rw [Nat.zero_add] at hsame hinterrupted
  split
  · rename_i hlt
    exact hinterrupted hlt
  · rename_i hge
    exact (hsame (Nat.le_of_not_lt hge)).1

end Run.Interrupts

namespace Engine

theorem dispatch_failing {k count : Nat} (e : GridError) (hcount : count ≠ k) {n : Nat}
    (grid : Shape) (buffer : Vector α n) :
    (failing k e : Engine α).dispatch (count : Nat) grid buffer =
      ((serial : Engine α).dispatch () grid buffer).map fun reply =>
        (⟨count + 1, reply.buffer, reply.verdict⟩ : Reply Nat α n) := by
  simp only [failing, serial, visiting, walk, if_neg hcount]
  split
  · rw [Sweep.map_fill]
  · rfl

theorem fillBuffer_failing_self (k : Nat) (e : GridError) (grid : Shape) (buffer : Array α)
    (cell : Position → Option α) :
    (failing k e : Engine α).fillBuffer grid buffer cell (k : Nat) =
      ⟨[.dispatched grid #[]], (k + 1 : Nat), .ok ⟨buffer, .error e⟩⟩ := by
  simp [fillBuffer, failing, Sweep.follow]

theorem fillBuffer_failing {k count : Nat} (e : GridError) (hcount : count ≠ k) (grid : Shape)
    (buffer : Array α) (cell : Position → Option α) :
    (failing k e : Engine α).fillBuffer grid buffer cell (count : Nat) =
      match (serial : Engine α).fillBuffer grid buffer cell () with
      | ⟨trace, _, .ok w⟩ => ⟨trace, (count + 1 : Nat), .ok w⟩
      | ⟨trace, _, .error fault⟩ => ⟨trace, (count : Nat), .error fault⟩ := by
  rcases hfollow : ((serial : Engine α).dispatch () grid buffer.toVector).follow cell #[] #[] with
    ⟨visits, announced, reply?⟩
  have hfollow' := (congrArg (fun sweep => sweep.follow cell #[] #[])
    (dispatch_failing e hcount grid buffer.toVector)).trans (Sweep.follow_map _ _ _ _)
  rw [hfollow] at hfollow'
  unfold fillBuffer
  simp only [hfollow, hfollow']
  rcases reply? with _ | reply <;> rfl

end Engine

variable {k : Nat} {e : GridError}

theorem Engine.dispatchCount_fillBuffer_accept (engine : Engine α) (grid : Shape)
    (buffer : Array α) (cell : Position → Option α) (f : Array α → β) (s : engine.State) :
    ((engine.fillBuffer grid buffer cell >>= fun w =>
      Written.accept ⟨f w.out, w.verdict⟩) s).trace.dispatchCount = 1 := by
  have hcount : (engine.fillBuffer grid buffer cell s).trace.dispatchCount = 1 :=
    congrArg List.length (engine.dispatches_fillBuffer grid buffer cell s)
  rcases hs : engine.fillBuffer grid buffer cell s with ⟨t, s', fault | ⟨out, verdict⟩⟩
  · rw [hs] at hcount
    rwa [Run.bind_apply_error hs]
  · rw [hs] at hcount
    rw [Run.bind_apply_ok hs, Written.trace_accept, List.append_nil]
    exact hcount

theorem Engine.interrupts_fillBuffer_accept (grid : Shape) (buffer : Array α)
    (cell : Position → Option α) (f : Array α → β) :
    Run.Interrupts k e
      ((Engine.failing k e : Engine α).fillBuffer grid buffer cell >>= fun w =>
        Written.accept ⟨f w.out, w.verdict⟩)
      ((Engine.serial : Engine α).fillBuffer grid buffer cell >>= fun w =>
        Written.accept ⟨f w.out, w.verdict⟩) := by
  refine Run.Interrupts.of_dispatchCount_eq_one
    (Engine.dispatchCount_fillBuffer_accept _ grid buffer cell f _) ?_ fun count hcount => ?_
  · rw [Run.bind_apply_ok (Engine.fillBuffer_failing_self k e grid buffer cell)]
    rfl
  · have hfill := Engine.fillBuffer_failing e (Nat.ne_of_lt hcount) grid buffer cell
    rcases hs : (Engine.serial : Engine α).fillBuffer grid buffer cell () with
      ⟨t, s', fault | ⟨out, verdict⟩⟩
    · rw [hs] at hfill
      rw [Run.bind_apply_error hfill, Run.bind_apply_error hs]
      exact ⟨rfl, nofun⟩
    · rw [hs] at hfill
      rw [Run.bind_apply_ok hfill, Run.bind_apply_ok hs]
      rcases verdict with e' | _
      · exact ⟨rfl, nofun⟩
      · exact ⟨rfl, fun _ _ => rfl⟩

variable [Scalar α]

/-- A pass that refuses its input makes no dispatch, and otherwise makes one. -/
theorem Pass.interrupts_run (pass : Pass α) :
    Run.Interrupts k e (pass.run (.failing k e)) (pass.run .serial) := by
  rcases hadmission : pass.admission with e' | ⟨⟩
  · have hfail : ∀ engine : Engine α, pass.run engine = Run.fail e' := by
      intro engine
      rw [Pass.run, Pass.runInto, hadmission]
      rfl
    rw [hfail, hfail]
    exact (Run.Interrupts.relation α k e).ofExcept _
  · rw [Pass.run_eq_fillBuffer _ hadmission, Pass.run_eq_fillBuffer _ hadmission]
    exact Engine.interrupts_fillBuffer_accept _ _ _ _

namespace Inverter

theorem interrupts_invert (epsilon : α) (m : Matrix α) :
    Run.Interrupts k e ((⟨.failing k e, epsilon⟩ : Inverter α).invert m)
      ((⟨.serial, epsilon⟩ : Inverter α).invert m) :=
  related_invert (v := ⟨.failing k e, epsilon⟩) (w := ⟨.serial, epsilon⟩)
    (R := Run.Interrupts.relation α k e) rfl Pass.interrupts_run m

theorem interrupts_eliminate (epsilon : α) (aug : Matrix α) (n : Nat) :
    Run.Interrupts k e ((⟨.failing k e, epsilon⟩ : Inverter α).eliminate aug n)
      ((⟨.serial, epsilon⟩ : Inverter α).eliminate aug n) :=
  related_eliminate (v := ⟨.failing k e, epsilon⟩) (w := ⟨.serial, epsilon⟩)
    (R := Run.Interrupts.relation α k e) rfl Pass.interrupts_run aug n

section Counts

variable {v : Inverter α} (contract : v.engine.Faithful) {m aug : Matrix α} {n : Nat}
include contract

theorem dispatchCount_invert (hm : Admissible m) (s : v.engine.State) :
    ((∃ x, (v.invert m s).result = .ok x) ∨
        (v.invert m s).result = .error (.error .nonFinite)) ∧
      (v.invert m s).trace.dispatchCount = m.rows + 2 ∨
    ∃ r < m.rows, (v.invert m s).result = .error (.error (.uninvertible r)) ∧
      (v.invert m s).trace.dispatchCount = r + 1 := by
  obtain ⟨c, hcourse⟩ := exists_course (v := v) hm s
  have hresult := hcourse.result_eq
  have hcount := hcourse.dispatchCount_eq hm
  cases c with
  | inverted x => exact .inl ⟨.inl ⟨x, hresult⟩, hcount⟩
  | overflowed => exact .inl ⟨.inr hresult, hcount⟩
  | refused r pivot => exact .inr ⟨r, hcourse.pivot_eq.1, hresult, hcount⟩
  | failed k fault => exact absurd rfl (hcourse.ne_failed contract hm k fault)

theorem dispatchCount_eliminate (haug : aug.Fits (Stage.augmentedShape n))
    (s : v.engine.State) :
    (∃ x, (v.eliminate aug n s).result = .ok x) ∧
      (v.eliminate aug n s).trace.dispatchCount = n ∨
    ∃ r < n, (v.eliminate aug n s).result = .error (.error (.uninvertible r)) ∧
      (v.eliminate aug n s).trace.dispatchCount = r := by
  have hreached : ∀ {k : Nat} {s' : v.engine.State} {t : Trace α} {x : Matrix α}, k ≤ n →
      v.settleAllAfresh n k aug s = ⟨t, s', .ok x⟩ → t.dispatchCount = k := fun hk h =>
    (congrArg List.length (see_settleAllAfresh (View.dispatches v.engine) haug hk h)).trans
      (View.length_settling_dispatches n _)
  rw [v.eliminate_eq_settleAllAfresh haug]
  rcases hs : v.settleAllAfresh n n aug s with ⟨t, s', fault | x⟩
  · obtain ⟨r, hr, t₁, s₁, current, t₂, hsettled, hstops, rfl⟩ :=
      exists_stops haug (Nat.le_refl n) hs
    cases hstops with
    | refused hread hrefuses =>
        refine .inr ⟨r, hr, rfl, ?_⟩
        rw [Trace.dispatchCount_append, hreached (Nat.le_of_lt hr) hsettled]
        rfl
    | failed hpass =>
        have hcurrent := settleAllAfresh_fits haug hsettled
        exact ((Pass.ends_eliminate contract hcurrent.hasCells hr).of_result_error
          (congrArg Outcome.result hpass)).elim
  · exact .inl ⟨⟨x, rfl⟩, hreached (Nat.le_refl n) hs⟩

end Counts

/-- The error of a dispatch surfaces exactly if the dispatch is reached: with an engine that
fails at number `k`, a run ends in that error if the run on the serial engine makes more than
`k` dispatches, and otherwise it ends as that one. -/
theorem results_of_failing_dispatch (epsilon : α) (k : Nat) (e : GridError) :
    (∀ (m : Matrix α) (n : Nat), m.WellFormed → m.shape = ⟨n, n⟩ → n ≠ 0 →
      let plain := (⟨.serial, epsilon⟩ : Inverter α).invert m ()
      let c := plain.trace.dispatchCount
      (((∃ x, plain.result = .ok x) ∨ plain.result = .error (.error .nonFinite)) ∧ c = n + 2 ∨
        ∃ r < n, plain.result = .error (.error (.uninvertible r)) ∧ c = r + 1) ∧
      ((⟨.failing k e, epsilon⟩ : Inverter α).invert m (0 : Nat)).result =
        if k < c then .error (.error e) else plain.result) ∧
    ∀ (aug : Matrix α) (n : Nat), aug.WellFormed → aug.shape = Stage.augmentedShape n →
      let plain := (⟨.serial, epsilon⟩ : Inverter α).eliminate aug n ()
      let c := plain.trace.dispatchCount
      ((∃ x, plain.result = .ok x) ∧ c = n ∨
        ∃ r < n, plain.result = .error (.error (.uninvertible r)) ∧ c = r) ∧
      ((⟨.failing k e, epsilon⟩ : Inverter α).eliminate aug n (0 : Nat)).result =
        if k < c then .error (.error e) else plain.result := by
  refine ⟨fun m n hwell hshape hn => ⟨?_, (interrupts_invert epsilon m).result_zero⟩,
    fun aug n hwell hshape => ⟨?_, (interrupts_eliminate epsilon aug n).result_zero⟩⟩
  · have hfits := hwell.fits hshape
    obtain rfl : m.rows = n := hfits.rows
    have hm : Admissible m := ⟨hn, hfits.cols.symm, hwell⟩
    exact dispatchCount_invert (v := ⟨.serial, epsilon⟩) Engine.faithful_serial hm ()
  · exact dispatchCount_eliminate (v := ⟨.serial, epsilon⟩) Engine.faithful_serial
      (hwell.fits hshape) ()

/-- The run on a singular matrix of size two makes two dispatches, so the error of the second
one surfaces and that of a third one does not; elimination that refuses its first pivot makes
none. -/
theorem results_of_failing_dispatch_singular :
    (⟨2, 2, #[1, 2, 2, 4]⟩ : Matrix ℚ).WellFormed ∧
    ((⟨.failing 1 .poolExhausted, 0⟩ : Inverter ℚ).invert ⟨2, 2, #[1, 2, 2, 4]⟩
      (0 : Nat)).result = .error (.error .poolExhausted) ∧
    ((⟨.failing 2 .poolExhausted, 0⟩ : Inverter ℚ).invert ⟨2, 2, #[1, 2, 2, 4]⟩
      (0 : Nat)).result = .error (.error (.uninvertible 1)) ∧
    (⟨1, 2, #[0, 1]⟩ : Matrix ℚ).WellFormed ∧
    ((⟨.failing 0 .poolExhausted, 0⟩ : Inverter ℚ).eliminate ⟨1, 2, #[0, 1]⟩ 1
      (0 : Nat)).result = .error (.error (.uninvertible 0)) := by
  have hwell : (⟨2, 2, #[1, 2, 2, 4]⟩ : Matrix ℚ).WellFormed := rfl
  have hwell' : (⟨1, 2, #[0, 1]⟩ : Matrix ℚ).WellFormed := rfl
  have hresult := fun k : Nat => ((results_of_failing_dispatch (0 : ℚ) k .poolExhausted).1
    ⟨2, 2, #[1, 2, 2, 4]⟩ 2 hwell rfl (by decide)).2
  have hresult' := ((results_of_failing_dispatch (0 : ℚ) 0 .poolExhausted).2
    ⟨1, 2, #[0, 1]⟩ 1 hwell' rfl).2
  refine ⟨hwell, (hresult 1).trans ?_, (hresult 2).trans ?_, hwell', hresult'.trans ?_⟩
  · cbv
  · cbv
  · cbv

end Inverter

end GridInversion
