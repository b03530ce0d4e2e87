import GridInversion.Cli.Report
import GridInversion.Proofs.InversionVerdict
import GridInversion.Proofs.MachineBits
import GridInversion.Proofs.ResidualCells

namespace GridInversion

/-- Both products of two matrices miss the identity by finite values in all cells. -/
def Matrix.FinitelyInverse {α : Type} [Scalar α] (m x : Matrix α) : Prop :=
  (m.cells.product m.rows x.cells).FinitelyOff m.rows ∧
    (x.cells.product m.rows m.cells).FinitelyOff m.rows

/-- Once a matrix is inverted, the residual is a number if the check stays finite, and an error
if it does not. -/
def ResidualFollows (α : Type) [MachineScalar α] : Prop :=
  ∀ (v : Inverter α) (s : v.engine.State) (m x : Matrix α), v.engine.Faithful →
    (v.invert m s).result = .ok x →
      (m.FinitelyInverse x → ∃ r, m.residual x = .ok r) ∧
        (¬ m.FinitelyInverse x → m.residual x = .error (.error .nonFinite))

theorem residualFollows (α : Type) [MachineScalar α] [NegatesFinite α] : ResidualFollows α := by
  intro v s m x contract h
  have hadmissible := Inverter.admissible_of_invert_eq_ok h
  have hm : m.HasCells ⟨m.rows, m.rows⟩ m.cells := by
    refine (hadmissible.2.2.fits ?_).hasCells
    rw [Matrix.shape, ← hadmissible.2.1]
  have hx := ((Inverter.ends_invert contract hm hadmissible.1).of_result_ok h).2.1
  rcases Matrix.residual_cases hm hx.toFits.hasCells with ⟨hnear, hnear', hr⟩ | ⟨hfar, hr⟩
  · exact ⟨fun _ => hr, fun hfar => absurd ⟨hnear, hnear'⟩ hfar⟩
  · exact ⟨fun hnear => absurd hnear hfar, fun _ => hr⟩

namespace Cli

variable {α : Type} [MachineScalar α] {o : Options} {rows : List (List Float)}

namespace Options

theorem faithful_engine (o : Options) : (o.inverter α).engine.Faithful := by
  show (EngineChoice.engine (if o.serial then .serial else .parallel o.threads o.pinCores) :
    Engine α).Faithful
  split
  · exact Engine.faithful_serial
  · exact Engine.faithful_parallel _ _

theorem invert_of_inverted {m x : Matrix α} (h : o.inverted α rows = .ok (m, x)) :
    ((o.inverter α).invert m (o.inverter α).engine.start).result = .ok x := by
  unfold inverted at h
  split at h
  · cases h
  · split at h
    · cases h
    · rename_i hinvert
      cases h
      exact hinvert

/-- In the precision of `α` the rows are inverted and the check of the inverse stays finite: the
inverse is printed as `text`, and `line` says its residual. -/
def ConfirmsIn (o : Options) (α : Type) [MachineScalar α] (rows : List (List Float))
    (text line : String) : Prop :=
  ∃ (m x : Matrix α) (r : α), o.inverted α rows = .ok (m, x) ∧ m.FinitelyInverse x ∧
    m.residual x = .ok r ∧ text = o.text x ∧ line = residualLine r

/-- In the precision of `α` the rows are inverted, with `text` for the inverse, but the check does
not stay finite. -/
def OverflowsIn (o : Options) (α : Type) [MachineScalar α] (rows : List (List Float))
    (text : String) : Prop :=
  ∃ m x : Matrix α, o.inverted α rows = .ok (m, x) ∧ ¬ m.FinitelyInverse x ∧ text = o.text x

theorem inverted_verifying (o : Options) (rows : List (List Float)) :
    o.verifying.inverted α rows = o.inverted α rows := rfl

theorem report_of_inverted {m x : Matrix α} (h : o.inverted α rows = .ok (m, x)) :
    o.report α rows = (o.check m x).map fun line => ⟨o.text x, line⟩ := by
  rw [report, h]

theorem report_of_not_verify {m x : Matrix α} (h : o.inverted α rows = .ok (m, x))
    (hplain : o.verify = false) : o.report α rows = .ok ⟨o.text x, ""⟩ := by
  rw [report_of_inverted h, check, hplain]
  rfl

theorem report_verifying {m x : Matrix α} (h : o.inverted α rows = .ok (m, x)) :
    o.verifying.report α rows =
      (((m.residual x).mapError .notVerified).map residualLine).map fun line =>
        ⟨o.text x, line⟩ :=
  report_of_inverted (o := o.verifying) h

theorem ConfirmsIn.report_eq {text line : String} (h : o.ConfirmsIn α rows text line)
    (hplain : o.verify = false) :
    o.report α rows = .ok ⟨text, ""⟩ ∧ o.verifying.report α rows = .ok ⟨text, line⟩ := by
  obtain ⟨m, x, r, hinverted, -, hr, rfl, rfl⟩ := h
  refine ⟨report_of_not_verify hinverted hplain, ?_⟩
  rw [report_verifying hinverted, hr]
  rfl

theorem OverflowsIn.report_eq [NegatesFinite α] {text : String} (h : o.OverflowsIn α rows text)
    (hplain : o.verify = false) :
    o.report α rows = .ok ⟨text, ""⟩ ∧
      o.verifying.report α rows = .error (.notVerified (.error .nonFinite)) := by
  obtain ⟨m, x, hinverted, hfar, rfl⟩ := h
  refine ⟨report_of_not_verify hinverted hplain, ?_⟩
  have hr := (residualFollows α _ _ m x o.faithful_engine (invert_of_inverted hinverted)).2 hfar
  rw [report_verifying hinverted, hr]
  rfl

theorem report_cases [NegatesFinite α] (o : Options) (rows : List (List Float)) :
    (∃ failure, o.report α rows = .error failure ∧ o.verifying.report α rows = .error failure) ∨
      (∃ text line, o.ConfirmsIn α rows text line) ∨ ∃ text, o.OverflowsIn α rows text := by
  rcases hinverted : o.inverted α rows with failure | ⟨m, x⟩
  · refine Or.inl ⟨failure, ?_, ?_⟩
    · rw [report, hinverted]
    · rw [report, inverted_verifying, hinverted]
  by_cases hnear : m.FinitelyInverse x
  · obtain ⟨r, hr⟩ :=
      (residualFollows α _ _ m x o.faithful_engine (invert_of_inverted hinverted)).1 hnear
    exact Or.inr (Or.inl ⟨_, _, m, x, r, hinverted, hnear, hr, rfl, rfl⟩)
  · exact Or.inr (Or.inr ⟨_, m, x, hinverted, hnear, rfl⟩)

variable {g : Random.Generator} {content : Content} {text line : String}

/-- The run inverts a matrix and prints the inverse as `text`, and a check of it ends in the
residual that `line` says. -/
def Confirms (o : Options) (g : Random.Generator) (content : Content) (text line : String) :
    Prop :=
  ∃ rows, o.rows g content = .ok rows ∧
    if o.single then o.ConfirmsIn Float32 rows text line else o.ConfirmsIn Float rows text line

/-- The run inverts a matrix and prints the inverse as `text`, but some cell of its products with
the matrix does not differ from the identity by a finite number. -/
def Overflows (o : Options) (g : Random.Generator) (content : Content) (text : String) : Prop :=
  ∃ rows, o.rows g content = .ok rows ∧
    if o.single then o.OverflowsIn Float32 rows text else o.OverflowsIn Float rows text

theorem rows_verifying (o : Options) (g : Random.Generator) (content : Content) :
    o.verifying.rows g content = o.rows g content := rfl

theorem run_of_rows (h : o.rows g content = .ok rows) :
    o.run g content = if o.single then o.report Float32 rows else o.report Float rows := by
  rw [run, h]

theorem run_verifying_of_rows (h : o.rows g content = .ok rows) :
    o.verifying.run g content =
      if o.single then o.verifying.report Float32 rows else o.verifying.report Float rows :=
  run_of_rows (o := o.verifying) h

theorem Confirms.run_eq (h : o.Confirms g content text line) (hplain : o.verify = false) :
    o.run g content = .ok ⟨text, ""⟩ ∧ o.verifying.run g content = .ok ⟨text, line⟩ := by
  obtain ⟨rows, hrows, h⟩ := h
  rw [run_of_rows hrows, run_verifying_of_rows hrows]
  split at h <;> rename_i hsingle
  · rw [if_pos hsingle, if_pos hsingle]
    exact h.report_eq hplain
  · rw [if_neg hsingle, if_neg hsingle]
    exact h.report_eq hplain

theorem Overflows.run_eq (h : o.Overflows g content text) (hplain : o.verify = false) :
    o.run g content = .ok ⟨text, ""⟩ ∧
      o.verifying.run g content = .error (.notVerified (.error .nonFinite)) := by
  obtain ⟨rows, hrows, h⟩ := h
  rw [run_of_rows hrows, run_verifying_of_rows hrows]
  split at h <;> rename_i hsingle
  · rw [if_pos hsingle, if_pos hsingle]
    exact h.report_eq hplain
  · rw [if_neg hsingle, if_neg hsingle]
    exact h.report_eq hplain

theorem run_cases (o : Options) (g : Random.Generator) (content : Content) :
    (∃ failure, o.run g content = .error failure ∧ o.verifying.run g content = .error failure) ∨
      (∃ text line, o.Confirms g content text line) ∨ ∃ text, o.Overflows g content text := by
  rcases hrows : o.rows g content with failure | rows
  · refine Or.inl ⟨failure, ?_, ?_⟩
    · rw [run, hrows]
    · rw [run, rows_verifying, hrows]
  rw [run_of_rows hrows, run_verifying_of_rows hrows]
  by_cases hsingle : o.single = true
  · rw [if_pos hsingle, if_pos hsingle]
    refine (o.report_cases (α := Float32) rows).imp_right (Or.imp ?_ ?_)
    · exact fun ⟨text, line, h⟩ => ⟨text, line, rows, hrows, by rwa [if_pos hsingle]⟩
    · exact fun ⟨text, h⟩ => ⟨text, rows, hrows, by rwa [if_pos hsingle]⟩
  · rw [if_neg hsingle, if_neg hsingle]
    refine (o.report_cases (α := Float) rows).imp_right (Or.imp ?_ ?_)
    · exact fun ⟨text, line, h⟩ => ⟨text, line, rows, hrows, by rwa [if_neg hsingle]⟩
    · exact fun ⟨text, h⟩ => ⟨text, rows, hrows, by rwa [if_neg hsingle]⟩

end Options

theorem Platform.respond_of_read (p : Platform) {args : List String} (h : p.read args = .ok o)
    (stdin : Content) (file : String → Content) :
    p.respond args stdin file = .ofRun (o.run p.generator (contentOf stdin file o.source)) := by
  rw [respond, h]

/-- A run with the check prints and ends as the same run without it, wherever the flag stands among
the arguments, except where the products of the matrix and its inverse overflow: there the check
costs the inverse and the success. Otherwise all that it adds is the line about the residual. -/
theorem verify_only_reports_iff {p : Platform} {args args' : List String} {o : Options}
    (hread : p.read args = .ok o) (hplain : o.verify = false)
    (hread' : p.read args' = .ok o.verifying) (stdin : Content) (file : String → Content) :
    let content := contentOf stdin file o.source
    let plain := p.respond args stdin file
    let verified := p.respond args' stdin file
    ((verified.stdout = plain.stdout ∧ verified.status = plain.status) ↔
      ¬ ∃ text, o.Overflows p.generator content text) ∧
    (∀ text, o.Overflows p.generator content text →
      plain = ⟨0, text, ""⟩ ∧ verified = ⟨1, "", "error: NonFinite\n"⟩) ∧
    (∀ text line, o.Confirms p.generator content text line →
      plain = ⟨0, text, ""⟩ ∧ verified = ⟨0, text, line⟩) ∧
    ((∀ text, ¬ o.Overflows p.generator content text) →
      (∀ text line, ¬ o.Confirms p.generator content text line) →
        plain.status = 1 ∧ verified = plain) ∧
    ResidualFollows Float ∧ ResidualFollows Float32 := by
  intro content plain verified
  have hp : plain = .ofRun (o.run p.generator content) := p.respond_of_read hread stdin file
  have hv : verified = .ofRun (o.verifying.run p.generator content) :=
    p.respond_of_read hread' stdin file
  have hoverflows : ∀ text, o.Overflows p.generator content text →
      plain = ⟨0, text, ""⟩ ∧ verified = ⟨1, "", "error: NonFinite\n"⟩ := by
    intro text h
    obtain ⟨hrun, hrun'⟩ := h.run_eq hplain
    rw [hp, hv, hrun, hrun']
    exact ⟨rfl, rfl⟩
  have hconfirms : ∀ text line, o.Confirms p.generator content text line →
      plain = ⟨0, text, ""⟩ ∧ verified = ⟨0, text, line⟩ := by
    intro text line h
    obtain ⟨hrun, hrun'⟩ := h.run_eq hplain
    rw [hp, hv, hrun, hrun']
    exact ⟨rfl, rfl⟩
  refine ⟨⟨?_, ?_⟩, hoverflows, hconfirms, ?_, residualFollows Float, residualFollows Float32⟩
  · rintro ⟨-, hstatus⟩ ⟨text, h⟩
    obtain ⟨hprinted, hlost⟩ := hoverflows text h
    rw [hprinted, hlost] at hstatus
    cases hstatus
  · intro hnone
    rcases o.run_cases p.generator content with ⟨failure, hrun, hrun'⟩ | ⟨text, line, h⟩ | h
    · rw [hp, hv, hrun, hrun']
      exact ⟨rfl, rfl⟩
    · obtain ⟨hprinted, hadded⟩ := hconfirms text line h
      rw [hprinted, hadded]
      exact ⟨rfl, rfl⟩
    · exact absurd h hnone
  · intro hnone hnone'
    rcases o.run_cases p.generator content with ⟨failure, hrun, hrun'⟩ | ⟨text, line, h⟩ | ⟨text, h⟩
    · rw [hp, hv, hrun, hrun']
      exact ⟨rfl, rfl⟩
    · exact absurd h (hnone' text line)
    · exact absurd h (hnone text)

/-- The example matrix on the serial engine, with the flag between two others. -/
theorem verify_only_reports_iff_example :
    let o : Options := ⟨.example, 13, none, true, 0, false, 2, false, false⟩
    standard.read ["--demo", "--serial"] = .ok o ∧ o.verify = false ∧
      standard.read ["--demo", "--verify", "--serial"] = .ok o.verifying ∧
      (respond ["--demo", "--verify", "--serial"] (.ok .empty) fun _ => .error .missing).stdout =
        (respond ["--demo", "--serial"] (.ok .empty) fun _ => .error .missing).stdout := by
  have hread : standard.read ["--demo", "--serial"] =
      .ok ⟨.example, 13, none, true, 0, false, 2, false, false⟩ := rfl
  have hread' : standard.read ["--demo", "--verify", "--serial"] =
      .ok (Options.verifying ⟨.example, 13, none, true, 0, false, 2, false, false⟩) := rfl
  obtain ⟨hsame, hoverflows, -⟩ := verify_only_reports_iff hread rfl hread' (.ok .empty)
    fun _ => .error .missing
  refine ⟨hread, rfl, hread', (hsame.mpr ?_).1⟩
  rintro ⟨text, h⟩
  have hstatus := congrArg Exit.status (hoverflows text h).2
  revert hstatus
  decide +kernel

/-- The product of the matrix and its inverse is the difference of two infinities in one
cell, and a run that asks for the check loses the inverse that a run without it prints. -/
theorem verify_withholds_inverse :
    respond [] (.ok "1e300 1e300\n0 1e-10\n".toUTF8) (fun _ => .error .missing) =
      ⟨0, "0.00 \t -10000000000.00\n0.00 \t 10000000000.00\n", ""⟩ ∧
    respond ["--verify"] (.ok "1e300 1e300\n0 1e-10\n".toUTF8) (fun _ => .error .missing) =
      ⟨1, "", "error: NonFinite\n"⟩ := by
  decide +kernel

end Cli

end GridInversion
