import GridInversion.Proofs.BoundedAccess
import GridInversion.Proofs.MatrixRows
import GridInversion.Proofs.RegistryContents
import GridInversion.Session.Run

namespace GridInversion

theorem Registry.mem_values_of_mem_erase {β : Type} {r : Registry β} {name : String} {b : β}
    (h : b ∈ (r.erase name).values) : b ∈ r.values := by
  obtain ⟨e, he, rfl⟩ := List.mem_map.mp h
  exact List.mem_map_of_mem (List.mem_of_mem_filter he)

namespace Session

section Scalar

variable {α : Type} [Scalar α]

/-- No matrix is made from fields that need not fit each other. -/
def Recipe.Honest : Recipe α → Prop
  | .raw _ => False
  | _ => True

def Change.Honest : Change α → Prop
  | .reshape _ => False
  | _ => True

def Step.Honest : Step α → Prop
  | .make _ recipe => recipe.Honest
  | .change _ alteration => alteration.Honest
  | _ => True

/-- Reads of one cell or row without a look at the shape may go out of bounds, and so may
the cells of a pass when they are asked for one by one. -/
def Question.Guarded : Question → Prop
  | .read _ _ => False
  | .row _ => False
  | .augmentCell _ _ => False
  | .eliminateCell _ _ => False
  | .extractCell _ _ => False
  | _ => True

def Step.Guarded : Step α → Prop
  | .ask _ question => question.Guarded
  | _ => True

/-- The matrices that a session holds after these steps, each with an engine of its own. -/
def storeAfter (store : Store α) : List (Engine α × Step α) → Store α
  | [] => store
  | (engine, next) :: rest => storeAfter (step engine store next).store rest

def AllWellFormed (store : Store α) : Prop := ∀ m ∈ store.values, m.WellFormed

variable {engine : Engine α} {store : Store α}

omit [Scalar α] in
theorem allWellFormed_empty : AllWellFormed (.empty : Store α) :=
  fun _ hm => absurd hm List.not_mem_nil

omit [Scalar α] in
theorem AllWellFormed.of_get? (h : AllWellFormed store) {name : String} {m : Matrix α}
    (hm : store.get? name = some m) : m.WellFormed :=
  h m (Registry.mem_values_of_get? hm)

omit [Scalar α] in
theorem AllWellFormed.erase (h : AllWellFormed store) (name : String) :
    AllWellFormed (store.erase name) :=
  fun m hm => h m (Registry.mem_values_of_mem_erase hm)

omit [Scalar α] in
theorem AllWellFormed.put (h : AllWellFormed store) (name : String) {m : Matrix α}
    (hm : m.WellFormed) : AllWellFormed (store.put name m) := by
  intro m' hm'
  rw [Registry.values_put, List.mem_cons] at hm'
  rcases hm' with rfl | hold
  · exact hm
  · exact h.erase name m' hold

theorem PassKind.covered (kind : PassKind) {m : Matrix α} (hm : m.WellFormed) :
    (kind.over m).Covered := by
  cases kind with
  | augment n => exact Pass.covered_augment hm n
  | eliminate n r => exact Pass.covered_eliminate m n r
  | extract n => exact Pass.covered_extract m n

omit [Scalar α] in
theorem withEngine_inBounds {β : Type} {returns : β → Prop} {setUp : List (Event α)}
    {work : Option (Run engine.State α β)}
    (hwork : ∀ run, work = some run → InBounds returns (run engine.start).result)
    {result : Except Fault β} (h : (withEngine engine setUp work).2 = some result) :
    InBounds returns result := by
  cases work with
  | none => cases h
  | some run =>
      cases h
      exact hwork run rfl

section Steps

variable (contract : engine.Faithful)
include contract

theorem Recipe.follow_inBounds (hstore : AllWellFormed store) {recipe : Recipe α}
    (honest : recipe.Honest) {result : Except Fault (Matrix α)}
    (h : (recipe.follow engine store).2 = some result) :
    InBounds Matrix.WellFormed result := by
  cases recipe with
  | zeros shape =>
      cases h
      exact Matrix.wellFormed_zeros shape
  | identity n =>
      cases h
      exact Matrix.wellFormed_identity n
  | empty =>
      cases h
      rfl
  | ofArray shape data =>
      cases h
      exact InBounds.mapError fun _ => Matrix.wellFormed_of_ofArray
  | ofRows rows =>
      cases h
      exact InBounds.mapError fun _ => Matrix.wellFormed_of_ofRows
  | raw m => exact honest.elim
  | copy source =>
      obtain ⟨m, hm, rfl⟩ := Option.map_eq_some_iff.mp h
      exact hstore.of_get? hm
  | product left right =>
      obtain ⟨l, hl, hproduct⟩ := Option.bind_eq_some_iff.mp h
      obtain ⟨r, hr, hresult⟩ := Option.bind_eq_some_iff.mp hproduct
      cases hresult
      exact Matrix.inBounds_product (hstore.of_get? hl) (hstore.of_get? hr)
  | pass kind input =>
      refine withEngine_inBounds (fun run hrun => ?_) h
      obtain ⟨m, hm, rfl⟩ := Option.map_eq_some_iff.mp hrun
      exact ((kind.covered (hstore.of_get? hm)).ends_run contract).inBounds _
  | invert source epsilon =>
      refine withEngine_inBounds (fun run hrun => ?_) h
      obtain ⟨m, -, rfl⟩ := Option.map_eq_some_iff.mp hrun
      exact Inverter.inBounds_invert (v := ⟨engine, epsilon⟩) contract m _
  | reduce source n epsilon =>
      refine withEngine_inBounds (fun run hrun => ?_) h
      obtain ⟨m, -, rfl⟩ := Option.map_eq_some_iff.mp hrun
      exact Inverter.inBounds_eliminate (v := ⟨engine, epsilon⟩) contract m n _

omit contract in
theorem Change.apply_inBounds {m : Matrix α} (hm : m.WellFormed) {change : Change α}
    (honest : change.Honest) : InBounds Matrix.WellFormed (change.apply m) := by
  cases change with
  | set r c v => exact Matrix.inBounds_set hm r c v
  | wipe => exact Matrix.wellFormed_wipe hm
  | reshape shape => exact honest.elim

theorem allWellFormed_passInto (hstore : AllWellFormed store) (kind : PassKind)
    (input out : String) :
    AllWellFormed (passInto engine store kind input out).store ∧
      (passInto engine store kind input out).reply ≠ .fault .outOfBounds := by
  have hwork : ∀ result, (withEngine engine [] (do
      let m ← store.get? input
      let o ← store.get? out
      some ((kind.over m).runInto engine o))).2 = some result →
      InBounds (fun w : Written (Matrix α) => w.out.WellFormed) result := by
    intro result
    refine withEngine_inBounds fun run hrun => ?_
    obtain ⟨m, hm, hrest⟩ := Option.bind_eq_some_iff.mp hrun
    obtain ⟨o, ho, hsome⟩ := Option.bind_eq_some_iff.mp hrest
    cases hsome
    exact ((kind.covered (hstore.of_get? hm)).ends_runInto contract (hstore.of_get? ho)).inBounds _
  unfold passInto
  dsimp only
  split
  · exact ⟨hstore, nofun⟩
  · rename_i trace fault hresult
    have hfault : fault ≠ .outOfBounds := hwork _ (congrArg Prod.snd hresult)
    exact ⟨hstore.erase out, fun h => hfault (Reply.fault.inj h)⟩
  · rename_i trace w hresult
    have hw : w.out.WellFormed := hwork _ (congrArg Prod.snd hresult)
    split
    · exact ⟨hstore.put out hw, nofun⟩
    · exact ⟨hstore.put out hw, nofun⟩

omit contract [Scalar α] in
theorem reply_ofExcept_ne {β : Type} {f : β → Reply α} {returns : β → Prop}
    {result : Except Fault β} (hf : ∀ b, f b ≠ .fault .outOfBounds)
    (h : InBounds returns result) : Reply.ofExcept f result ≠ .fault .outOfBounds := by
  cases result with
  | error fault => exact fun heq => h (Reply.fault.inj heq)
  | ok b => exact hf b

omit contract in
theorem Question.answer_ne {m : Matrix α} (hm : m.WellFormed) {question : Question}
    (guarded : question.Guarded) : question.answer m ≠ .fault .outOfBounds := by
  cases question with
  | get r c => exact reply_ofExcept_ne (fun _ => nofun) (Matrix.inBounds_get hm r c)
  | read | row | augmentCell | eliminateCell | extractCell => exact guarded.elim
  | whole | rows | shape | isSquare | isFinite => exact nofun

omit contract in
theorem Comparison.answer_ne {a b : Matrix α} (ha : a.WellFormed) (hb : b.WellFormed)
    (comparison : Comparison α) : comparison.answer a b ≠ .fault .outOfBounds := by
  cases comparison with
  | residual => exact reply_ofExcept_ne (fun _ => nofun) (Matrix.inBounds_residual ha hb)
  | equal | maxAbsDiff | approxEq => exact nofun

/-- An honest step keeps all matrices whole, and does not leave the bounds of one unless it
asks for that. -/
theorem allWellFormed_step (hstore : AllWellFormed store) {next : Step α} (honest : next.Honest) :
    AllWellFormed (step engine store next).store ∧
      (next.Guarded → (step engine store next).reply ≠ .fault .outOfBounds) := by
  cases next with
  | make target recipe =>
      have hresult : ∀ result, (recipe.follow engine store).2 = some result →
          InBounds Matrix.WellFormed result :=
        fun _ => Recipe.follow_inBounds contract hstore honest
      rw [step]
      rcases hfollow : recipe.follow engine store with ⟨trace, _ | fault | m⟩
      · exact ⟨hstore, fun _ => nofun⟩
      · have hfault : fault ≠ .outOfBounds := hresult _ (congrArg Prod.snd hfollow)
        exact ⟨hstore, fun _ h => hfault (Reply.fault.inj h)⟩
      · have hm : m.WellFormed := hresult _ (congrArg Prod.snd hfollow)
        exact ⟨hstore.put target hm, fun _ => nofun⟩
  | change name alteration =>
      rw [step]
      rcases hm : store.get? name with _ | m
      · exact ⟨hstore, fun _ => nofun⟩
      have hchange := Change.apply_inBounds (hstore.of_get? hm) honest
      dsimp only
      rcases happly : alteration.apply m with fault | m'
      · rw [happly] at hchange
        exact ⟨hstore, fun _ h => hchange (Reply.fault.inj h)⟩
      · rw [happly] at hchange
        exact ⟨hstore.put name hchange, fun _ => nofun⟩
  | passInto kind input out =>
      obtain ⟨hleft, hreply⟩ := allWellFormed_passInto contract hstore kind input out
      exact ⟨hleft, fun _ => hreply⟩
  | ask name question =>
      rw [step]
      rcases hm : store.get? name with _ | m
      · exact ⟨hstore, fun _ => nofun⟩
      · exact ⟨hstore, Question.answer_ne (hstore.of_get? hm)⟩
  | compare first second comparison =>
      rw [step]
      rcases ha : store.get? first with _ | a
      · exact ⟨hstore, fun _ => nofun⟩
      rcases hb : store.get? second with _ | b
      · exact ⟨hstore, fun _ => nofun⟩
      · exact ⟨hstore, fun _ => comparison.answer_ne (hstore.of_get? ha) (hstore.of_get? hb)⟩
  | describe epsilon => exact ⟨hstore, fun _ => nofun⟩

end Steps

theorem allWellFormed_storeAfter (hstore : AllWellFormed store)
    {history : List (Engine α × Step α)}
    (honest : ∀ entry ∈ history, entry.1.Faithful ∧ entry.2.Honest) :
    AllWellFormed (storeAfter store history) := by
  induction history generalizing store with
  | nil => exact hstore
  | cons entry rest ih =>
      obtain ⟨contract, hentry⟩ := honest entry List.mem_cons_self
      have hstep := (allWellFormed_step contract hstore hentry).1
      exact ih hstep fun later hlater => honest later (List.mem_cons_of_mem entry hlater)

end Scalar

/-- Where no matrix was made or reshaped by hand, all of them have the cells that their shapes
say, whatever was done before and whatever failed. Their rows are cut and printed in full, and no
step reads or writes out of bounds that does not ask for a place without a look at the shape. -/
theorem no_access_out_of_bounds {α : Type} [MachineScalar α]
    {history : List (Engine α × Step α)}
    (honest : ∀ entry ∈ history, entry.1.Faithful ∧ entry.2.Honest) :
    (∀ m ∈ (storeAfter .empty history).values,
      m.WellFormed ∧
      (m.toRows.length = m.rows ∧ ∀ row ∈ m.toRows, row.size = m.cols) ∧
      ∀ places, MatrixText.matrixChars m places =
        ['\n'].intercalate ((List.range m.rows).map fun y =>
          MatrixText.cellSeparator.intercalate ((List.range m.cols).map fun x =>
            MatrixText.cellChars places (m.cells y x)))) ∧
      ∀ (engine : Engine α) (next : Step α), engine.Faithful → next.Honest → next.Guarded →
        (step engine (storeAfter .empty history) next).reply ≠ .fault .outOfBounds := by
  have hstore : AllWellFormed (storeAfter .empty history) :=
    allWellFormed_storeAfter allWellFormed_empty honest
  refine ⟨fun m hm => ?_, fun engine next contract hnext => ?_⟩
  · have hwell : m.WellFormed := hstore m hm
    have hcells : m.HasCells m.shape m.cells := (hwell.fits rfl).hasCells
    refine ⟨hwell, ⟨?_, ?_⟩, hcells.matrixChars_eq⟩
    · rw [hcells.toRows_eq, List.length_map, List.length_range]
      rfl
    · intro row hrow
      rw [hcells.toRows_eq] at hrow
      obtain ⟨y, -, rfl⟩ := List.mem_map.mp hrow
      exact Array.size_ofFn
  · exact (allWellFormed_step contract hstore hnext).2

/-- A singular matrix, one without rows and a pass into a shape that does not suit it leave three
whole matrices, and comparing any two of them is refused, not a crash. -/
theorem no_access_out_of_bounds_mixed :
    let history : List (Engine Float × Step Float) :=
      [(.serial, .make "A" (.ofRows [#[1, 2], #[2, 4]])), (.serial, .make "Z" (.zeros ⟨0, 3⟩)),
        (.serial, .make "X" (.invert "A" 1e-12)), (.serial, .make "B" (.pass (.augment 2) "A")),
        (.serial, .passInto (.eliminate 2 1) "B" "Z"), (.serial, .change "Z" (.set 0 0 1))]
    (∀ m ∈ (storeAfter .empty history).values, m.WellFormed) ∧
      (storeAfter .empty history).values.map Matrix.shape = [⟨0, 3⟩, ⟨2, 4⟩, ⟨2, 2⟩] ∧
      (step .serial (storeAfter .empty history) (.compare "B" "Z" .residual)).reply ≠
        .fault .outOfBounds := by
  intro history
  have hhonest : ∀ entry ∈ history, entry.1.Faithful ∧ entry.2.Honest := by
    simp [history, Engine.faithful_serial, Step.Honest, Recipe.Honest, Change.Honest]
  obtain ⟨hwhole, hnext⟩ := no_access_out_of_bounds hhonest
  exact ⟨fun m hm => (hwhole m hm).1, by decide +kernel,
    hnext .serial _ Engine.faithful_serial trivial trivial⟩

end Session

end GridInversion
