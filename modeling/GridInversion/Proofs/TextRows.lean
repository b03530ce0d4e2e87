import Mathlib.Data.List.Forall2
import GridInversion.MatrixText
import GridInversion.Proofs.FirstEntries

/-!
What reading the rows of a text comes to, in terms of the text alone: its lines, the tokens in
front of the comment of each line, and the first token that is not a number.
-/

namespace GridInversion

section Except

variable {ε α β : Type} {x : Except ε α} {f : α → β} {b : β} {e : ε}

theorem map_eq_ok_iff : x.map f = .ok b ↔ ∃ a, x = .ok a ∧ f a = b := by
  cases x <;> simp [Except.map]

theorem map_eq_error_iff : x.map f = .error e ↔ x = .error e := by
  cases x <;> simp [Except.map]

end Except

namespace MatrixText

section Lines

/-- A line that a newline ends, without the carriage return in front of the newline. -/
def dropReturn (line : List Char) : List Char :=
  if line.getLast? = some '\r' then line.dropLast else line

/-- The lines, from the pieces between newlines. Nothing behind the last newline is no line. -/
def closeLines : List (List Char) → List (List Char)
  | [] => []
  | [last] => if last = [] then [] else [last]
  | piece :: next :: rest => dropReturn piece :: closeLines (next :: rest)

/-- The lines of a text, each up to its newline or to the end of the text. A carriage return in
front of the newline is not part of the line. -/
def textLines (text : List Char) : List (List Char) := closeLines (lines text)

/-- What is read of a line: the tokens in front of its comment. -/
def lineTokens (line : List Char) : List (List Char) := tokens (significant line)

def HasRow (line : List Char) : Prop := ¬ isBlankPart (significant line) = true

instance : DecidablePred HasRow := fun line =>
  inferInstanceAs (Decidable (¬ isBlankPart (significant line) = true))

variable {line : List Char} {n : ℕ} {ls : List (List Char)}

theorem readLines_cons_of_hasRow (h : HasRow line) : readLines n (line :: ls) =
    match readTokens (lineTokens line) with
    | .error token => .error (.badNumber n token)
    | .ok row => (readLines (n + 1) ls).map (row :: ·) := by
  rw [readLines, if_neg h]
  rfl

theorem readLines_cons_of_not_hasRow (h : ¬ HasRow line) :
    readLines n (line :: ls) = readLines (n + 1) ls := by
  rw [readLines, if_pos (not_not.mp h)]

theorem lineTokens_of_not_hasRow (h : ¬ HasRow line) : lineTokens line = [] :=
  tokens_of_isBlankPart (not_not.mp h)

theorem eq_dropReturn_append (line : List Char) :
    line = dropReturn line ∨ line = dropReturn line ++ ['\r'] := by
  rw [dropReturn]
  split
  · exact .inr (List.dropLast_append_getLast? _ ‹_›).symm
  · exact .inl rfl

theorem significant_append_return (line : List Char) :
    significant (line ++ ['\r']) = significant line ∨
      significant (line ++ ['\r']) = significant line ++ ['\r'] := by
  rw [significant, List.takeWhile_append]
  split
  · have hwhole : significant line = line :=
      (List.takeWhile_prefix _).eq_of_length ‹_›
    rw [hwhole]
    exact .inr rfl
  · exact .inl rfl

/-- A carriage return is white space, so one at the end of a line makes no difference. -/
theorem significant_dropReturn (line : List Char) :
    significant line = significant (dropReturn line) ∨
      significant line = significant (dropReturn line) ++ ['\r'] := by
  rcases eq_dropReturn_append line with h | h
  · exact .inl (congrArg significant h)
  · have hreturn := significant_append_return (dropReturn line)
    rwa [← h] at hreturn

theorem lineTokens_dropReturn (line : List Char) :
    lineTokens (dropReturn line) = lineTokens line := by
  rcases significant_dropReturn line with h | h
  · rw [lineTokens, lineTokens, h]
  · rw [lineTokens, lineTokens, h, tokens_append_cons _ (by decide)]
    exact (List.append_nil _).symm

theorem hasRow_dropReturn (line : List Char) : HasRow (dropReturn line) ↔ HasRow line := by
  rcases significant_dropReturn line with h | h
  · rw [HasRow, HasRow, h]
  · rw [HasRow, HasRow, h]
    simp [isBlankPart, Text.isBlank_return]

/-- Reading the pieces between newlines is reading the lines. -/
theorem readLines_closeLines (pieces : List (List Char)) (n : ℕ) :
    readLines n (closeLines pieces) = readLines n pieces := by
  -- Nothing is read of an empty piece, so it makes no difference whether it counts as a line.
  fun_induction closeLines pieces generalizing n with
  | case1 => rfl
  | case2 => rfl
  | case3 last => rfl
  | case4 piece next rest ih =>
      by_cases hrow : HasRow piece
      · rw [readLines_cons_of_hasRow hrow, readLines_cons_of_hasRow
          ((hasRow_dropReturn piece).mpr hrow), lineTokens_dropReturn, ih]
      · rw [readLines_cons_of_not_hasRow hrow, readLines_cons_of_not_hasRow
          (mt (hasRow_dropReturn piece).mp hrow), ih]

end Lines

section Tokens

/-- One character or more, none of them a separator. -/
structure IsRun (token : List Char) : Prop where
  ne_nil : token ≠ []
  not_separates : ∀ c ∈ token, separates c = false

/-- The tokens of a text are its runs between separators: each begins behind a separator or where
the text begins, and ends at a separator or where the text ends. -/
inductive Runs : List Char → List (List Char) → Prop
  | nil : Runs [] []
  | gap {c : Char} {rest : List Char} {ts : List (List Char)} (hc : separates c = true)
      (hrest : Runs rest ts) : Runs (c :: rest) ts
  | last {token : List Char} (htoken : IsRun token) : Runs token [token]
  | run {token : List Char} {c : Char} {rest : List Char} {ts : List (List Char)}
      (htoken : IsRun token) (hc : separates c = true) (hrest : Runs rest ts) :
      Runs (token ++ c :: rest) (token :: ts)

theorem runs_tokens (part : List Char) : Runs part (tokens part) := by
  -- What follows the first separator is shorter.
  induction hlength : part.length using Nat.strongRecOn generalizing part with
  | _ length ih =>
      subst hlength
      cases hfind : part.find? separates with
      | none =>
          have hwhole : ∀ c ∈ part, separates c = false := by simpa using hfind
          rcases eq_or_ne part [] with rfl | hne
          · exact .nil
          · rw [tokens_eq_singleton hne hwhole]
            exact .last ⟨hne, hwhole⟩
      | some c =>
          obtain ⟨hc, token, rest, rfl, htoken⟩ := List.find?_eq_some_iff_append.mp hfind
          have hrest : Runs rest (tokens rest) := ih rest.length (by simp; omega) rest rfl
          rw [tokens_append_cons token hc]
          rcases eq_or_ne token [] with rfl | hne
          · exact .gap hc hrest
          · have hrun : IsRun token := ⟨hne, by simpa using htoken⟩
            rw [tokens_eq_singleton hrun.ne_nil hrun.not_separates]
            exact .run hrun hc hrest

theorem Runs.tokens_eq {part : List Char} {ts : List (List Char)} (h : Runs part ts) :
    tokens part = ts := by
  induction h with
  | nil => rfl
  | gap hc _ ih => rw [tokens_cons hc, ih]
  | last htoken => exact tokens_eq_singleton htoken.ne_nil htoken.not_separates
  | run htoken hc _ ih =>
      rw [tokens_append_cons _ hc, ih, tokens_eq_singleton htoken.ne_nil htoken.not_separates]
      rfl

theorem tokens_eq_iff {part : List Char} {ts : List (List Char)} :
    tokens part = ts ↔ Runs part ts :=
  ⟨fun h => h ▸ runs_tokens part, Runs.tokens_eq⟩

end Tokens

section Numbers

/-- A token that is not a number. -/
def IsBad (token : List Char) : Prop := number? token = none

instance : DecidablePred IsBad := fun token => inferInstanceAs (Decidable (number? token = none))

/-- A line with such a token in front of its comment. -/
def HasBad (line : List Char) : Prop := ∃ token ∈ lineTokens line, IsBad token

instance : DecidablePred HasBad := fun line =>
  inferInstanceAs (Decidable (∃ token ∈ lineTokens line, IsBad token))

/-- The numbers of a row are those of the tokens of the line. -/
def IsRowOf (line : List Char) (row : List Float) : Prop :=
  (lineTokens line).map number? = row.map some

variable {ts : List (List Char)} {token line : List Char} {row : List Float}
  {ls : List (List Char)} {n k : ℕ} {rows : List (List Float)} {e : ReadError}

theorem readTokens_eq_ok_iff : readTokens ts = .ok row ↔ ts.map number? = row.map some := by
  induction ts generalizing row with
  | nil =>
      rw [readTokens, Except.ok.injEq]
      cases row <;> simp
  | cons token rest ih =>
      rw [readTokens, List.map_cons]
      cases number? token with
      | none => cases row <;> simp
      | some x =>
          rw [map_eq_ok_iff]
          constructor
          · rintro ⟨values, hvalues, rfl⟩
            rw [ih.mp hvalues, List.map_cons]
          · intro h
            cases row with
            | nil => cases h
            | cons y values =>
                obtain ⟨hx, hvalues⟩ := List.cons.inj h
                exact ⟨values, ih.mpr hvalues, by rw [Option.some.inj hx]⟩

theorem readTokens_eq_error_iff :
    readTokens ts = .error token ↔ ∃ i, FirstAt IsBad ts i token := by
  induction ts with
  | nil =>
      constructor
      · intro h
        cases h
      · rintro ⟨i, h⟩
        cases h.mem
  | cons first rest ih =>
      rw [readTokens]
      cases hfirst : number? first with
      | none =>
          have hbad : IsBad first := hfirst
          simp [FirstAt.cons_iff_of_holds hbad, eq_comm]
      | some x =>
          have hnot : ¬ IsBad first := by simp [IsBad, hfirst]
          simp [FirstAt.cons_iff_of_not hnot, map_eq_error_iff, ih]

theorem isRowOf_iff : IsRowOf line row ↔ readTokens (lineTokens line) = .ok row :=
  readTokens_eq_ok_iff.symm

/-- On a line without a bad token every token is read. -/
theorem exists_isRowOf (h : ¬ HasBad line) : ∃ row, IsRowOf line row := by
  cases hread : readTokens (lineTokens line) with
  | ok row => exact ⟨row, isRowOf_iff.mpr hread⟩
  | error token =>
      obtain ⟨i, hfirst⟩ := readTokens_eq_error_iff.mp hread
      exact absurd ⟨token, hfirst.mem, hfirst.holds⟩ h

theorem exists_firstAt_isBad (h : HasBad line) :
    ∃ i token, FirstAt IsBad (lineTokens line) i token := by
  cases hread : readTokens (lineTokens line) with
  | error token =>
      obtain ⟨i, hfirst⟩ := readTokens_eq_error_iff.mp hread
      exact ⟨i, token, hfirst⟩
  | ok row =>
      obtain ⟨token, htoken, hbad⟩ := h
      have hvalue : number? token ∈ row.map some := by
        rw [← readTokens_eq_ok_iff.mp hread]
        exact List.mem_map_of_mem htoken
      rw [IsBad] at hbad
      simp [hbad] at hvalue

theorem HasBad.hasRow (h : HasBad line) : HasRow line := by
  by_contra hrow
  obtain ⟨token, htoken, -⟩ := h
  rw [lineTokens_of_not_hasRow hrow] at htoken
  cases htoken

/-- The rows are read exactly when every line that has one is read, and then they are those of the
lines in order. -/
theorem readLines_eq_ok_iff : readLines n ls = .ok rows ↔
    List.Forall₂ IsRowOf (ls.filter (HasRow ·)) rows := by
  induction ls generalizing n rows with
  | nil => simp [readLines, eq_comm]
  | cons line rest ih =>
      by_cases hrow : HasRow line
      · rw [readLines_cons_of_hasRow hrow, List.filter_cons_of_pos (by simpa using hrow),
          List.forall₂_cons_left_iff]
        simp only [isRowOf_iff]
        cases readTokens (lineTokens line) with
        | error token => simp
        | ok row =>
            rw [map_eq_ok_iff]
            simp [ih, eq_comm]
      · rw [readLines_cons_of_not_hasRow hrow, List.filter_cons_of_neg (by simpa using hrow), ih]

theorem readLines_cons_of_firstAt {i : ℕ} (h : FirstAt IsBad (lineTokens line) i token) :
    readLines n (line :: ls) = .error (.badNumber n token) := by
  have hbad : HasBad line := ⟨token, h.mem, h.holds⟩
  rw [readLines_cons_of_hasRow hbad.hasRow, readTokens_eq_error_iff.mpr ⟨i, h⟩]

theorem readLines_cons_eq_error_iff (h : ¬ HasBad line) :
    readLines n (line :: ls) = .error e ↔ readLines (n + 1) ls = .error e := by
  by_cases hrow : HasRow line
  · obtain ⟨row, hline⟩ := exists_isRowOf h
    rw [readLines_cons_of_hasRow hrow, isRowOf_iff.mp hline]
    exact map_eq_error_iff
  · rw [readLines_cons_of_not_hasRow hrow]

/-- A line is blamed when it is the first with a bad token, for the first bad token in it. -/
theorem readLines_eq_error_iff : readLines n ls = .error e ↔
    ∃ k line i token, FirstAt HasBad ls k line ∧ FirstAt IsBad (lineTokens line) i token ∧
      e = .badNumber (n + k) token := by
  induction ls generalizing n with
  | nil =>
      constructor
      · intro h
        cases h
      · rintro ⟨k, line, i, token, hline, -, -⟩
        cases hline.mem
  | cons line rest ih =>
      by_cases hbad : HasBad line
      · simp only [FirstAt.cons_iff_of_holds hbad]
        constructor
        · intro h
          obtain ⟨i, token, htoken⟩ := exists_firstAt_isBad hbad
          rw [readLines_cons_of_firstAt htoken] at h
          exact ⟨0, line, i, token, ⟨rfl, rfl⟩, htoken, (Except.error.inj h).symm⟩
        · rintro ⟨_, _, i, token, ⟨rfl, rfl⟩, htoken, rfl⟩
          exact readLines_cons_of_firstAt htoken
      · simp only [FirstAt.cons_iff_of_not hbad, readLines_cons_eq_error_iff hbad, ih]
        constructor
        · rintro ⟨k, other, i, token, hline, htoken, rfl⟩
          exact ⟨k + 1, other, i, token, ⟨k, rfl, hline⟩, htoken, by rw [Nat.add_right_comm]; rfl⟩
        · rintro ⟨_, other, i, token, ⟨k, rfl, hline⟩, htoken, rfl⟩
          exact ⟨k, other, i, token, hline, htoken, by rw [Nat.add_right_comm]; rfl⟩

end Numbers

section Texts

variable {text a b : List Char} {rows : List (List Float)}

/-- Every token of a text is a number. -/
def Readable (text : List Char) : Prop := ∀ line ∈ textLines text, ¬ HasBad line

instance : DecidablePred Readable := fun text =>
  inferInstanceAs (Decidable (∀ line ∈ textLines text, ¬ HasBad line))

/-- The rows that are read of a text, none if none are. -/
def rowsIn (text : List Char) : List (List Float) :=
  match readRows text with
  | .ok rows => rows
  | .error _ => []

theorem readLines_textLines (text : List Char) (n : ℕ) :
    readLines n (textLines text) = readLines n (lines text) := readLines_closeLines _ n

theorem readRows_eq_badNumber_iff {n : ℕ} {token : List Char} :
    readRows text = .error (.badNumber n token) ↔
      readLines 1 (textLines text) = .error (.badNumber n token) := by
  rw [readRows, readLines_textLines]
  rcases readLines 1 (lines text) with e | _ | ⟨row, rows⟩ <;> simp

theorem readRows_eq_noRows_iff :
    readRows text = .error .noRows ↔ readLines 1 (textLines text) = .ok [] := by
  have hne : readLines 1 (textLines text) ≠ .error .noRows := by
    rw [Ne, readLines_eq_error_iff]
    rintro ⟨k, line, i, token, -, -, h⟩
    cases h
  rw [readLines_textLines] at hne ⊢
  rw [readRows]
  rcases hread : readLines 1 (lines text) with e | _ | ⟨row, rows⟩
  · rw [hread] at hne
    simpa using hne
  · simp
  · simp

theorem readRows_eq_ok_iff :
    readRows text = .ok rows ↔ rows ≠ [] ∧ readLines 1 (textLines text) = .ok rows := by
  rw [readRows, readLines_textLines]
  rcases readLines 1 (lines text) with e | _ | ⟨row, rows⟩
  · simp
  · simp
  · simp only [Except.ok.injEq, iff_and_self]
    rintro rfl
    exact List.cons_ne_nil _ _

theorem exists_readLines_eq_ok (h : Readable text) :
    ∃ rows, readLines 1 (textLines text) = .ok rows := by
  cases hread : readLines 1 (textLines text) with
  | ok rows => exact ⟨rows, rfl⟩
  | error e =>
      obtain ⟨k, line, i, token, hline, -, -⟩ := readLines_eq_error_iff.mp hread
      exact absurd hline.holds (h line hline.mem)

theorem readLines_of_readable (h : Readable text) :
    readLines 1 (lines text) = .ok (rowsIn text) := by
  obtain ⟨rows, hrows⟩ := exists_readLines_eq_ok h
  rw [readLines_textLines] at hrows
  rw [rowsIn, readRows, hrows]
  cases rows <;> rfl

theorem lines_append (a b : List Char) : lines (a ++ '\n' :: b) = lines a ++ lines b :=
  List.splitOnP_append_cons a b rfl

/-- Over two texts with a newline between them the rows of the first are read, then those of the
second. -/
theorem readLines_append (ha : Readable a) (hb : Readable b) :
    readLines 1 (lines (a ++ '\n' :: b)) = .ok (rowsIn a ++ rowsIn b) := by
  rw [lines_append, readLines_eq_ok_iff, List.filter_append]
  exact List.rel_append (readLines_eq_ok_iff.mp (readLines_of_readable ha))
    (readLines_eq_ok_iff.mp (readLines_of_readable hb))

theorem readRows_append (ha : Readable a) (hb : Readable b) : readRows (a ++ '\n' :: b) =
    if rowsIn a ++ rowsIn b = [] then .error .noRows else .ok (rowsIn a ++ rowsIn b) := by
  rw [readRows, readLines_append ha hb]
  cases rowsIn a ++ rowsIn b <;> rfl

theorem readRows_eq_noRows_iff_not_hasRow :
    readRows text = .error .noRows ↔ ∀ line ∈ textLines text, ¬ HasRow line := by
  rw [readRows_eq_noRows_iff, readLines_eq_ok_iff, List.forall₂_nil_right_iff,
    List.filter_eq_nil_iff]
  simp

theorem exists_readRows_eq_ok (h : Readable text) (hrow : ∃ line ∈ textLines text, HasRow line) :
    ∃ rows, readRows text = .ok rows ∧
      List.Forall₂ IsRowOf ((textLines text).filter (HasRow ·)) rows := by
  obtain ⟨rows, hrows⟩ := exists_readLines_eq_ok h
  have hread := readLines_eq_ok_iff.mp hrows
  refine ⟨rows, readRows_eq_ok_iff.mpr ⟨?_, hrows⟩, hread⟩
  rintro rfl
  have hnone := readRows_eq_noRows_iff_not_hasRow.mp (readRows_eq_noRows_iff.mpr hrows)
  obtain ⟨line, hline, hhas⟩ := hrow
  exact hnone line hline hhas

/-- Reading accepts texts of rows of numbers and blames the first token that is not one.

The tokens of a line are the runs between separators in front of its comment. Reading fails at a
token exactly when the token is the first of its line that is no number and no line before has such
a token; the lines before all count. It finds no rows exactly when every line is white space up to
its comment. Otherwise there is a row for each other line, with the numbers of its tokens in order.
So two texts without such tokens are read one after the other when a newline stands between them. -/
theorem readRows_verdict :
    (∀ part ts, tokens part = ts ↔ Runs part ts) ∧
    (∀ text n token, readRows text = .error (.badNumber n token) ↔
      ∃ k line i, n = k + 1 ∧ FirstAt HasBad (textLines text) k line ∧
        FirstAt IsBad (lineTokens line) i token) ∧
    (∀ text, readRows text = .error .noRows ↔
      ∀ line ∈ textLines text, isBlankPart (significant line) = true) ∧
    (∀ text, Readable text → (∃ line ∈ textLines text, isBlankPart (significant line) = false) →
      ∃ rows, readRows text = .ok rows ∧
        List.Forall₂ IsRowOf ((textLines text).filter (HasRow ·)) rows) ∧
    (∀ a b, Readable a → Readable b → readRows (a ++ '\n' :: b) =
      if rowsIn a ++ rowsIn b = [] then .error .noRows else .ok (rowsIn a ++ rowsIn b)) ∧
    (∀ n token, (ReadError.badNumber n token).message =
      "line " ++ toString n ++ ": bad number " ++ Text.quoted token ++ ": invalid float literal") ∧
    ReadError.noRows.message = "no matrix rows in input" := by
  refine ⟨fun _ _ => tokens_eq_iff, fun text n token => ?_, fun text => ?_,
    fun text hread hrow => ?_, fun _ _ => readRows_append, fun _ _ => rfl, rfl⟩
  · rw [readRows_eq_badNumber_iff, readLines_eq_error_iff]
    constructor
    · rintro ⟨k, line, i, other, hline, htoken, h⟩
      obtain ⟨rfl, rfl⟩ := ReadError.badNumber.inj h
      exact ⟨k, line, i, Nat.add_comm 1 k, hline, htoken⟩
    · rintro ⟨k, line, i, rfl, hline, htoken⟩
      exact ⟨k, line, i, token, hline, htoken, by rw [Nat.add_comm]⟩
  · rw [readRows_eq_noRows_iff_not_hasRow]
    simp only [HasRow, not_not]
  · refine exists_readRows_eq_ok hread ?_
    obtain ⟨line, hline, hblank⟩ := hrow
    exact ⟨line, hline, by rw [HasRow, hblank]; exact Bool.false_ne_true⟩

/-- Comments, empty lines, both ends of a line and all kinds of separators, and after that a token
that is not a number. -/
theorem readRows_verdict_mixed_separators :
    let a := "# a\n1, 2 3\r\n".toList
    let b := "\n4\t5,6 # b".toList
    let c := "7 8\n\n9,, q x".toList
    Readable a ∧ Readable b ∧ readRows (a ++ '\n' :: b) = .ok (rowsIn a ++ rowsIn b) ∧
      (∃ rows, readRows b = .ok rows ∧
        List.Forall₂ IsRowOf ((textLines b).filter (HasRow ·)) rows) ∧
      readRows c = .error (.badNumber 3 ['q']) := by
  intro a b c
  obtain ⟨-, hbad, -, hrows, happend, -⟩ := readRows_verdict
  have ha : Readable a := by decide
  have hb : Readable b := by decide
  refine ⟨ha, hb, ?_, hrows b hb (by decide), (hbad c 3 ['q']).mpr ?_⟩
  · have hne : rowsIn a ++ rowsIn b ≠ [] := by decide
    rw [happend a b ha hb, if_neg hne]
  · exact ⟨2, "9,, q x".toList, 1, rfl, ⟨by decide, by decide, by decide⟩,
      ⟨by decide, by decide, by decide⟩⟩

end Texts

end MatrixText

end GridInversion
