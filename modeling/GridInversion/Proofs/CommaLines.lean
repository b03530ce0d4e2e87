import GridInversion.Proofs.TextRows

/-!
Commas and white space both separate the numbers of a row. They differ in one place: a line of
separators alone is left out if it is all white space, and is a row without numbers if it has a
comma.
-/

namespace GridInversion.MatrixText

def spaceForComma (c : Char) : Char := if c = ',' then ' ' else c

/-- The text with a space in place of each comma. -/
def commasToSpaces (text : List Char) : List Char := text.map spaceForComma

theorem spaceForComma_of_ne {c : Char} (h : c ≠ ',') : spaceForComma c = c := if_neg h

theorem beq_spaceForComma {d : Char} (hcomma : d ≠ ',') (hspace : d ≠ ' ') (c : Char) :
    (spaceForComma c == d) = (c == d) := by
  by_cases h : c = ','
  · subst h
    rw [beq_false_of_ne hcomma.symm, spaceForComma, if_pos rfl, beq_false_of_ne hspace.symm]
  · rw [spaceForComma_of_ne h]

theorem separates_spaceForComma (c : Char) : separates (spaceForComma c) = separates c := by
  by_cases h : c = ','
  · subst h
    decide
  · rw [spaceForComma_of_ne h]

/-- Without commas only white space separates. -/
theorem isBlank_spaceForComma (c : Char) : Text.isBlank (spaceForComma c) = separates c := by
  by_cases h : c = ','
  · subst h
    decide
  · simp [spaceForComma_of_ne h, separates, h]

theorem lines_commasToSpaces (text : List Char) :
    lines (commasToSpaces text) = (lines text).map commasToSpaces := by
  unfold lines commasToSpaces
  induction text with
  | nil => simp
  | cons c rest ih =>
      rw [List.map_cons, List.splitOnP_cons_eq_if_modifyHead,
        List.splitOnP_cons_eq_if_modifyHead, beq_spaceForComma (by decide) (by decide), ih]
      split
      · simp
      · cases rest.splitOnP (· == '\n') <;> simp

theorem significant_commasToSpaces (line : List Char) :
    significant (commasToSpaces line) = commasToSpaces (significant line) := by
  have hsign : (· != '#') ∘ spaceForComma = (· != '#') := by
    funext c
    exact congrArg not (beq_spaceForComma (by decide) (by decide) c)
  rw [significant, commasToSpaces, List.takeWhile_map, hsign]
  rfl

theorem IsRun.commasToSpaces_eq {token : List Char} (h : IsRun token) :
    commasToSpaces token = token := by
  refine (List.map_congr_left fun c hc => ?_).trans (List.map_id token)
  refine spaceForComma_of_ne fun hcomma => ?_
  have hc' := h.not_separates c hc
  rw [hcomma] at hc'
  cases hc'

/-- The runs between separators are the same, whichever separators these are. -/
theorem Runs.commasToSpaces {part : List Char} {ts : List (List Char)} (h : Runs part ts) :
    Runs (commasToSpaces part) ts := by
  induction h with
  | nil => exact .nil
  | gap hc _ ih =>
      refine .gap ?_ ih
      rwa [separates_spaceForComma]
  | last htoken =>
      rw [htoken.commasToSpaces_eq]
      exact .last htoken
  | @run token c rest ts htoken hc _ ih =>
      have happend : MatrixText.commasToSpaces (token ++ c :: rest) =
          token ++ spaceForComma c :: MatrixText.commasToSpaces rest := by
        conv_rhs => rw [← htoken.commasToSpaces_eq]
        exact List.map_append
      rw [happend]
      exact .run htoken (by rwa [separates_spaceForComma]) ih

theorem lineTokens_commasToSpaces (line : List Char) :
    lineTokens (commasToSpaces line) = lineTokens line := by
  rw [lineTokens, significant_commasToSpaces]
  exact (runs_tokens _).commasToSpaces.tokens_eq

theorem Runs.all_separates {part : List Char} {ts : List (List Char)} (h : Runs part ts)
    (hnone : ts = []) : part.all separates = true := by
  induction h with
  | nil => rfl
  | gap hc _ ih => rw [List.all_cons, hc, ih hnone, Bool.and_self]
  | last _ => cases hnone
  | run _ _ _ _ => cases hnone

theorem tokens_eq_nil_iff {part : List Char} :
    tokens part = [] ↔ part.all separates = true := by
  constructor
  · exact (runs_tokens part).all_separates
  · intro h
    induction part with
    | nil => rfl
    | cons c rest ih =>
        obtain ⟨hc, hrest⟩ := Bool.and_eq_true_iff.mp h
        rw [tokens_cons hc, ih hrest]

/-- Without commas a line has a row exactly if it has a token. -/
theorem hasRow_commasToSpaces (line : List Char) :
    HasRow (commasToSpaces line) ↔ lineTokens line ≠ [] := by
  have hblank : Text.isBlank ∘ spaceForComma = separates := funext isBlank_spaceForComma
  rw [HasRow, significant_commasToSpaces, isBlankPart, commasToSpaces, List.all_map, hblank,
    ← tokens_eq_nil_iff]
  rfl

/-- There are commas in front of the comment, but no token. -/
def CommasOnly (line : List Char) : Prop := lineTokens line = [] ∧ ',' ∈ significant line

theorem commasOnly_iff {line : List Char} :
    CommasOnly line ↔ HasRow line ∧ lineTokens line = [] := by
  rw [CommasOnly, and_comm]
  refine and_congr_left fun htokens => ?_
  rw [lineTokens, tokens_eq_nil_iff, List.all_eq_true] at htokens
  constructor
  · intro hcomma hblank
    have hc := List.all_eq_true.mp hblank ',' hcomma
    rw [Text.isBlank_comma] at hc
    cases hc
  · intro hrow
    by_contra hcomma
    refine hrow (List.all_eq_true.mpr fun c hc => ?_)
    have hne : c ≠ ',' := fun h => hcomma (h ▸ hc)
    simpa [separates, hne] using htokens c hc

theorem IsRowOf.eq_nil_iff {line : List Char} {row : List Float} (h : IsRowOf line row) :
    row = [] ↔ lineTokens line = [] := by
  have hlength := congrArg List.length h
  rw [List.length_map, List.length_map] at hlength
  rw [← List.length_eq_zero_iff, ← List.length_eq_zero_iff, hlength]

/-- Line by line the same tokens are read, and a row without numbers is left out. -/
theorem readLines_commasToSpaces (ls : List (List Char)) (n : ℕ) :
    readLines n (ls.map commasToSpaces) = (readLines n ls).map (List.filter (· ≠ [])) := by
  induction ls generalizing n with
  | nil => rfl
  | cons line rest ih =>
      rw [List.map_cons]
      by_cases htokens : lineTokens line = []
      · rw [readLines_cons_of_not_hasRow fun h => (hasRow_commasToSpaces line).mp h htokens, ih]
        by_cases hrow : HasRow line
        · rw [readLines_cons_of_hasRow hrow, htokens]
          cases readLines (n + 1) rest <;> rfl
        · rw [readLines_cons_of_not_hasRow hrow]
      · have hrow : HasRow line := fun hblank => htokens (tokens_of_isBlankPart hblank)
        rw [readLines_cons_of_hasRow ((hasRow_commasToSpaces line).mpr htokens),
          readLines_cons_of_hasRow hrow, lineTokens_commasToSpaces, ih]
        cases hread : readTokens (lineTokens line) with
        | error token => rfl
        | ok row =>
            have hne : row ≠ [] := fun h => htokens ((isRowOf_iff.mpr hread).eq_nil_iff.mp h)
            cases readLines (n + 1) rest with
            | error e => rfl
            | ok rows => simp [Except.map, hne]

section Outcomes

variable {text : List Char} {rows : List (List Float)} {n : ℕ} {token : List Char}

/-- What reading comes to when the rows without numbers are left out. -/
def withoutEmptyRows :
    Except ReadError (List (List Float)) → Except ReadError (List (List Float))
  | .error e => .error e
  | .ok rows =>
      if rows.filter (· ≠ []) = [] then .error .noRows else .ok (rows.filter (· ≠ []))

theorem readRows_commasToSpaces (text : List Char) :
    readRows (commasToSpaces text) = withoutEmptyRows (readRows text) := by
  rw [readRows, lines_commasToSpaces, readLines_commasToSpaces, readRows]
  rcases readLines 1 (lines text) with e | _ | ⟨row, rows⟩
  · rfl
  · rfl
  · rw [withoutEmptyRows, Except.map]
    cases hkept : (row :: rows).filter (· ≠ []) with
    | nil => rfl
    | cons first kept => simp

theorem withoutEmptyRows_eq_self_iff {outcome : Except ReadError (List (List Float))} :
    withoutEmptyRows outcome = outcome ↔ ∀ rows, outcome = .ok rows → rows ≠ [] ∧ [] ∉ rows := by
  cases outcome with
  | error e => exact iff_of_true rfl nofun
  | ok rows =>
      have hkept : rows.filter (· ≠ []) = rows ↔ [] ∉ rows := by
        rw [List.filter_eq_self]
        constructor
        · intro h hmem
          simpa using h [] hmem
        · intro h row hrow
          exact decide_eq_true fun hnil => h (hnil ▸ hrow)
      rw [withoutEmptyRows]
      constructor
      · intro h rows' hrows
        cases hrows
        split at h
        · cases h
        · rename_i hsome
          have hself := Except.ok.inj h
          exact ⟨hself ▸ hsome, hkept.mp hself⟩
      · intro h
        obtain ⟨hne, hnil⟩ := h rows rfl
        rw [hkept.mpr hnil, if_neg hne]

theorem nil_mem_iff_of_isRowOf {ls : List (List Char)} (h : List.Forall₂ IsRowOf ls rows) :
    [] ∈ rows ↔ ∃ line ∈ ls, lineTokens line = [] := by
  induction h with
  | nil => simp
  | cons hrow _ ih => simp only [List.mem_cons, exists_eq_or_imp, @eq_comm _ [], hrow.eq_nil_iff, ih]

theorem nil_mem_iff_of_readRows (h : readRows text = .ok rows) :
    [] ∈ rows ↔ ∃ line ∈ textLines text, CommasOnly line := by
  rw [nil_mem_iff_of_isRowOf (readLines_eq_ok_iff.mp (readRows_eq_ok_iff.mp h).2)]
  simp only [List.mem_filter, decide_eq_true_eq, commasOnly_iff, and_assoc]

/-- Putting spaces in place of commas leaves the outcome as it is if there is a token that is no
number, or no line of commas alone. -/
theorem readRows_commasToSpaces_eq_iff : readRows (commasToSpaces text) = readRows text ↔
    (∃ n token, readRows text = .error (.badNumber n token)) ∨
      ∀ line ∈ textLines text, ¬ CommasOnly line := by
  rw [readRows_commasToSpaces, withoutEmptyRows_eq_self_iff]
  rcases h : readRows text with (_ | ⟨n, token⟩) | rows
  · refine iff_of_true nofun (.inr fun line hline hcommas => ?_)
    exact readRows_eq_noRows_iff_not_hasRow.mp h line hline (commasOnly_iff.mp hcommas).1
  · exact iff_of_true nofun (.inl ⟨n, token, rfl⟩)
  · have hne : rows ≠ [] := (readRows_eq_ok_iff.mp h).1
    simp [hne, nil_mem_iff_of_readRows h]

/-- A text and the text with spaces in place of its commas are read alike, but for the rows
without numbers, which only the first can have: one for each line with commas and no token.  The
outcomes are the same exactly if a token is no number, which is then blamed in both texts, or if
there is no such line. -/
theorem outcome_without_commas (text : List Char) :
    readRows (commasToSpaces text) = withoutEmptyRows (readRows text) ∧
      (readRows (commasToSpaces text) = readRows text ↔
        (∃ n token, readRows text = .error (.badNumber n token)) ∨
          ∀ line ∈ textLines text, ¬ CommasOnly line) ∧
      ∀ rows, readRows text = .ok rows →
        ([] ∈ rows ↔ ∃ line ∈ textLines text, CommasOnly line) :=
  ⟨readRows_commasToSpaces text, readRows_commasToSpaces_eq_iff,
    fun _ => nil_mem_iff_of_readRows⟩

/-- A row between commas and comments that reads alike without them, and a token that is blamed
behind a line of commas. -/
theorem outcome_without_commas_examples :
    let read := "# a, b\n1,,2\t, 3 # ,\n \n".toList
    let blamed := ",\n4, x".toList
    readRows (commasToSpaces read) = readRows read ∧ readRows read = .ok [[1, 2, 3]] ∧
      (¬ ∃ line ∈ textLines read, CommasOnly line) ∧
      readRows (commasToSpaces blamed) = .error (.badNumber 2 ['x']) := by
  intro read blamed
  obtain ⟨-, hsame, hempty⟩ := outcome_without_commas read
  obtain ⟨hlaw, -⟩ := outcome_without_commas blamed
  have hread : readRows read = .ok [[1, 2, 3]] := by decide +kernel
  have hnone : ¬ ∃ line ∈ textLines read, CommasOnly line := by
    rw [← hempty _ hread]
    simp
  refine ⟨hsame.mpr (.inr fun line hline hcommas => hnone ⟨line, hline, hcommas⟩), hread,
    hnone, ?_⟩
  have hblamed : readRows blamed = .error (.badNumber 2 ['x']) := by decide +kernel
  rw [hlaw, hblamed]
  rfl

/-- A line of a comma alone is a row without numbers between two rows of two. -/
theorem comma_line_read_as_row :
    let text := "1, 2\n,\n3, 4\n".toList
    readRows text = .ok [[1, 2], [], [3, 4]] ∧
      readRows (commasToSpaces text) = .ok [[1, 2], [3, 4]] ∧
      readRows (commasToSpaces text) ≠ readRows text := by
  decide +kernel

end Outcomes

end GridInversion.MatrixText
