import GridInversion.Proofs.FixedDecimals
import GridInversion.Proofs.MachineBits
import GridInversion.Proofs.MatrixRows
import GridInversion.Proofs.RowLists
import GridInversion.Proofs.TextRows

namespace GridInversion.MatrixText

/-- A character that neither ends a token nor begins a comment. -/
def InToken (c : Char) : Prop := separates c = false ∧ c ≠ '#'

instance : DecidablePred InToken := fun c =>
  inferInstanceAs (Decidable (separates c = false ∧ c ≠ '#'))

def IsToken (cs : List Char) : Prop := cs ≠ [] ∧ ∀ c ∈ cs, InToken c

theorem isBlank_of_not_separates {c : Char} (h : separates c = false) : Text.isBlank c = false :=
  (Bool.or_eq_false_iff.mp h).2

theorem separates_of_isDigit {c : Char} (h : c.isDigit = true) : separates c = false := by
  obtain ⟨hlow, hhigh⟩ := Char.isDigit_iff_toNat.mp h
  have hlow : 48 ≤ c.toNat := hlow
  have hhigh : c.toNat ≤ 57 := hhigh
  have hcomma : c ≠ ',' := by
    rintro rfl
    cases h
  have hblank : ¬ Text.inRanges Text.blankRanges c = true := by
    simp only [Text.inRanges_iff, Text.blankRanges, List.mem_cons, List.not_mem_nil, or_false]
    rintro ⟨r, hr, hbelow, habove⟩
    rcases hr with rfl | rfl | rfl | rfl | rfl | rfl | rfl | rfl | rfl | rfl <;>
      simp only at hbelow habove <;> omega
  rw [separates, Bool.or_eq_false_iff]
  exact ⟨beq_eq_false_iff_ne.mpr hcomma, by rwa [Bool.not_eq_true] at hblank⟩

section Tokens

variable {row : List (List Char)} {grid : List (List (List Char))}

theorem forall_mem_intercalate {P : Char → Prop} {gap : List Char} (hgap : ∀ c ∈ gap, P c)
    (hrow : ∀ token ∈ row, ∀ c ∈ token, P c) : ∀ c ∈ gap.intercalate row, P c := by
  induction row with
  | nil => exact fun c hc => absurd hc List.not_mem_nil
  | cons token rest ih =>
      have hrest := ih fun token htoken => hrow token (List.mem_cons_of_mem _ htoken)
      rcases eq_or_ne rest [] with rfl | hne
      · rw [List.intercalate_singleton]
        exact hrow token List.mem_cons_self
      · rw [List.intercalate_cons_of_ne_nil hne]
        intro c hc
        rcases List.mem_append.mp hc with hc | hc
        · rcases List.mem_append.mp hc with hc | hc
          · exact hrow token List.mem_cons_self c hc
          · exact hgap c hc
        · exact hrest c hc

theorem tokens_of_isToken {token : List Char} (h : IsToken token) : tokens token = [token] :=
  tokens_eq_singleton h.1 fun c hc => (h.2 c hc).1

theorem tokens_intercalate (hrow : ∀ token ∈ row, IsToken token) :
    tokens (cellSeparator.intercalate row) = row := by
  induction row with
  | nil => rfl
  | cons token rest ih =>
      have hrest := ih fun token htoken => hrow token (List.mem_cons_of_mem _ htoken)
      have htoken := hrow token List.mem_cons_self
      rcases eq_or_ne rest [] with rfl | hne
      · rw [List.intercalate_singleton]
        exact tokens_of_isToken htoken
      · rw [List.intercalate_cons_of_ne_nil hne, List.append_assoc]
        calc tokens (token ++ (cellSeparator ++ cellSeparator.intercalate rest))
            = tokens token ++ tokens ('\t' :: ' ' :: cellSeparator.intercalate rest) :=
              tokens_append_cons token (by decide) _
          _ = token :: rest := by
              rw [tokens_of_isToken htoken, tokens_cons (by decide), tokens_cons (by decide), hrest]
              rfl

theorem ne_newline_of_isToken (hrow : ∀ token ∈ row, IsToken token) :
    '\n' ∉ cellSeparator.intercalate row := by
  intro hmem
  refine forall_mem_intercalate (P := (· ≠ '\n')) (by simp [cellSeparator]) (fun token htoken c hc => ?_) _
    hmem rfl
  rintro rfl
  exact absurd ((hrow token htoken).2 _ hc).1 (by decide)

theorem significant_intercalate (hrow : ∀ token ∈ row, IsToken token) :
    significant (cellSeparator.intercalate row) = cellSeparator.intercalate row := by
  refine List.takeWhile_eq_self_iff.mpr fun c hc => ?_
  refine forall_mem_intercalate (P := fun c => (c != '#') = true) (by simp [cellSeparator])
    (fun token htoken c hc => ?_) c hc
  exact bne_iff_ne.mpr ((hrow token htoken).2 c hc).2

theorem isBlankPart_intercalate (hne : row ≠ []) (hrow : ∀ token ∈ row, IsToken token) :
    isBlankPart (cellSeparator.intercalate row) = false := by
  obtain ⟨token, rest, rfl⟩ := List.exists_cons_of_ne_nil hne
  obtain ⟨htokenne, htoken⟩ := hrow token List.mem_cons_self
  obtain ⟨c, cs, rfl⟩ := List.exists_cons_of_ne_nil htokenne
  have hc : Text.isBlank c = false := isBlank_of_not_separates (htoken c List.mem_cons_self).1
  have hmem : c ∈ cellSeparator.intercalate ((c :: cs) :: rest) := by
    rcases eq_or_ne rest [] with rfl | hrest
    · rw [List.intercalate_singleton]
      exact List.mem_cons_self
    · rw [List.intercalate_cons_of_ne_nil hrest, List.cons_append, List.cons_append]
      exact List.mem_cons_self
  rw [isBlankPart, List.all_eq_false]
  exact ⟨c, hmem, by rw [hc]; exact Bool.false_ne_true⟩

variable {f : List Char → Float}

/-- A row of numerals, and `f` gives their numbers. -/
structure ReadsAs (f : List Char → Float) (row : List (List Char)) : Prop where
  ne_nil : row ≠ []
  isToken : ∀ token ∈ row, IsToken token
  number : ∀ token ∈ row, number? token = some (f token)

theorem ReadsAs.isRowOf (h : ReadsAs f row) :
    IsRowOf (cellSeparator.intercalate row) (row.map f) := by
  rw [IsRowOf, lineTokens, significant_intercalate h.isToken, tokens_intercalate h.isToken,
    List.map_map]
  exact List.map_congr_left h.number

theorem ReadsAs.hasRow (h : ReadsAs f row) : HasRow (cellSeparator.intercalate row) := by
  rw [HasRow, significant_intercalate h.isToken, isBlankPart_intercalate h.ne_nil h.isToken]
  exact Bool.false_ne_true

theorem readLines_eq_ok (hgrid : ∀ row ∈ grid, ReadsAs f row) (n : ℕ) :
    readLines n (grid.map cellSeparator.intercalate) = .ok (grid.map (List.map f)) := by
  have hrows : ∀ line ∈ grid.map cellSeparator.intercalate, decide (HasRow line) = true := by
    simpa using fun row hrow => (hgrid row hrow).hasRow
  rw [readLines_eq_ok_iff, List.filter_eq_self.mpr hrows, List.forall₂_map_left_iff,
    List.forall₂_map_right_iff, List.forall₂_same]
  exact fun row hrow => (hgrid row hrow).isRowOf

/-- Rows of numerals between the separators of the printer are read number by number. -/
theorem readRows_eq_ok (hne : grid ≠ []) (hgrid : ∀ row ∈ grid, ReadsAs f row) :
    readRows (['\n'].intercalate (grid.map cellSeparator.intercalate)) =
      .ok (grid.map (List.map f)) := by
  have hlines : lines (['\n'].intercalate (grid.map cellSeparator.intercalate)) =
      grid.map cellSeparator.intercalate := by
    refine List.splitOn_intercalate '\n' (fun line hline => ?_) (by simpa using hne)
    obtain ⟨row, hrow, rfl⟩ := List.mem_map.mp hline
    exact ne_newline_of_isToken (hgrid row hrow).isToken
  obtain ⟨row, rest, rfl⟩ := List.exists_cons_of_ne_nil hne
  rw [readRows, hlines, readLines_eq_ok hgrid]
  rfl

end Tokens

theorem inToken_of_isDigit {c : Char} (h : c.isDigit = true) : InToken c := by
  refine ⟨separates_of_isDigit h, ?_⟩
  rintro rfl
  cases h

theorem isToken_word {c : Char} {cs : List Char}
    (h : (c :: cs).all (fun c => decide (InToken c)) = true) : IsToken (c :: cs) :=
  ⟨List.cons_ne_nil _ _, fun c hc => of_decide_eq_true (List.all_eq_true.mp h c hc)⟩

theorem isToken_sign_append {cs : List Char} (h : IsToken cs) (negative : Bool) :
    IsToken (Decimal.sign negative ++ cs) := by
  cases negative with
  | false => exact h
  | true => exact ⟨List.cons_ne_nil _ _, List.forall_mem_cons.mpr ⟨by decide, h.2⟩⟩

theorem isToken_pointed (places n : ℕ) : IsToken (Decimal.pointed places n) := by
  obtain ⟨whole, fraction, hne, hwhole, hfraction, -, -, hpointed⟩ :=
    Decimal.pointed_eq places n
  rw [hpointed]
  refine ⟨List.append_ne_nil_of_left_ne_nil hne _, List.forall_mem_append.mpr ⟨?_, ?_⟩⟩
  · exact fun c hc => inToken_of_isDigit (hwhole c hc)
  · split
    · exact fun c hc => absurd hc List.not_mem_nil
    · refine List.forall_mem_cons.mpr ⟨by decide, ?_⟩
      exact fun c hc => inToken_of_isDigit (hfraction c hc)

theorem isToken_fixedChars (places : ℕ) (v : Binary.Value) :
    IsToken (Decimal.fixedChars places v) := by
  cases v with
  | nan => exact isToken_word (by decide)
  | infinite negative => exact isToken_sign_append (isToken_word (by decide)) negative
  | finite negative m q => exact isToken_sign_append (isToken_pointed places _) negative

theorem exists_number_cellChars (places : ℕ) (x : Float) :
    ∃ y, number? (cellChars places x) = some y ∧ cellChars places y = cellChars places x := by
  obtain ⟨numeral, hread, hcontains, hsame⟩ := Decimal.fixedChars_round
    Binary.Format.regular_double places (MachineScalar.contains_value x)
  refine ⟨MachineScalar.ofValue (numeral.round .double), ?_, ?_⟩
  · rw [number?, cellChars, hread]
    rfl
  · rw [cellChars, MachineScalar.value_ofValue hcontains, hsame, cellChars]

section Matrix

variable {places : ℕ} {reread : Float → Float}
  (hread : ∀ x, number? (cellChars places x) = some (reread x))
include hread

theorem readRows_matrixChars {m : Matrix Float} {s : Shape} {a : Cells Float}
    (h : m.HasCells s a) (hrows : s.rows ≠ 0) (hcols : s.cols ≠ 0) :
    readRows (matrixChars m places) =
      .ok ((List.range s.rows).map fun y => (List.range s.cols).map fun x => reread (a y x)) := by
  set grid := (List.range s.rows).map fun y =>
    (List.range s.cols).map fun x => cellChars places (a y x) with hgrid
  have hreads : ∀ row ∈ grid, ReadsAs (fun token => (number? token).getD 0) row := by
    intro row hrow
    obtain ⟨y, -, rfl⟩ := List.mem_map.mp hrow
    refine ⟨by simpa using hcols, fun token htoken => ?_, fun token htoken => ?_⟩
    · obtain ⟨x, -, rfl⟩ := List.mem_map.mp htoken
      exact isToken_fixedChars places _
    · obtain ⟨x, -, rfl⟩ := List.mem_map.mp htoken
      rw [hread, Option.getD_some]
  have htext : matrixChars m places =
      ['\n'].intercalate (grid.map cellSeparator.intercalate) := by
    rw [h.matrixChars_eq, hgrid, List.map_map]
    rfl
  rw [htext, readRows_eq_ok (by simpa [hgrid] using hrows) hreads]
  simp [hgrid, hread, Function.comp_def]

end Matrix

/-- A printed matrix is read as rows of the same shape, in each place the number that the text of
the cell is read as, and the matrix of these rows has the same text again. -/
theorem readRows_matrixText {m : Matrix Float} (hwell : m.WellFormed) (hrows : 1 ≤ m.rows)
    (hcols : 1 ≤ m.cols) (places : ℕ) :
    ∃ rows, readRows (matrixText m places).toList = .ok rows ∧
      rows.length = m.rows ∧ (∀ row ∈ rows, row.length = m.cols) ∧
      (∀ i < m.rows, ∀ j < m.cols,
        (rows[i]?.bind (·[j]?)) = number? (cellChars places (m.cells i j))) ∧
      ∃ m', Matrix.ofRows (rows.map List.toArray) = .ok m' ∧
        matrixText m' places = matrixText m places := by
  choose reread hread hsame using exists_number_cellChars places
  have hcells : m.HasCells m.shape m.cells := (hwell.fits rfl).hasCells
  have hrows0 : m.rows ≠ 0 := Nat.one_le_iff_ne_zero.mp hrows
  have hcols0 : m.cols ≠ 0 := Nat.one_le_iff_ne_zero.mp hcols
  have hrowsread := readRows_matrixChars hread hcells hrows0 hcols0
  set rows := (List.range m.shape.rows).map fun y =>
    (List.range m.shape.cols).map fun x => reread (m.cells y x) with hrowsdef
  have hlength : rows.length = m.rows := by
    rw [hrowsdef, List.length_map, List.length_range]
    rfl
  have hwidth : ∀ row ∈ rows, row.length = m.cols := by
    intro row hrow
    obtain ⟨y, -, rfl⟩ := List.mem_map.mp hrow
    rw [List.length_map, List.length_range]
    rfl
  have hcell : ∀ i < m.rows, ∀ j < m.cols, (rows.getD i []).getD j 0 = reread (m.cells i j) ∧
      (rows[i]?.bind (·[j]?)) = some (reread (m.cells i j)) := by
    intro i hi j hj
    constructor <;> simp [hrowsdef, Matrix.shape, hi, hj]
  have hne : rows ≠ [] := by
    intro hnil
    rw [hnil, List.length_nil] at hlength
    exact hrows0 hlength.symm
  obtain ⟨m', hm', hcells'⟩ := Matrix.exists_ofRows_toArray (0 : Float) hne hcols0 hwidth
  refine ⟨rows, ?_, hlength, hwidth, fun i hi j hj => ?_, m', hm', ?_⟩
  · rw [matrixText, String.toList_ofList, hrowsread]
  · rw [hread, (hcell i hi j hj).2]
  · rw [hlength] at hcells'
    have hagain : m'.HasCells m.shape fun y x => reread (m.cells y x) :=
      hcells'.congr fun y x hy hx => (hcell y hy x hx).1
    rw [matrixText, matrixText, hcells.matrixChars_eq, hagain.matrixChars_eq]
    simp only [hsame]

/-- Zero keeps its sign, what is no number or too large keeps its word, and of the two decimals
next to an eighth the even one stays. -/
theorem readRows_matrixText_special :
    ∃ rows, readRows "-0.00 \t inf\nNaN \t 0.12".toList = .ok rows ∧
      rows.length = 2 ∧ (∀ row ∈ rows, row.length = 2) ∧
      ∃ m' : Matrix Float, Matrix.ofRows (rows.map List.toArray) = .ok m' ∧
        matrixText m' 2 = "-0.00 \t inf\nNaN \t 0.12" := by
  have htext : matrixText (⟨2, 2, #[-0.0, 1 / 0, 0 / 0, 0.125]⟩ : Matrix Float) 2 =
      "-0.00 \t inf\nNaN \t 0.12" := by decide +kernel
  obtain ⟨rows, hread, hlength, hwidth, -, m', hm', hsame⟩ :=
    readRows_matrixText (m := ⟨2, 2, #[-0.0, 1 / 0, 0 / 0, 0.125]⟩) rfl (by decide) (by decide) 2
  rw [htext] at hread hsame
  exact ⟨rows, hread, hlength, hwidth, m', hm', hsame⟩

end GridInversion.MatrixText
