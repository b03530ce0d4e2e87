import GridInversion.Decimal.Fixed
import GridInversion.Decimal.Numeral
import GridInversion.MachineScalar
import GridInversion.Matrix.Basic
import GridInversion.Text

namespace GridInversion.MatrixText

def lines (text : List Char) : List (List Char) := text.splitOnP (· == '\n')

def significant (line : List Char) : List Char := line.takeWhile (· != '#')

def separates (c : Char) : Bool := c == ',' || Text.isBlank c

def tokens (part : List Char) : List (List Char) :=
  (part.splitOnP separates).filter (!·.isEmpty)

/-- A significant part of white space alone is no row. Commas alone are a row without numbers. -/
def isBlankPart (part : List Char) : Bool := part.all Text.isBlank

theorem tokens_append_cons (before : List Char) {c : Char} (hc : separates c = true)
    (after : List Char) : tokens (before ++ c :: after) = tokens before ++ tokens after := by
  rw [tokens, List.splitOnP_append_cons _ _ hc, List.filter_append]
  rfl

theorem tokens_cons {c : Char} (hc : separates c = true) (rest : List Char) :
    tokens (c :: rest) = tokens rest := tokens_append_cons [] hc rest

theorem tokens_eq_singleton {token : List Char} (hne : token ≠ [])
    (htoken : ∀ c ∈ token, separates c = false) : tokens token = [token] := by
  rw [tokens, List.splitOnP_eq_singleton htoken]
  exact List.filter_cons_of_pos (by simpa using hne)

theorem tokens_of_isBlankPart {part : List Char} (h : isBlankPart part = true) :
    tokens part = [] := by
  induction part with
  | nil => rfl
  | cons c rest ih =>
      obtain ⟨hc, hrest⟩ := Bool.and_eq_true_iff.mp h
      rw [tokens_cons (by rw [separates, hc, Bool.or_true]), ih hrest]

inductive ReadError where
  | noRows
  /-- A token on a line, counted from one, is not a number. -/
  | badNumber (line : Nat) (token : List Char)
deriving DecidableEq

def ReadError.message : ReadError → String
  | noRows => "no matrix rows in input"
  | badNumber line token =>
      "line " ++ toString line ++ ": bad number " ++ Text.quoted token ++
        ": invalid float literal"

def number? (token : List Char) : Option Float :=
  (Decimal.Numeral.ofChars? token).map fun n => MachineScalar.ofValue (n.round .double)

def readTokens : List (List Char) → Except (List Char) (List Float)
  | [] => .ok []
  | token :: rest =>
      match number? token with
      | none => .error token
      | some x => (readTokens rest).map (x :: ·)

def readLines : Nat → List (List Char) → Except ReadError (List (List Float))
  | _, [] => .ok []
  | n, line :: rest =>
      let part := significant line
      if isBlankPart part then readLines (n + 1) rest
      else
        match readTokens (tokens part) with
        | .error token => .error (.badNumber n token)
        | .ok row => (readLines (n + 1) rest).map (row :: ·)

def readRows (text : List Char) : Except ReadError (List (List Float)) :=
  match readLines 1 (lines text) with
  | .error e => .error e
  | .ok [] => .error .noRows
  | .ok rows => .ok rows

variable {α : Type} [MachineScalar α]

def cellSeparator : List Char := [' ', '\t', ' ']

def cellChars (places : Nat) (x : α) : List Char :=
  Decimal.fixedChars places (MachineScalar.value x)

def rowChars (places : Nat) (row : Array α) : List Char :=
  cellSeparator.intercalate (row.toList.map (cellChars places))

def matrixChars (m : Matrix α) (places : Nat) : List Char :=
  ['\n'].intercalate (m.toRows.map (rowChars places))

def matrixText (m : Matrix α) (places : Nat) : String := String.ofList (matrixChars m places)

end GridInversion.MatrixText
