import LineScript.Token
import LineScript.Text.Alphanumeric
import LineScript.Text.Blank
import LineScript.Text.Lines

/-!
# Scanning

A program has one statement on a line, so a source is scanned line by line, and what is found on a
line depends on nothing but that line: the pieces of a line carry columns, and `Piece.place` turns
them into tokens once the number and the offset of the line are known. A line feed is a token of
its own, and one more token marks the end of the source.

    Text name  [ = words and $references$ ]
    Zahl name  [ = operand { operator operand } ]
    Input name
    Output name

An operand is a run of digits or a reference `$name$`. In the words of a text, `$$` ends a word with
one dollar sign. The only difference between the last line and the others is the wording of one
fault, a number that is missing where the line ends.
-/

set_option autoImplicit false

namespace LineScript

/-- Why a line cannot be cut into tokens. -/
inductive LexFault where
  | unknownStatement (word : String)
  | missingEquals
  | extraWord (word : String) (keyword : Keyword)
  | missingOperator (word : String)
  | inputEnds
  | lineEnds
  | notANumber (word : String)
  | emptyReference
  | namelessReference
  | unclosedReference (name : String)
  | reopenedReference
  deriving DecidableEq, Repr

/-- The wording of a fault. -/
def LexFault.message : LexFault → String
  | unknownStatement word => s!"expected Text, Zahl, Input or Output but found `{word}`"
  | missingEquals => "expected `=` to assign a value"
  | extraWord word keyword => s!"unexpected `{word}` after {keyword.word} variable"
  | missingOperator word => s!"expected an arithmetic operator (+ - * /) but found `{word}`"
  | inputEnds => "unexpected end of input, expected a number"
  | lineEnds => "expected a number before the end of the line"
  | notANumber word => s!"expected a number or a `$variable$` but found `{word}`"
  | emptyReference => "expected a variable name between `$` and `$`"
  | namelessReference => "expected a variable name after `$`"
  | unclosedReference name => s!"expected closing `$` for variable `{name}`"
  | reopenedReference => "found `$$` but a variable reference was already open"

namespace Scan

open Text (isBlank isSpace isNameChar)

/-- A token of one line: its kind, its text and the column where the text starts. -/
structure Piece where
  kind : Token.Kind
  text : List Char
  column : Nat
  deriving DecidableEq, Repr

/-- A fault of one line: its cause, the column where it starts and the characters it covers. -/
structure Flaw where
  cause : LexFault
  column : Nat
  width : Nat
  deriving DecidableEq, Repr

/-- The span of some columns of a line with the given number that starts at the given offset. -/
def place (line offset column width : Nat) : Span :=
  ⟨line, (offset + column : Nat), (offset + column + width : Nat)⟩

/-- The token that a piece of a line is. -/
def Piece.place (line offset : Nat) (piece : Piece) : Token :=
  ⟨piece.kind, String.ofList piece.text, Scan.place line offset piece.column piece.text.length⟩

/-- The fault of the source that a flaw of a line is. -/
def Flaw.place (line offset : Nat) (flaw : Flaw) : Located LexFault :=
  ⟨flaw.cause, Scan.place line offset flaw.column flaw.width⟩

/-- The characters up to the next white space. -/
def nextWord (cs : List Char) : List Char :=
  cs.takeWhile fun c => !isSpace c

/-- A flaw that covers the characters up to the next white space. -/
def wordFlaw (cause : String → LexFault) (column : Nat) (cs : List Char) : Flaw :=
  ⟨cause (String.ofList (nextWord cs)), column, (nextWord cs).length⟩

/-- The columns that the blanks at the front take up. -/
def blanks (cs : List Char) : Nat :=
  (cs.takeWhile isBlank).length

/-- What follows the blanks at the front. -/
def skipBlanks (cs : List Char) : List Char :=
  cs.dropWhile isBlank

theorem length_skipBlanks_le (cs : List Char) : (skipBlanks cs).length ≤ cs.length :=
  (List.dropWhile_suffix _).length_le

/-! ## References -/

/-- Scans a reference whose opening dollar sign stands in the given column, from the character after
it on. The piece is the name alone; what is left starts after the closing dollar sign. -/
def reference (column : Nat) (cs : List Char) : Except Flaw (Piece × List Char) :=
  let name := cs.takeWhile isNameChar
  let rest := cs.dropWhile isNameChar
  if name.isEmpty then
    -- With the opening sign this is a doubled dollar sign, which stands for itself in texts only.
    match rest with
    | '$' :: _ => .error ⟨.emptyReference, column, 2⟩
    | _ => .error ⟨.namelessReference, column, 1⟩
  else
    match rest with
    -- The closing sign could also be the first half of a doubled one, so neither is guessed.
    | '$' :: '$' :: _ => .error ⟨.reopenedReference, column + 1 + name.length, 2⟩
    | '$' :: after => .ok (⟨.identifier, name, column + 1⟩, after)
    | _ => .error ⟨.unclosedReference (String.ofList name), column, 1 + name.length⟩

/-- A reference takes up characters. -/
theorem length_of_reference {column : Nat} {cs : List Char} {piece : Piece} {rest : List Char}
    (h : reference column cs = .ok (piece, rest)) : rest.length < cs.length := by
  have hle : (cs.dropWhile isNameChar).length ≤ cs.length := (List.dropWhile_suffix _).length_le
  simp only [reference] at h
  split at h
  · split at h <;> cases h
  · split at h
    · cases h
    · next after heq =>
      cases h
      rw [heq] at hle
      exact hle
    · cases h

/-! ## Texts -/

/-- A character that belongs to a word of a text wherever it stands. -/
def isWordChar (c : Char) : Bool :=
  !isBlank c && c != '$'

/-- A word as a piece, if there is one. -/
def wordPiece (column : Nat) (word : List Char) : List Piece :=
  if word.isEmpty then [] else [⟨.value, word, column⟩]

/-- Scans the words and references of a text. -/
def textPieces (column : Nat) (cs : List Char) : Except Flaw (List Piece) :=
  let word := cs.takeWhile isWordChar
  let next := column + word.length
  match _ : cs.dropWhile isWordChar with
  | [] => .ok (wordPiece column word)
  -- A doubled dollar sign belongs to the word before it and ends the word.
  | '$' :: '$' :: rest => do
    let more ← textPieces (next + 2) rest
    .ok (⟨.value, word ++ ['$'], column⟩ :: more)
  | '$' :: rest =>
    match _ : reference next rest with
    | .error flaw => .error flaw
    | .ok (name, after) => do
      let more ← textPieces (next + name.text.length + 2) after
      .ok (wordPiece column word ++ name :: more)
  | _ :: rest => do
    let more ← textPieces (next + 1) rest
    .ok (wordPiece column word ++ more)
termination_by cs.length
decreasing_by
  all_goals
    have hle : (cs.dropWhile isWordChar).length ≤ cs.length :=
      (List.dropWhile_suffix _).length_le
    simp only [‹cs.dropWhile isWordChar = _›, List.length_cons] at hle
  · omega
  · have := length_of_reference ‹reference _ rest = _›
    omega
  · omega

/-! ## Numbers -/

/-- Scans an operand that starts in the given column. What is left starts after the operand, in the
column that is also given. -/
def operand (last : Bool) (column : Nat) (cs : List Char) :
    Except Flaw (Piece × Nat × List Char) :=
  match cs with
  | [] => .error ⟨if last then .inputEnds else .lineEnds, column, 0⟩
  | '$' :: rest =>
    match reference column rest with
    | .error flaw => .error flaw
    | .ok (name, after) => .ok (name, column + name.text.length + 2, after)
  | cs =>
    let digits := cs.takeWhile Char.isDigit
    if digits.isEmpty then .error (wordFlaw .notANumber column cs)
    else .ok (⟨.value, digits, column⟩, column + digits.length, cs.dropWhile Char.isDigit)

/-- An operand leaves at most what it was given. -/
theorem length_of_operand {last : Bool} {column next : Nat} {cs rest : List Char} {piece : Piece}
    (h : operand last column cs = .ok (piece, next, rest)) : rest.length ≤ cs.length := by
  simp only [operand] at h
  split at h
  · cases h
  · split at h
    · cases h
    · next hr =>
      cases h
      have := length_of_reference hr
      simp only [List.length_cons]
      omega
  · split at h
    · cases h
    · cases h
      exact (List.dropWhile_suffix _).length_le

/-- Scans operands with operators between them, up to the end of the line. -/
def numberPieces (last : Bool) (column : Nat) (cs : List Char) : Except Flaw (List Piece) :=
  match _ : operand last (column + blanks cs) (skipBlanks cs) with
  | .error flaw => .error flaw
  | .ok (piece, next, rest) =>
    match _ : skipBlanks rest with
    | [] => .ok [piece]
    | c :: after =>
      match Operator.ofChar? c with
      | none =>
        -- Whatever follows an operand without an operator is told up to the next white space.
        .error (wordFlaw .missingOperator (next + blanks rest) (c :: after))
      | some op => do
        let more ← numberPieces last (next + blanks rest + 1) after
        .ok (piece :: ⟨.operator op, [c], next + blanks rest⟩ :: more)
termination_by cs.length
decreasing_by
  have h₁ := length_of_operand ‹operand last _ _ = _›
  have h₂ := length_skipBlanks_le cs
  have h₃ := length_skipBlanks_le rest
  rw [‹skipBlanks rest = _›] at h₃
  simp only [List.length_cons] at h₃
  omega

/-! ## Statements -/

/-- Scans what follows the name in a statement, from its first character that is not a blank. -/
def tailPieces (last : Bool) (keyword : Keyword) (column : Nat) (cs : List Char) :
    Except Flaw (List Piece) :=
  match cs with
  | [] => .ok []
  | c :: rest =>
    match keyword with
    | .text =>
      if c = '=' then do
        let value ← textPieces (column + 1) rest
        .ok (⟨.equal, ['='], column⟩ :: value)
      else .error (wordFlaw (fun _ => .missingEquals) column (c :: rest))
    | .number =>
      if c = '=' then do
        let value ← numberPieces last (column + 1) rest
        .ok (⟨.equal, ['='], column⟩ :: value)
      else .error (wordFlaw (fun _ => .missingEquals) column (c :: rest))
    | keyword => .error (wordFlaw (fun word => .extraWord word keyword) column (c :: rest))

/-- A variable name as a piece, if there is one. -/
def namePiece (column : Nat) (name : List Char) : List Piece :=
  if name.isEmpty then [] else [⟨.identifier, name, column⟩]

/-- Scans a statement from its first character on. A missing name is not noticed here. -/
def statementPieces (last : Bool) (column : Nat) (cs : List Char) : Except Flaw (List Piece) :=
  let word := nextWord cs
  match Keyword.ofWord? word with
  | none => .error (wordFlaw .unknownStatement column cs)
  | some keyword =>
    let afterWord := cs.drop word.length
    let nameColumn := column + word.length + blanks afterWord
    let fromName := skipBlanks afterWord
    -- The name may be empty: the parser finds it missing, whatever follows.
    let name := fromName.takeWhile isNameChar
    let afterName := fromName.drop name.length
    let tailColumn := nameColumn + name.length + blanks afterName
    do
      let tail ← tailPieces last keyword tailColumn (skipBlanks afterName)
      .ok (⟨.keyword keyword, word, column⟩ :: namePiece nameColumn name ++ tail)

/-- Scans one line, which holds a statement or nothing but blanks. -/
def linePieces (last : Bool) (cs : List Char) : Except Flaw (List Piece) :=
  match skipBlanks cs with
  | [] => .ok []
  | c :: rest => statementPieces last (blanks cs) (c :: rest)

/-- The tokens of one line that has the given number and starts at the given offset. -/
def lineTokens (last : Bool) (line offset : Nat) (cs : List Char) :
    Except (Located LexFault) (List Token) :=
  match linePieces last cs with
  | .error flaw => .error (flaw.place line offset)
  | .ok pieces => .ok (pieces.map (Piece.place line offset))

/-- The tokens of consecutive lines, the line feeds between them and the end of the source. -/
def linesTokens (line offset : Nat) : List (List Char) → Except (Located LexFault) (List Token)
  | [] => .ok []
  | [cs] => do
    let tokens ← lineTokens true line offset cs
    .ok (tokens ++ [⟨.endOfInput, "", place line offset cs.length 0⟩])
  | cs :: more => do
    let tokens ← lineTokens false line offset cs
    let others ← linesTokens (line + 1) (offset + cs.length + 1) more
    .ok (tokens ++ ⟨.newline, "\n", place line offset cs.length 1⟩ :: others)

end Scan

/-- The tokens of a source. -/
def Token.scan (source : String) : Except (Located LexFault) (List Token) :=
  Scan.linesTokens 1 0 (Text.lines source.toList)

end LineScript
