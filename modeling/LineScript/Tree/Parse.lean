import LineScript.Token
import LineScript.Tree

/-!
# Parsing

The tokens of a program are cut into lines at the line feeds, up to the end of the input, and each
line is parsed on its own: it is empty or holds one statement. A chain of numbers folds to the
left, without precedence; the words and references of a text fold to the right. The first line that
is no statement makes the program a failure, at the token that does not fit: the first one of the
line that is not wanted, or the one that ends the line too early. Tokens that stop without an end
of input fail there, at the last of them.
-/

set_option autoImplicit false

namespace LineScript

/-- Why tokens are no program. -/
inductive ParseFault where
  | notAStatement (found : Token)
  | missingName (keyword : Keyword) (found : Token)
  | missingEquals (found : Token)
  | missingText (found : Token)
  | missingNumber (found : Token)
  | notAnInteger (lexeme : String)
  | trailing (found : Token)
  | inputEnds
  deriving DecidableEq, Repr

/-- The wording of a fault. -/
def ParseFault.message : ParseFault → String
  | notAStatement found => s!"expected Text, Zahl, Input or Output but found {found.describe}"
  | missingName keyword found =>
    s!"expected variable name after {keyword.word} but found {found.describe}"
  | missingEquals found => s!"invalid assignment, expected `=` but found {found.describe}"
  | missingText found => s!"expected text value but found {found.describe}"
  | missingNumber found => s!"expected number value but found {found.describe}"
  | notAnInteger lexeme => s!"`{lexeme}` is not a valid 64-bit integer"
  | trailing found => s!"expected end of line after statement but found {found.describe}"
  | inputEnds => "unexpected end of input while parsing"

/-- What stops the parser: a fault of the program, or digits that are too many to be read. -/
inductive ParseFailure where
  | fault (fault : Located ParseFault)
  | tooManyDigits (count : Nat)
  deriving DecidableEq, Repr

namespace Parse

/-- How a line of tokens ends: at a token, or nowhere, after the last token of all. -/
inductive LineEnd where
  | found (token : Token)
  | missing (last : Span)
  deriving DecidableEq, Repr

/-- The tokens of a line that are not parsed yet, and its end. -/
structure Line where
  tokens : List Token
  stop : LineEnd
  deriving DecidableEq, Repr

/-- Cuts tokens into lines, the last of which ends at the end of the input or nowhere. -/
def cutLines (last : Span) : List Token → List Line
  | [] => [⟨[], .missing last⟩]
  | token :: tokens =>
    match token.kind with
    | .endOfInput => [⟨[], .found token⟩]
    | .newline => ⟨[], .found token⟩ :: cutLines last tokens
    | _ =>
      match cutLines last tokens with
      | [] => []
      | line :: lines => ⟨token :: line.tokens, line.stop⟩ :: lines

/-- The failure of a line whose next token does not fit. -/
def Line.reject (line : Line) (cause : Token → ParseFault) : ParseFailure :=
  match line.tokens, line.stop with
  | token :: _, _ => .fault ⟨cause token, token.span⟩
  | [], .found token => .fault ⟨cause token, token.span⟩
  | [], .missing last => .fault ⟨.inputEnds, last⟩

/-- Takes the name after a keyword. -/
def Line.identifier (line : Line) (keyword : Keyword) :
    Except ParseFailure (Target × Line) :=
  match line.tokens with
  | ⟨.identifier, name, span⟩ :: rest => .ok (.named span name, { line with tokens := rest })
  | _ => .error (line.reject (.missingName keyword))

/-- A statement is over where its line is. -/
def Line.finish (line : Line) : Except ParseFailure Unit :=
  match line.tokens, line.stop with
  | [], .found _ => .ok ()
  | _, _ => .error (line.reject .trailing)

/-! ## Texts -/

/-- The leaf of a text that a token is. -/
def textLeaf? (token : Token) : Option TextExpr :=
  match token.kind with
  | .value => some (.literal token.span token.lexeme)
  | .identifier => some (.reference token.span token.lexeme)
  | _ => none

/-- Folds leaves to the right. -/
def concatLeaves (first : TextExpr) : List TextExpr → TextExpr
  | [] => first
  | next :: more =>
    let rest := concatLeaves next more
    .concat (first.span.upTo rest.span) first rest

/-- Takes leaves of a text from the front of a line, as many as there are. -/
def takeLeaves : List Token → List TextExpr × List Token
  | [] => ([], [])
  | token :: rest =>
    match textLeaf? token with
    | none => ([], token :: rest)
    | some leaf =>
      let (leaves, after) := takeLeaves rest
      (leaf :: leaves, after)

/-- Takes the value of a text. -/
def Line.textValue (line : Line) : Except ParseFailure (TextExpr × Line) :=
  match takeLeaves line.tokens with
  | ([], _) => .error (line.reject .missingText)
  | (first :: more, rest) => .ok (concatLeaves first more, { line with tokens := rest })

/-! ## Numbers -/

/-- The leaf of a number that a token is. -/
def numberLeaf (token : Token) : Except ParseFailure NumberExpr :=
  match token.kind with
  | .value =>
    match Integer.read token.lexeme with
    | .integer n => .ok (.literal token.span n)
    | .notAnInteger => .error (.fault ⟨.notAnInteger token.lexeme, token.span⟩)
    | .tooManyDigits count => .error (.tooManyDigits count)
  | .identifier => .ok (.reference token.span token.lexeme)
  | _ => .error (.fault ⟨.missingNumber token, token.span⟩)

/-- Takes operators and leaves from the front of a line and folds them to the left. -/
def foldChain (stop : LineEnd) (left : NumberExpr) :
    List Token → Except ParseFailure (NumberExpr × List Token)
  | [] => .ok (left, [])
  | token :: rest =>
    match token.kind with
    | .operator op =>
      match rest with
      -- The end of the line is to blame for a missing operand, not the operator.
      | [] => .error (Line.reject ⟨[], stop⟩ .missingNumber)
      | leaf :: rest => do
        let right ← numberLeaf leaf
        foldChain stop (.binary (left.span.upTo right.span) op.symbol left right) rest
    | _ => .ok (left, token :: rest)

/-- Takes the value of a number. -/
def Line.numberValue (line : Line) : Except ParseFailure (NumberExpr × Line) :=
  match line.tokens with
  | [] => .error (line.reject .missingNumber)
  | token :: rest => do
    let first ← numberLeaf token
    let (value, rest) ← foldChain line.stop first rest
    .ok (value, { line with tokens := rest })

/-! ## Statements -/

/-- Takes the name and the value of an assignment. Without an equals sign the value is the given
one. -/
def Line.assignment {α : Type} (line : Line) (keyword : Keyword) (default : α)
    (value : Line → Except ParseFailure (α × Line)) :
    Except ParseFailure (Target × α × Line) := do
  let (target, line) ← line.identifier keyword
  match line.tokens, line.stop with
  -- Tokens that stop nowhere have no default value: there may have been more to come.
  | [], .found _ => .ok (target, default, line)
  | ⟨.equal, _, _⟩ :: rest, _ => do
    let (result, line) ← value { line with tokens := rest }
    .ok (target, result, line)
  | _, _ => .error (line.reject .missingEquals)

/-- Parses a statement, given its first token and the line after it. -/
def statement (first : Token) (line : Line) : Except ParseFailure Statement :=
  match first.kind with
  | .keyword .text => do
    let (target, value, line) ←
      line.assignment .text (.literal first.span "") Line.textValue
    line.finish
    .ok (.text (first.span.upTo (target.span.further value.span)) target value)
  | .keyword .number => do
    let (target, value, line) ←
      line.assignment .number (.literal first.span 0) Line.numberValue
    line.finish
    .ok (.number (first.span.upTo (target.span.further value.span)) target value)
  | .keyword .input => do
    let (target, line) ← line.identifier .input
    line.finish
    .ok (.input (first.span.upTo target.span) target)
  | .keyword .output => do
    let (target, line) ← line.identifier .output
    line.finish
    .ok (.output (first.span.upTo target.span) target)
  | _ => .error (.fault ⟨.notAStatement first, first.span⟩)

/-- Parses a line: nothing on an empty one. -/
def Line.parse (line : Line) : Except ParseFailure (Option Statement) :=
  match line.tokens, line.stop with
  | [], .found _ => .ok none
  | [], .missing last => .error (.fault ⟨.inputEnds, last⟩)
  | first :: rest, _ => do
    let parsed ← statement first { line with tokens := rest }
    .ok (some parsed)

/-- Parses lines in order. -/
def parseLines : List Line → Except ParseFailure (List Statement)
  | [] => .ok []
  | line :: lines => do
    let parsed ← line.parse
    let more ← parseLines lines
    .ok (parsed.toList ++ more)

/-- The span of the last token. -/
def lastSpan (tokens : List Token) : Span :=
  match tokens.getLast? with
  | none => .zero
  | some token => token.span

end Parse

/-- The statements that tokens make up. -/
def Statement.parse (tokens : List Token) : Except ParseFailure (List Statement) :=
  Parse.parseLines (Parse.cutLines (Parse.lastSpan tokens) tokens)

end LineScript
