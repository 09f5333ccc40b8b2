import LineScript.Operator
import LineScript.Diagnostic
import LineScript.Text.Quoted

/-!
# Tokens

A token is a word of a program: its kind, its text and where it stands.
-/

set_option autoImplicit false

namespace LineScript

/-- The words that start a statement. -/
inductive Keyword where
  | text
  | number
  | input
  | output
  deriving DecidableEq, Repr

namespace Keyword

/-- The keyword as it is written. -/
def word : Keyword → String
  | text => "Text"
  | number => "Zahl"
  | input => "Input"
  | output => "Output"

/-- The keyword that a word is. -/
def ofWord? (word : List Char) : Option Keyword :=
  if word = text.word.toList then some text
  else if word = number.word.toList then some number
  else if word = input.word.toList then some input
  else if word = output.word.toList then some output
  else none

/-- Whether the statement can give its variable a written value. -/
def assigns : Keyword → Bool
  | text => true
  | number => true
  | input => false
  | output => false

end Keyword

/-- The kinds of tokens. An `identifier` is a variable name and a `value` is a word of a text or the
digits of a number. -/
inductive Token.Kind where
  | keyword (keyword : Keyword)
  | identifier
  | value
  | equal
  | operator (op : Operator)
  | newline
  | endOfInput
  deriving DecidableEq, Repr

namespace Token.Kind

/-- How messages call a kind: by its spelling where it has only one. -/
def title : Kind → String
  | keyword word => word.word
  | identifier => "identifier"
  | value => "value"
  | equal => "="
  | operator op => op.symbol
  | newline => "newline"
  | endOfInput => "end of input"

/-- The name of a kind in a token's full description. -/
def label : Kind → String
  | keyword .text => "TEXT"
  | keyword .number => "ZAHL"
  | keyword .input => "INPUT"
  | keyword .output => "OUTPUT"
  | identifier => "IDENTIFIER"
  | value => "VALUE"
  | equal => "EQUAL"
  | operator .add => "ADD"
  | operator .sub => "SUB"
  | operator .mul => "MUL"
  | operator .div => "DIV"
  | newline => "NEWLINE"
  | endOfInput => "EOF"

/-- A statement ends at a line feed or at the end of the source. -/
def endsLine : Kind → Bool
  | newline => true
  | endOfInput => true
  | _ => false

end Token.Kind

/-- A word of a program. -/
structure Token where
  kind : Token.Kind
  lexeme : String
  span : Span
  deriving DecidableEq, Repr

namespace Token

/-- A token as an error message names it. -/
def describe (token : Token) : String :=
  match token.kind with
  | .identifier => s!"identifier `{token.lexeme}`"
  | .value => s!"value `{token.lexeme}`"
  | .newline => Kind.newline.title
  | .endOfInput => Kind.endOfInput.title
  | _ => s!"`{token.lexeme}`"

/-- A token with all it holds, unless one of its numbers cannot be written. -/
def inspect (token : Token) : Option String := do
  let line ← Integer.write? token.span.line
  let start ← Integer.write? token.span.start
  let stop ← Integer.write? token.span.stop
  some <| s!"Token({token.kind.label}, {Text.quoted token.lexeme}, line={line}" ++
    s!", {start}..{stop})"

/-- The token moved down by some lines and along by some characters. -/
def shift (token : Token) (lines characters : Int) : Token :=
  { token with span := token.span.shift lines characters }

end Token

end LineScript
