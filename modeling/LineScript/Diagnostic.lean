import LineScript.Integer
import LineScript.Text.Quoted

/-!
# Spans and diagnostics

A span says which characters of a source something came from: the line they stand on, counted from
one, and the offsets of the first character and of the one after the last, counted in characters
from the start of the source. A diagnostic is a message about a program, with the span it is about.
Its kind says which stage found the error; a diagnostic about no source is of the general kind and
has line zero.
-/

set_option autoImplicit false

namespace LineScript

/-- A stretch of a source. -/
structure Span where
  line : Int
  start : Int
  stop : Int
  deriving DecidableEq, Repr

namespace Span

/-- The span of nothing in particular. -/
def zero : Span := ⟨0, 0, 0⟩

/-- From the start of one span to the end of another, on the line of the first. -/
def upTo (first last : Span) : Span := ⟨first.line, first.start, last.stop⟩

/-- The one of two spans that reaches further, the first if they end together. -/
def further (a b : Span) : Span := if a.stop < b.stop then b else a

/-- The span moved down by some lines and along by some characters. -/
def shift (span : Span) (lines characters : Int) : Span :=
  ⟨span.line + lines, span.start + characters, span.stop + characters⟩

end Span

/-- Something that came from a stretch of a source. -/
structure Located (α : Type) where
  item : α
  span : Span
  deriving DecidableEq, Repr

/-- The stage that found an error. -/
inductive Diagnostic.Kind where
  | general
  | lexical
  | syntactic
  | execution
  deriving DecidableEq, Repr

namespace Diagnostic.Kind

/-- The words a report starts with. -/
def title : Kind → String
  | general => "error"
  | lexical => "lexical error"
  | syntactic => "syntax error"
  | execution => "runtime error"

/-- The name of a kind in a diagnostic's full description. -/
def label : Kind → String
  | general => "Diagnostic"
  | lexical => "LexError"
  | syntactic => "ParseError"
  | execution => "ExecutionError"

end Diagnostic.Kind

/-- A message about a stretch of source. -/
structure Diagnostic where
  kind : Diagnostic.Kind
  message : String
  span : Span
  deriving DecidableEq, Repr

/-- A diagnostic with all it holds, unless one of its numbers cannot be written. -/
def Diagnostic.inspect (diagnostic : Diagnostic) : Option String := do
  let line ← Integer.write? diagnostic.span.line
  let start ← Integer.write? diagnostic.span.start
  let stop ← Integer.write? diagnostic.span.stop
  some <| s!"{diagnostic.kind.label}({Text.quoted diagnostic.message}, " ++
    s!"line={line}, start={start}, end={stop})"

end LineScript
