import LineScript.Diagnostic
import LineScript.Text.Lines

/-!
# Excerpts

An excerpt shows the line of a source that a diagnostic is about, with its span underlined. The span
may be anything: a start before the line is taken as a column of the line, and the columns shown are
kept inside of the line, or just past its end. Parts of an excerpt are painted; how that is done is
left open.
-/

set_option autoImplicit false

namespace LineScript

/-- The colours of reports. -/
inductive Colour where
  | red
  | green
  | yellow
  deriving DecidableEq, Repr

/-- How a text is shown in a colour, in bold or not. -/
structure Paint where
  apply : Colour → Bool → String → String

namespace Paint

/-- Nothing is painted. -/
def plain : Paint := ⟨fun _ _ text => text⟩

/-- A text in a colour. -/
def light (paint : Paint) (colour : Colour) (text : String) : String :=
  paint.apply colour false text

/-- A text in a colour and in bold. -/
def bold (paint : Paint) (colour : Colour) (text : String) : String :=
  paint.apply colour true text

end Paint

/-- A line of a source and the columns of a span on it. -/
structure Excerpt where
  text : List Char
  start : Nat
  stop : Nat
  deriving DecidableEq, Repr

namespace Excerpt

/-- The offset at which the line after the given ones starts. -/
def offsetAfter : List (List Char) → Nat
  | [] => 0
  | line :: more => line.length + 1 + offsetAfter more

/-- The columns of a span on a line that starts at an offset and has a length. -/
def columns (offset length : Nat) (start stop : Int) : Nat × Nat :=
  let column := if (offset : Int) ≤ start then start - offset else start
  -- The start stays on the line, and the stop may go one column past it, where a line feed is.
  let first := min (max column 0) length
  let last := min (max (first + (stop - start)) first) (length + 1)
  (first.toNat, last.toNat)

/-- The line that a span is on and its columns there, unless the source has no such line. -/
def locate (source : String) (span : Span) : Option Excerpt :=
  let lines := Text.lines source.toList
  if 1 ≤ span.line then
    let index := (span.line - 1).toNat
    match lines[index]? with
    | none => none
    | some text =>
      let (start, stop) :=
        columns (offsetAfter (lines.take index)) text.length span.start span.stop
      some ⟨text, start, stop⟩
  else none

/-- Some spaces. -/
def spaces (count : Nat) : String :=
  String.ofList (List.replicate count ' ')

/-- An underline: a caret and tildes. It is never empty. -/
def underline (width : Nat) : String :=
  String.ofList ('^' :: List.replicate (width - 1) '~')

/-- Shows an excerpt with the number of its line and a message. -/
def render (paint : Paint) (excerpt : Excerpt) (number message : String) : String :=
  let gutter := spaces number.length
  let stop := max excerpt.stop (excerpt.start + 1)
  let before := excerpt.text.take excerpt.start
  let marked := (excerpt.text.take stop).drop excerpt.start
  let after := excerpt.text.drop stop
  gutter ++ " |\n" ++
    paint.light .yellow number ++ " | " ++
    paint.light .green (String.ofList before) ++
    paint.bold .red (String.ofList marked) ++
    String.ofList after ++ "\n" ++
    gutter ++ " | " ++ spaces excerpt.start ++
    paint.bold .red (underline (stop - excerpt.start)) ++ " " ++
    paint.light .red message

end Excerpt

/-- Shows the line of a source that a diagnostic is about, or only its number. A number that cannot
be written cannot be shown in either way. -/
def Diagnostic.excerpt (diagnostic : Diagnostic) (paint : Paint) (source : String) :
    Option String := do
  let number ← Integer.write? diagnostic.span.line
  match Excerpt.locate source diagnostic.span with
  | none => some s!"  on line {number}"
  | some excerpt => some (excerpt.render paint number diagnostic.message)

end LineScript
