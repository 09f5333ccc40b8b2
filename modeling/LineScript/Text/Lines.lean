/-!
# Lines of a text

A program and its input are texts made of lines, and a line ends at a line feed. `lines` cuts a
text at its line feeds and drops them; `terminatedLines` cuts after each line feed and keeps it,
which is how an input is read. `normalizeNewlines` turns the two other ways to end a line, a
carriage return with or without a line feed after it, into a line feed.
-/

set_option autoImplicit false

namespace LineScript.Text

/-- The pieces of a text between its line feeds: one more than it has line feeds. -/
def lines : List Char → List (List Char)
  | [] => [[]]
  | c :: cs =>
    if c = '\n' then [] :: lines cs
    else
      match lines cs with
      | [] => [[c]]
      | line :: more => (c :: line) :: more

/-- The lines of a text, each with the line feed that ends it. What follows the last line feed is a
line of its own unless it is empty. -/
def terminatedLines : List Char → List (List Char)
  | [] => []
  | c :: cs =>
    if c = '\n' then ['\n'] :: terminatedLines cs
    else
      match terminatedLines cs with
      | [] => [[c]]
      | line :: more => (c :: line) :: more

/-- A text with every carriage return, and the line feed after it if there is one, turned into one
line feed. -/
def normalizeNewlines : List Char → List Char
  | [] => []
  | '\r' :: '\n' :: cs => '\n' :: normalizeNewlines cs
  | c :: cs => (if c = '\r' then '\n' else c) :: normalizeNewlines cs

/-- A line without the line feed at its end. -/
def dropNewline (line : List Char) : List Char :=
  if line.getLast? = some '\n' then line.dropLast else line

/-- A line without its end: a line feed, together with one carriage return right before it. -/
def dropLineEnd (line : List Char) : List Char :=
  if line.getLast? = some '\n' then
    if line.dropLast.getLast? = some '\r' then line.dropLast.dropLast else line.dropLast
  else line

theorem lines_ne_nil (cs : List Char) : lines cs ≠ [] := by
  cases cs with
  | nil => simp [lines]
  | cons c cs =>
    simp only [lines]
    split
    · simp
    · split <;> simp

/-- Nothing is lost when a text is read line by line. -/
theorem flatten_terminatedLines (cs : List Char) : (terminatedLines cs).flatten = cs := by
  induction cs with
  | nil => rfl
  | cons c cs ih =>
    simp only [terminatedLines]
    split
    · next h => simp [ih, h]
    · split <;> next h => simp_all

end LineScript.Text
