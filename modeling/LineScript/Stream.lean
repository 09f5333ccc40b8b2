import LineScript.Failure
import LineScript.Text.Encoding

/-!
# Streams

A session reads lines from an `Input` and writes texts to an `Output`. An input is the sequence of
what its reads will bring: a line with its line end, an empty text where the input is at its end, or
a failure; when the sequence is used up, every further read brings the end of the input, or the same
failure again and again. An output keeps what was written to it. Each of its writes is accepted as a
whole or refused as a whole, by an encoding that lacks a character or by a failure that was planned
for it.
-/

set_option autoImplicit false

namespace LineScript

/-- What a read brings. -/
inductive Input.Event where
  | line (text : String)
  | failure (failure : Failure)
  deriving DecidableEq, Repr

/-- A source of lines: what its reads bring one after the other, and the failure that every read
after them brings, if it is not the end of the input. -/
structure Input where
  events : List Input.Event
  failing : Option Failure
  deriving DecidableEq, Repr

namespace Input

/-- The input that is at its end. -/
def empty : Input := ⟨[], none⟩

/-- The input with the given events and then its end. -/
def ofEvents (events : List Event) : Input := ⟨events, none⟩

/-- A line as an event. -/
def lineEvent (line : List Char) : Event := .line (String.ofList line)

/-- The input that brings the lines of a text. -/
def ofText (text : List Char) : Input :=
  ofEvents ((Text.terminatedLines text).map lineEvent)

/-- Reads once. The empty text stands for the end of the input. -/
def read (input : Input) : Except Failure String × Input :=
  match input.events, input.failing with
  | [], none => (.ok "", input)
  | [], some failure => (.error failure, input)
  | .line text :: events, failing => (.ok text, ⟨events, failing⟩)
  | .failure failure :: events, failing => (.error failure, ⟨events, failing⟩)

/-- A read uses up what it brings. -/
theorem length_events_read (input : Input) :
    input.read.2.events.length = input.events.length - 1 := by
  obtain ⟨events, failing⟩ := input
  cases events with
  | nil => cases failing <;> rfl
  | cons event events => cases event <;> rfl

/-- A read of nothing brings no line. -/
theorem read_of_length_zero {input after : Input} {text : String}
    (hzero : input.events.length = 0) (h : input.read = (.ok text, after)) : text = "" := by
  obtain ⟨events, failing⟩ := input
  obtain rfl : events = [] := List.eq_nil_of_length_eq_zero hzero
  cases failing with
  | none => exact (Except.ok.inj (Prod.mk.inj h).1).symm
  | some failure => simp [read] at h

end Input

/-- How an output treats writes. -/
inductive Output.Policy where
  /-- Everything is accepted. -/
  | unlimited
  /-- A text is refused when the encoding lacks one of its characters. -/
  | encoded (encoding : Text.Encoding)
  /-- Each write has its own plan: it is accepted or fails as planned. Writes beyond the plan are
  accepted. -/
  | planned (plan : List (Option Failure))
  deriving DecidableEq, Repr

/-- The mishap of a text that cannot be written. -/
def Text.EncodeFault.mishap (fault : Text.EncodeFault) : Mishap :=
  .unencodable "UnicodeEncodeError" fault.message

/-- A sink for texts. -/
structure Output where
  written : String
  policy : Output.Policy
  deriving DecidableEq, Repr

namespace Output

/-- An output to which nothing was written yet. -/
def fresh (policy : Policy) : Output := ⟨"", policy⟩

/-- Writes a text, or fails and writes nothing. -/
def write (output : Output) (text : String) : Output × Option Failure :=
  match output.policy with
  | .unlimited => ({ output with written := output.written ++ text }, none)
  | .encoded encoding =>
    match encoding.encodeFault? text.toList with
    | none => ({ output with written := output.written ++ text }, none)
    | some fault => (output, some (.mishap fault.mishap))
  | .planned [] => ({ output with written := output.written ++ text }, none)
  | .planned (none :: plan) => (⟨output.written ++ text, .planned plan⟩, none)
  | .planned (some failure :: plan) => (⟨output.written, .planned plan⟩, some failure)

/-- Writes texts one after the other, up to the first that is refused. -/
def writeAll (output : Output) : List String → Output × Option Failure
  | [] => (output, none)
  | text :: rest =>
    match output.write text with
    | (after, none) => after.writeAll rest
    | (after, some failure) => (after, some failure)

end Output

end LineScript
