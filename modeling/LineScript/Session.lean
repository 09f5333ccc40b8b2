import LineScript.Stream
import LineScript.Tree.Evaluate

/-!
# Sessions

A session is a namespace with an input and an output, and with the room that there is for nested
evaluations. Statements are executed in order, and the first that fails ends the run; what the
statements before it did stays done. An operation that can fail gives the session it leaves behind
together with the failure, if there is one.
-/

set_option autoImplicit false

namespace LineScript

/-- The variables of a program, the streams it talks to, and the number of evaluations that can be
nested. -/
structure Session where
  space : Namespace
  input : Input
  output : Output
  room : Nat
  deriving DecidableEq, Repr

namespace Session

/-- A session without variables. -/
def fresh (input : Input) (output : Output) (room : Nat) : Session := ⟨.empty, input, output, room⟩

/-- Sets a variable. -/
def set (session : Session) (name : String) (value : Value) : Session :=
  { session with space := session.space.set name value }

/-- Sets a target to a value, or fails if there is no value or no name to set. The value comes
first. -/
def assign (session : Session) (target : Target) (value : Except Failure Value) :
    Session × Option Failure :=
  match value with
  | .error failure => (session, some failure)
  | .ok value =>
    match target.name with
    | .error failure => (session, some failure)
    | .ok name => (session.set name value, none)

/-- A stream's failure as the statement that used the stream tells it: what `cause` says of the name
and the reason, or the failure itself. -/
def tell (target : Target) (cause : String → String → ExecutionFault) : Failure → Failure
  | .mishap mishap =>
    -- A mishap that is none of the stream's own, such as a missing key, goes through unchanged.
    if mishap.isStreamTrouble then target.blame fun name => cause name mishap.text
    else .mishap mishap
  | failure => failure

/-- The value of a line that was read for a target. -/
def received (target : Target) : Except Failure String → Except Failure Value
  | .error failure => .error (tell target .unreadable failure)
  | .ok line =>
    if line = "" then .error (target.blame .inputEnds)
    else .ok (.text (String.ofList (Text.dropLineEnd line.toList)))

/-- Reads a line into a target. -/
def readInto (session : Session) (target : Target) : Session × Option Failure :=
  let (line, input) := session.input.read
  assign { session with input := input } target (received target line)

/-- Writes a text and a line feed for a target. -/
def writeLine (session : Session) (target : Target) (text : String) :
    Session × Option Failure :=
  let (output, failure) := session.output.write (text ++ "\n")
  ({ session with output := output }, failure.map (tell target .unwritable))

/-- The value of the variable that a target names. -/
def valueOf (session : Session) (target : Target) : Except Failure Value := do
  let name ← target.name
  session.space.lookup name target.span

/-- Executes a statement. -/
def execute (session : Session) : Statement → Session × Option Failure
  | .text _ target value =>
    session.assign target ((value.eval session.space session.room).map Value.text)
  | .number _ target value =>
    session.assign target ((value.eval session.space session.room).map Value.number)
  | .input _ target => session.readInto target
  | .output _ target =>
    match session.valueOf target with
    | .ok value => session.writeLine target value.render
    | .error failure => (session, some failure)
  | .misplaced span kind => (session, some (.blame (.notExecutable kind) span))

/-- Executes statements in order, up to the first that fails. -/
def run (session : Session) : List Statement → Session × Option Failure
  | [] => (session, none)
  | statement :: rest =>
    match session.execute statement with
    | (after, none) => after.run rest
    | (after, some failure) => (after, some failure)

/-- Runs a source. Nothing of it is executed unless all of it is a program. -/
def interpret (session : Session) (source : String) : Session × Option Failure :=
  match Statement.ofSource source with
  | .ok statements => session.run statements
  | .error failure => (session, some failure)

/-! ## What a run leaves of the input -/

theorem input_assign (session : Session) (target : Target) (value : Except Failure Value) :
    (session.assign target value).1.input = session.input := by
  simp only [assign]
  split
  · rfl
  · split <;> rfl

theorem length_events_execute_le (session : Session) (statement : Statement) :
    (session.execute statement).1.input.events.length ≤ session.input.events.length := by
  cases statement with
  | text _ _ _ => simp [execute, input_assign]
  | number _ _ _ => simp [execute, input_assign]
  | input _ target => simp [execute, readInto, input_assign, Input.length_events_read]
  | output _ target =>
    simp only [execute]
    split <;> simp [writeLine]
  | misplaced _ _ => simp [execute]

theorem length_events_run_le (session : Session) (statements : List Statement) :
    (session.run statements).1.input.events.length ≤ session.input.events.length := by
  induction statements generalizing session with
  | nil => simp [run]
  | cons statement rest ih =>
    have hstep := session.length_events_execute_le statement
    simp only [run]
    split
    · next after heq =>
      rw [heq] at hstep
      exact Nat.le_trans (ih after) hstep
    · next after failure heq =>
      rw [heq] at hstep
      exact hstep

/-- A run never adds to the input. -/
theorem length_events_interpret_le (session : Session) (source : String) :
    (session.interpret source).1.input.events.length ≤ session.input.events.length := by
  simp only [interpret]
  split
  · exact session.length_events_run_le _
  · simp

end Session

end LineScript
