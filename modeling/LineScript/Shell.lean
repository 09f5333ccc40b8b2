import LineScript.Report
import LineScript.Session.Journal

/-!
# The shell

The shell reads command lines and runs each of them as a program in one session. A few words are
commands of the shell itself. A line that fails is reported and the shell goes on; it stops at the
command to do so, at the end of its input, or when the input cannot be read. What the shell prints
itself goes to a console, and no reporter stands between: a print that the console refuses leaves
the shell as a failure.
-/

set_option autoImplicit false

namespace LineScript

/-- What a program leaves behind: the text on its standard output, the text on its error output, and
its status. -/
structure Transcript where
  stdout : String
  stderr : String
  status : Int
  deriving DecidableEq, Repr

/-- A transcript with texts put in front of its outputs. -/
def Transcript.after (rest : Transcript) (stdout stderr : String) : Transcript :=
  ⟨stdout ++ rest.stdout, stderr ++ rest.stderr, rest.status⟩

/-- What a command line asks for. -/
inductive Command where
  | nothing
  | help
  | variables
  | endOfInput
  | exit
  | statement (source : String)
  deriving DecidableEq, Repr

namespace Command

/-- A character of a command's name. -/
def isCommandChar (c : Char) : Bool :=
  c.isAlphanum || c == '_'

/-- The name that a line starts with. -/
def leadingName (line : List Char) : String :=
  String.ofList (line.takeWhile isCommandChar)

/-- The command of a line without white space at its ends. A name is looked at by itself, whatever
follows it. -/
def ofStripped (line : List Char) : Command :=
  match line with
  | [] => .nothing
  | '?' :: _ => .help
  | line =>
    let name := leadingName line
    if name = "help" then .help
    else if name = "vars" then .variables
    else if name = "EOF" then .endOfInput
    else if name = "exit" then .exit
    else .statement (String.ofList line)

/-- The command of a line. -/
def ofLine (line : String) : Command :=
  ofStripped (Text.strip line.toList)

end Command

/-- A session that is used through command lines. The console is how what the shell prints itself is
treated. -/
structure Shell where
  session : Session
  reporter : Reporter
  console : Output.Policy

/-- What a command line does: the shell it leaves, whether the shell is to stop, what the shell and
the reporter print, and the failure that comes out of the shell, if one does. -/
structure Shell.Reply where
  shell : Shell
  stop : Bool
  printed : String
  reported : String
  escaped : Option Failure

namespace Shell

/-- What the shell says first. -/
def intro : String :=
  "red interpreter :: Python backend\nType 'help' for more information.\n"

/-- What the shell says before each command line. -/
def prompt : String := "> "

/-- What a print writes: the text and, apart from it, a line feed. -/
def print (text : String) : List String := [text, "\n"]

/-- The answer to a call for help. -/
def helpText : String :=
  "Welcome to the red interpreter!\n\n" ++
  "Every line is one statement:\n" ++
  "  Text <name> = <words and $variables$>\n" ++
  "  Zahl <name> = <number> + - * / <number> ...   (evaluated strictly left to right)\n" ++
  "  Input <name>\n" ++
  "  Output <name>\n\n" ++
  "Variables are kept until you leave the shell. Type 'vars' to list them, 'exit' to quit."

/-- The line that tells a variable. -/
def variableLine (entry : String × Value) : String :=
  s!"{entry.2.keyword} {entry.1} = {entry.2.render}"

/-- The list of all variables. -/
def listing (space : Namespace) : List String :=
  space.entries.flatMap fun entry => print (variableLine entry)

/-- A shell on a session. Its reporter is not fatal. -/
def start (session : Session) (reporter : Reporter) (console : Output.Policy) : Shell :=
  ⟨session, { reporter with fatal := false }, console⟩

/-- A command of the shell itself writes some texts and maybe stops. A text that is refused is the
last, and then the shell is not told to stop. -/
def say (shell : Shell) (texts : List String) (stop : Bool) : Reply :=
  let (written, refused) := (Output.fresh shell.console).writeAll texts
  ⟨{ shell with console := written.policy }, stop && refused.isNone, written.written, "", refused⟩

/-- Runs a line as a program. -/
def interpret (shell : Shell) (source : String) : Reply :=
  let (session, failure) := shell.session.interpret source
  match failure with
  | none =>
    ⟨⟨session, (shell.reporter.register source).remove, shell.console⟩, false, "", "", none⟩
  | some failure =>
    let reply := (shell.reporter.register source).report failure
    ⟨⟨session, reply.reporter, shell.console⟩, false, "", reply.printed, reply.escaped⟩

/-- Does what a command asks for. -/
def perform (shell : Shell) : Command → Reply
  | .nothing => shell.say [] false
  | .help => shell.say (print helpText) false
  | .variables => shell.say (listing shell.session.space) false
  | .endOfInput => shell.say ["\n"] true
  | .exit => shell.say [] true
  | .statement source => shell.interpret source

/-- Does what a command line asks for. -/
def handle (shell : Shell) (line : String) : Reply :=
  shell.perform (.ofLine line)

/-- The journal of a command line. -/
def entries (shell : Shell) (line : String) : List Journal.Entry :=
  match Command.ofLine line with
  | .statement source => shell.session.interpretEntries source
  | _ => []

/-- A command line never adds to the input. -/
theorem length_events_handle_le (shell : Shell) (line : String) :
    (shell.handle line).shell.session.input.events.length
      ≤ shell.session.input.events.length := by
  simp only [handle]
  generalize Command.ofLine line = command
  cases command with
  | statement source =>
    have h := shell.session.length_events_interpret_le source
    simp only [perform, interpret]
    split <;> exact h
  | _ => simp [perform, say]

/-! ## The loop -/

/-- A command line that was read: without its line feed, and `EOF` at the end of the input. -/
def commandLine (text : String) : String :=
  if text = "" then "EOF" else String.ofList (Text.dropNewline text.toList)

/-- The shell with nothing written, so that what a command line writes can be told. -/
def drained (shell : Shell) : Shell :=
  { shell with
    session := { shell.session with
      output := { shell.session.output with written := "" } } }

/-- The shell with another input. -/
def withInput (shell : Shell) (input : Input) : Shell :=
  { shell with session := { shell.session with input := input } }

/-- What happens between two prompts: the shell that is left, what is added to the two outputs, and
the status with which the shell ends, if it does. -/
structure Turn where
  shell : Shell
  stdout : String
  stderr : String
  status : Option Int

/-- The turn of a text that was read for a command line. A failure that comes out of the shell ends
it, and the reporter around the shell tells it. -/
def turn (shell : Shell) (verbose : Bool) (text : String) : Turn :=
  let line := commandLine text
  let reply := shell.drained.handle line
  let stdout := reply.printed ++ reply.shell.session.output.written
  let stderr := Journal.render verbose (shell.drained.entries line) ++ reply.reported
  match reply.escaped with
  | none => ⟨reply.shell, stdout, stderr, if reply.stop then some 0 else none⟩
  | some failure =>
    let last := reply.shell.reporter.report failure
    ⟨reply.shell, stdout, stderr ++ last.printed, some last.status⟩

/-- A turn never adds to the input. -/
theorem length_events_turn_le (shell : Shell) (verbose : Bool) (text : String) :
    (shell.turn verbose text).shell.session.input.events.length
      ≤ shell.session.input.events.length := by
  have h := length_events_handle_le shell.drained (commandLine text)
  simp only [turn]
  split <;> exact h

/-- The end of the input ends the shell. -/
theorem status_turn_end (shell : Shell) (verbose : Bool) :
    (shell.turn verbose "").status ≠ none := by
  have hhandle : shell.drained.handle (commandLine "") = shell.drained.say ["\n"] true := rfl
  simp only [turn, hhandle]
  cases hescaped : (shell.drained.say ["\n"] true).escaped with
  | some failure => simp
  | none =>
    have hstop : (shell.drained.say ["\n"] true).stop = true := by
      simp only [say] at hescaped ⊢
      rw [hescaped]
      rfl
    simp [hstop]

/-- A turn that does not end the shell leaves less of the input than there was to be read. -/
theorem length_events_turn_lt {shell : Shell} {verbose : Bool} {text : String} {input : Input}
    (hread : shell.session.input.read = (.ok text, input))
    (hstatus : ((shell.withInput input).turn verbose text).status = none) :
    ((shell.withInput input).turn verbose text).shell.session.input.events.length
      < shell.session.input.events.length := by
  have hle := (shell.withInput input).length_events_turn_le verbose text
  have hlength : input.events.length = shell.session.input.events.length - 1 := by
    rw [← shell.session.input.length_events_read, hread]
  have hpos : shell.session.input.events.length ≠ 0 := by
    intro hzero
    rw [Input.read_of_length_zero hzero hread] at hstatus
    exact status_turn_end _ _ hstatus
  have hinput : (shell.withInput input).session.input.events.length = input.events.length := rfl
  omega

/-- Reads command lines and does what they ask for, until one ends the shell. A line that cannot be
read is reported and is the last. -/
def loop (shell : Shell) (verbose : Bool) : Transcript :=
  match hread : shell.session.input.read with
  | (.error failure, _) =>
    let reply := shell.reporter.report failure
    ⟨prompt, reply.printed, reply.status⟩
  | (.ok text, input) =>
    let taken := (shell.withInput input).turn verbose text
    match hstatus : taken.status with
    | some status => ⟨prompt ++ taken.stdout, taken.stderr, status⟩
    | none =>
      have := length_events_turn_lt hread hstatus
      (taken.shell.loop verbose).after (prompt ++ taken.stdout) taken.stderr
termination_by shell.session.input.events.length

end Shell

end LineScript
