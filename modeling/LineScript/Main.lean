import LineScript.CommandLine

/-!
# The program

The outermost layer: it takes the arguments, the files, the clock and the streams of the system, and
hands them to the command line. In a shell every command line is answered before the next one is
read; the line for an `Input` statement is read when the statement is given. A script that has
`Input` statements is given all of the standard input at once.
-/

set_option autoImplicit false

namespace LineScript.Program

open CommandLine

/-- The system's number for an error, which some calls give below zero. -/
def errorNumber (code : UInt32) : Nat :=
  if code < 2147483648 then code.toNat else 4294967296 - code.toNat

/-- The fault of a path that a system error tells. -/
def pathFaultOf (code : UInt32) (words : String) : PathFault :=
  match errorNumber code with
  | 2 => .missing
  | 20 => .notADirectory
  | 21 => .isADirectory
  | 36 => .nameTooLong
  | number => .other number words

/-- The fault of a path that a failed call tells. -/
def pathFault : IO.Error → PathFault
  | .noFileOrDirectory _ code words => pathFaultOf code words
  | .inappropriateType _ code words => pathFaultOf code words
  | .invalidArgument _ code words => pathFaultOf code words
  | .permissionDenied _ code words => pathFaultOf code words
  | .resourceExhausted _ code words => pathFaultOf code words
  | .otherError code words => pathFaultOf code words
  | error => .other 5 error.toString

/-- The bytes of a file. -/
def readFile (path : String) : IO (Except PathFault (List UInt8)) := do
  try
    let bytes ← IO.FS.readBinFile path
    return .ok bytes.toList
  catch error =>
    return .error (pathFault error)

/-- What one read of the standard input brings. -/
def readEvent (stdin : IO.FS.Stream) : IO Input.Event := do
  try
    let line ← stdin.getLine
    return .line (String.ofList (Text.normalizeNewlines line.toList))
  catch error =>
    return .failure (.mishap (.system "OSError" error.toString))

/-- What all reads of the standard input bring. -/
partial def readEvents (stdin : IO.FS.Stream) : IO (List Input.Event) := do
  match ← readEvent stdin with
  | .line "" => return []
  | .line text => return .line text :: (← readEvents stdin)
  | event => return [event]

/-- The time in ticks. -/
def ticks : IO Int := do
  let nanoseconds ← IO.monoNanosNow
  return (nanoseconds * 1048576 / 1000000000 : Nat)

/-- The code of a colour on a terminal. -/
def colourCode : Colour → String
  | .red => "31"
  | .green => "32"
  | .yellow => "33"

/-- The escape sequence of a code. -/
def escape (code : String) : String :=
  String.ofList ['\x1b', '['] ++ code ++ "m"

/-- Painting on a terminal: a text stands between escape sequences that set its style and reset
it. -/
def terminalPaint : Paint where
  apply colour bold text :=
    (if bold then escape "1" else "") ++ escape (colourCode colour) ++ text ++ escape "0"

/-- Reports are coloured on a terminal, unless the environment says otherwise. -/
def paint : IO Paint := do
  if (← IO.getEnv "NO_COLOR").isSome then return .plain
  if (← IO.getEnv "FORCE_COLOR").isSome then return terminalPaint
  if (← IO.getEnv "TERM") = some "dumb" then return .plain
  return if ← (← IO.getStdout).isTty then terminalPaint else .plain

/-- The number of evaluations that can be nested: of a stack of a thousand calls, what is left when
a statement is executed. -/
def room : Nat := 990

/-- Whether a source has statements that read. -/
def reads (source : String) : Bool :=
  match Statement.ofSource source with
  | .ok statements => statements.any fun statement => statement.kind == .inputStatement
  | .error _ => false

/-- Prints a text at once. -/
def say (stream : IO.FS.Stream) (text : String) : IO Unit := do
  stream.putStr text
  stream.flush

/-- A status as the system takes it. -/
def exitCode (status : Int) : UInt32 := UInt32.ofNat status.toNat

/-- Runs the shell. -/
partial def runShell (shell : Shell) (verbose : Bool) : IO UInt32 := do
  let stdin ← IO.getStdin
  let stdout ← IO.getStdout
  let stderr ← IO.getStderr
  say stdout Shell.prompt
  match ← readEvent stdin with
  | .failure failure =>
    let reply := shell.reporter.report failure
    say stderr reply.printed
    return exitCode reply.status
  | .line text =>
    let events ← if reads text then do pure [← readEvent stdin] else pure []
    let taken := (shell.withInput (.ofEvents events)).turn verbose text
    say stdout taken.stdout
    say stderr taken.stderr
    match taken.status with
    | some status => return exitCode status
    | none => runShell taken.shell verbose

/-- Runs a script, with the time read before and after each of its stages. -/
def runFile (options : Options) (path : String) : IO UInt32 := do
  let start ← ticks
  let readStart ← ticks
  let bytes ← readFile path
  let opener : Opener := fun _ => bytes
  let script ← IO.lazyPure fun _ => readScript opener knownCodecs path options.encoding
  let source := String.ofList (script.toOption.getD [])
  let readStop ← ticks
  let events ← if reads source then readEvents (← IO.getStdin) else pure []
  let scanStart ← ticks
  let tokens ← IO.lazyPure fun _ => Token.scan source
  let scanStop ← ticks
  let parseStart ← ticks
  let _ ← IO.lazyPure fun _ => Statement.parse (tokens.toOption.getD [])
  let parseStop ← ticks
  let runStart ← ticks
  let run ← IO.lazyPure fun _ =>
    runScript opener knownCodecs path options.encoding (.ofEvents events) room
  let stop ← ticks
  let clock : Clock :=
    ⟨[start, readStart, readStop, scanStart, scanStop, parseStart, parseStop, runStart, stop]⟩
  let transcript := scriptTranscript (← paint) options clock run
  say (← IO.getStdout) transcript.stdout
  say (← IO.getStderr) transcript.stderr
  return exitCode transcript.status

end LineScript.Program

open LineScript LineScript.CommandLine in
/-- Runs a script, or a shell when no script is given. -/
def main (arguments : List String) : IO UInt32 := do
  match Request.ofArguments arguments with
  | .error fault =>
    Program.say (← IO.getStderr) fault.report
    return 2
  | .ok .help =>
    Program.say (← IO.getStdout) helpText
    return 0
  | .ok (.run options) =>
    match options.file with
    | some path => Program.runFile options path
    | none =>
      Program.say (← IO.getStdout) Shell.intro
      let session := Session.fresh .empty (.fresh .unlimited) Program.room
      let shell := Shell.start session (.fresh (← Program.paint) true) .unlimited
      Program.runShell shell options.verbose
