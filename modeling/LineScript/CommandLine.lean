import LineScript.CommandLine.Options
import LineScript.CommandLine.Script
import LineScript.Shell

/-!
# The command line

With a file the program runs a script and reports the failure that ends it, with status one. With
timings, every stage of the script that comes to its end tells how long it took, and so does the
whole. Without a file the program is a shell. What the program is run on, its `System`, is left
open.
-/

set_option autoImplicit false

namespace LineScript.CommandLine

/-- What the program is run on: how reports are painted, how files are come by, what encodings there
are, and how many evaluations can be nested. -/
structure System where
  paint : Paint
  opener : Opener
  codecs : Codecs
  room : Nat

/-- The journal of stages by a clock, which is read before each stage and, with timings, after each
that came to its end. -/
def stageEntries (timings : Bool) : Clock → List Stage → Clock × List Journal.Entry
  | clock, [] => (clock, [])
  | clock, stage :: rest =>
    let (start, running) := clock.read
    if timings && stage.done then
      let (stop, stopped) := running.read
      let (clock, more) := stageEntries timings stopped rest
      (clock, stage.entries ++ .took stage.task (Duration.between start stop) :: more)
    else
      let (clock, more) := stageEntries timings running rest
      (clock, stage.entries ++ more)

/-- The journal of a script. With timings, a script that came to its end also tells the time of all
stages together. -/
def scriptEntries (timings : Bool) (clock : Clock) (run : ScriptRun) : List Journal.Entry :=
  let (start, running) := clock.read
  let (stopped, entries) := stageEntries timings running run.stages
  if timings && run.failure.isNone then
    entries ++ [.took "Overall Execution" (Duration.between start stopped.read.1)]
  else entries

/-- A reporter of a script. -/
def scriptReporter (paint : Paint) (source : Option String) : Reporter :=
  ⟨paint, true, source⟩

/-- What a script leaves behind. -/
def scriptTranscript (paint : Paint) (options : Options) (clock : Clock) (run : ScriptRun) :
    Transcript :=
  let reply := (scriptReporter paint run.source).conclude run.failure
  ⟨run.session.output.written,
    Journal.render options.verbose (scriptEntries options.timings clock run) ++ reply.printed,
    reply.status⟩

/-- What a shell leaves behind. -/
def shellTranscript (system : System) (options : Options) (input : Input) : Transcript :=
  let session := Session.fresh input (.fresh .unlimited) system.room
  let shell := Shell.start session (.fresh system.paint true) .unlimited
  (shell.loop options.verbose).after Shell.intro ""

/-- Runs the program with arguments. -/
def run (system : System) (arguments : List String) (input : Input) (clock : Clock) : Transcript :=
  match Request.ofArguments arguments with
  | .error fault => ⟨"", fault.report, 2⟩
  | .ok .help => ⟨helpText, "", 0⟩
  | .ok (.run options) =>
    match options.file with
    | some path =>
      scriptTranscript system.paint options clock
        (runScript system.opener system.codecs path options.encoding input system.room)
    | none => shellTranscript system options input

end LineScript.CommandLine
