import LineScript.Proofs.CommandLine.Script
import LineScript.Proofs.Session.Aborted
import LineScript.Proofs.Session.Reachable
import LineScript.Proofs.Session.Received
import LineScript.Proofs.Shell.Feed

/-!
# A shell and its input

Without a file the program is a shell whose command lines and `Input` statements take turns at one
input. A command line holds no line feed, so it holds at most one statement, and takes no line of
the input for itself but the one it was read from, plus one if its statement is an `Input` and there
is a line left (`Takes`). A `Dialogue` is a whole run: a round for each command line, in the session
that the round before left, up to the round that leaves the shell. Main statement:
`CommandLine.run_shell`, every input leads to a dialogue that uses up the lines from the first on
and ends with status zero.
-/

set_option autoImplicit false

namespace LineScript

open Text

/-! ## What was written before -/

/-- The session with a text in front of all that it has written. -/
def Session.headed (session : Session) (text : String) : Session :=
  { session with output := { session.output with written := text ++ session.output.written } }

theorem Output.write_headed (output : Output) (front text : String) :
    Output.write { output with written := front ++ output.written } text =
      ({ (output.write text).1 with written := front ++ (output.write text).1.written },
        (output.write text).2) := by
  obtain ⟨written, policy⟩ := output
  cases policy with
  | unlimited => simp only [write, String.append_assoc]
  | encoded encoding =>
    simp only [write]
    split <;> simp only [String.append_assoc]
  | planned plan =>
    cases plan with
    | nil => simp only [write, String.append_assoc]
    | cons next plan => cases next <;> simp only [write, String.append_assoc]

namespace Session

theorem assign_headed (session : Session) (text : String) (target : Target)
    (value : Except Failure Value) :
    (session.headed text).assign target value =
      ((session.assign target value).1.headed text, (session.assign target value).2) := by
  cases value with
  | error failure => rfl
  | ok value => cases target <;> rfl

/-- No statement looks at what was written before. -/
theorem execute_headed (session : Session) (text : String) (statement : Statement) :
    (session.headed text).execute statement =
      ((session.execute statement).1.headed text, (session.execute statement).2) := by
  cases statement with
  | text span target value => exact session.assign_headed text target _
  | number span target value => exact session.assign_headed text target _
  | input span target => exact assign_headed { session with input := _ } text target _
  | output span target =>
    have hvalue : (session.headed text).valueOf target = session.valueOf target := rfl
    simp only [execute, hvalue]
    cases session.valueOf target with
    | error failure => rfl
    | ok value =>
      simp only [writeLine, headed, Output.write_headed]
  | misplaced span kind => rfl

theorem run_headed (session : Session) (text : String) (statements : List Statement) :
    (session.headed text).run statements =
      ((session.run statements).1.headed text, (session.run statements).2) := by
  induction statements generalizing session with
  | nil => rfl
  | cons statement rest ih =>
    simp only [run, execute_headed]
    generalize session.execute statement = ended
    obtain ⟨after, failure⟩ := ended
    cases failure with
    | none => exact ih after
    | some failure => rfl

theorem attempted_headed (session : Session) (text : String) (statements : List Statement) :
    (session.headed text).attempted statements = session.attempted statements := by
  induction statements generalizing session with
  | nil => rfl
  | cons statement rest ih =>
    simp only [attempted, execute_headed]
    generalize session.execute statement = ended
    obtain ⟨after, failure⟩ := ended
    cases failure with
    | none => exact congrArg (statement :: ·) (ih after)
    | some failure => rfl

theorem interpret_headed (session : Session) (text : String) (source : String) :
    (session.headed text).interpret source =
      ((session.interpret source).1.headed text, (session.interpret source).2) := by
  simp only [interpret]
  split
  · exact session.run_headed text _
  · rfl

theorem interpretEntries_headed (session : Session) (text : String) (source : String) :
    (session.headed text).interpretEntries source = session.interpretEntries source := by
  simp only [interpretEntries, runEntries, attempted_headed]

end Session

namespace Shell

/-- The shell with a text in front of all that its session has written. -/
def headed (shell : Shell) (text : String) : Shell :=
  { shell with session := shell.session.headed text }

/-- A drained shell has only forgotten what was written. -/
theorem headed_drained (shell : Shell) :
    shell.drained.headed shell.session.output.written = shell := by
  simp only [headed, Session.headed, drained, String.append_empty]

theorem drained_headed (shell : Shell) (text : String) :
    (shell.headed text).drained = shell.drained := rfl

theorem handle_headed (shell : Shell) (text line : String) :
    (shell.headed text).handle line =
      { shell.handle line with shell := (shell.handle line).shell.headed text } := by
  simp only [handle]
  cases Command.ofLine line with
  | statement source =>
    have hinterpret := shell.session.interpret_headed text source
    simp only [perform, interpret, headed, hinterpret]
    cases (shell.session.interpret source).2 <;> rfl
  | _ => rfl

theorem entries_headed (shell : Shell) (text line : String) :
    (shell.headed text).entries line = shell.entries line := by
  simp only [entries]
  cases Command.ofLine line with
  | statement source => exact shell.session.interpretEntries_headed text source
  | _ => rfl

/-- What a command line adds to the text that the session has written. -/
def wrote (shell : Shell) (line : String) : String :=
  (shell.drained.handle line).shell.session.output.written

theorem handle_eq_drained (shell : Shell) (line : String) :
    shell.handle line =
      { shell.drained.handle line with
        shell := (shell.drained.handle line).shell.headed shell.session.output.written } := by
  rw [← handle_headed, headed_drained]

theorem written_handle (shell : Shell) (line : String) :
    (shell.handle line).shell.session.output.written =
      shell.session.output.written ++ shell.wrote line := by
  rw [handle_eq_drained]
  rfl

/-- A turn that no failure comes out of is made of the reply to the command line and what the
command line wrote. -/
theorem turn_eq {shell : Shell} {text : String}
    (hescaped : (shell.handle (commandLine text)).escaped = none) (verbose : Bool) :
    shell.turn verbose text =
      ⟨(shell.drained.handle (commandLine text)).shell,
        (shell.handle (commandLine text)).printed ++ shell.wrote (commandLine text),
        Journal.render verbose (shell.entries (commandLine text)) ++
          (shell.handle (commandLine text)).reported,
        if (shell.handle (commandLine text)).stop then some 0 else none⟩ := by
  have hentries := shell.drained.entries_headed shell.session.output.written (commandLine text)
  rw [headed_drained] at hentries
  rw [handle_eq_drained shell] at hescaped ⊢
  rw [turn, hentries]
  simp only at hescaped
  simp only [hescaped]
  rfl

/-- The loop without the proofs that its recursion needs. -/
theorem loop_eq (shell : Shell) (verbose : Bool) :
    shell.loop verbose =
      (match shell.session.input.read with
      | (.error failure, _) =>
        ⟨prompt, (shell.reporter.report failure).printed,
          (shell.reporter.report failure).status⟩
      | (.ok text, input) =>
        let taken := (shell.withInput input).turn verbose text
        match taken.status with
        | some status => ⟨prompt ++ taken.stdout, taken.stderr, status⟩
        | none => (taken.shell.loop verbose).after (prompt ++ taken.stdout) taken.stderr) := by
  rw [loop]
  split
  · next failure input hread => rw [hread]
  · next text input hread =>
    simp only [hread]
    split
    · next status hstatus => rw [hstatus]
    · next hstatus => rw [hstatus]

/-- The loop does not look at what was written before. -/
theorem loop_congr {shell other : Shell} (h : shell.drained = other.drained) (verbose : Bool) :
    shell.loop verbose = other.loop verbose := by
  have hinput : shell.session.input = other.session.input := by
    change shell.drained.session.input = other.drained.session.input
    rw [h]
  have hreporter : shell.reporter = other.reporter := by
    change shell.drained.reporter = other.drained.reporter
    rw [h]
  have hturn : ∀ input text, (shell.withInput input).turn verbose text =
      (other.withInput input).turn verbose text := by
    intro input text
    have hdrained : (shell.withInput input).drained = (other.withInput input).drained :=
      congrArg (fun drained : Shell => drained.withInput input) h
    simp only [turn, hdrained]
  rw [loop_eq, loop_eq other, hinput, hreporter]
  simp only [hturn]

end Shell

/-! ## Command lines -/

namespace Command

/-- A command line that leaves the shell: the name it starts with, after the white space at its
front, is `exit` or `EOF`. -/
def Leaves (line : String) : Prop :=
  leadingName (strip line.toList) = "exit" ∨ leadingName (strip line.toList) = "EOF"

instance (line : String) : Decidable (Leaves line) :=
  inferInstanceAs (Decidable (_ ∨ _))

/-- A command line leaves the shell exactly if it is one of the two commands to do so. -/
theorem leaves_iff (line : String) :
    Leaves line ↔ ofLine line = .exit ∨ ofLine line = .endOfInput := by
  simp only [Leaves, ofLine]
  generalize strip line.toList = stripped
  rw [ofStripped.eq_def]
  split
  · simp [leadingName]
  · simp [leadingName, isCommandChar]
  · simp only
    split_ifs <;> simp_all

/-- A statement is run without the white space around it. -/
theorem eq_stripped_of_ofLine {line source : String} (h : ofLine line = .statement source) :
    source = stripped line := by
  simp only [ofLine, ofStripped] at h
  split at h
  · cases h
  · cases h
  · split_ifs at h
    cases h
    rfl

/-- The statements of a command line. It has none if it is a command of the shell itself or no
program. -/
def program (line : String) : List Statement :=
  match ofLine line with
  | .statement source =>
    match Statement.ofSource source with
    | .ok statements => statements
    | .error _ => []
  | _ => []

/-- A command line with a statement is a program without the white space around it. -/
theorem of_program_eq_cons {line : String} {statement : Statement} {rest : List Statement}
    (h : program line = statement :: rest) :
    ofLine line = .statement (stripped line) ∧
      Statement.ofSource (stripped line) = .ok (statement :: rest) := by
  simp only [program] at h
  split at h
  · next source hcommand =>
    obtain rfl := eq_stripped_of_ofLine hcommand
    split at h
    · next statements hsource => exact ⟨hcommand, h ▸ hsource⟩
    · cases h
  · cases h

/-- A command line without line feeds has at most one statement. -/
theorem exists_program_eq {line : String} (hfree : '\n' ∉ line.toList) :
    ∃ found : Option Statement, program line = found.toList := by
  cases hprogram : program line with
  | nil => exact ⟨none, rfl⟩
  | cons statement rest =>
    obtain ⟨-, hsource⟩ := of_program_eq_cons hprogram
    obtain ⟨tokens, htree⟩ := ofSource_eq_ok_iff.1 hsource
    rw [stripped, String.toList_ofList, lines_of_not_mem (newline_not_mem_strip hfree)] at htree
    generalize hstatements : statement :: rest = statements at htree
    cases htree with
    | last hcut hfound => exact ⟨_, rfl⟩
    | more hcut hfound hmore => cases hmore

end Command

namespace Session

theorem attempted_singleton (session : Session) (statement : Statement) :
    session.attempted [statement] = [statement] := by
  simp only [attempted]
  split <;> rfl

/-- A run reads once for each `Input` that it executes, whether it ends well or not. -/
theorem input_run_attempted (session : Session) (statements : List Statement) :
    (session.run statements).1.input =
      session.input.afterReads ((session.attempted statements).countP Statement.takesLine) := by
  induction statements generalizing session with
  | nil => rfl
  | cons statement rest ih =>
    have hstep := session.input_execute statement
    simp only [run, attempted]
    generalize session.execute statement = ended at hstep
    obtain ⟨after, failure⟩ := ended
    cases failure with
    | none =>
      simp only at hstep ⊢
      rw [ih, hstep, ← Input.afterReads_add, List.countP_cons, Nat.add_comm]
      cases statement.takesLine <;> rfl
    | some failure =>
      simp only at hstep ⊢
      rw [hstep, List.countP_singleton]
      cases statement.takesLine <;> rfl

/-- An output that accepts everything goes on doing so. -/
theorem policy_execute {session : Session} (h : session.output.policy = .unlimited)
    (statement : Statement) : (session.execute statement).1.output.policy = .unlimited := by
  cases statement with
  | text span target value => rw [execute, output_assign, h]
  | number span target value => rw [execute, output_assign, h]
  | input span target => rw [execute, readInto, output_assign, h]
  | output span target =>
    simp only [execute]
    split
    · simp only [writeLine, Output.write, h]
    · exact h
  | misplaced span kind => exact h

theorem policy_run {session : Session} (h : session.output.policy = .unlimited)
    (statements : List Statement) : (session.run statements).1.output.policy = .unlimited := by
  induction statements generalizing session with
  | nil => exact h
  | cons statement rest ih =>
    have hstep := policy_execute h statement
    simp only [run]
    generalize session.execute statement = ended at hstep
    obtain ⟨after, failure⟩ := ended
    cases failure with
    | none => exact ih hstep
    | some failure => exact hstep

end Session

/-! ## What a command line takes from the input -/

namespace Shell

/-- The statements that a command line executes. Only the last of them may fail. -/
def executed (shell : Shell) (line : String) : List Statement :=
  shell.session.attempted (Command.program line)

/-- A command line leaves the session that its statements leave. -/
theorem session_handle (shell : Shell) (line : String) :
    (shell.handle line).shell.session = (shell.session.run (Command.program line)).1 := by
  simp only [handle, Command.program]
  cases Command.ofLine line with
  | statement source =>
    have hsession : (shell.interpret source).shell.session =
        (shell.session.interpret source).1 := by
      simp only [interpret]
      split <;> rfl
    simp only [perform, hsession, Session.interpret]
    cases Statement.ofSource source <;> rfl
  | _ => rfl

/-- A shell that goes on after failures, with nothing to come from its streams but lines, and that
can print. -/
structure Awaits (shell : Shell) (lines : List (List Char)) : Prop where
  input_eq : shell.session.input = .ofLines lines
  policy_eq : shell.session.output.policy = .unlimited
  fatal_eq : shell.reporter.fatal = false
  console_eq : shell.console = .unlimited

/-- What a command line takes from the lines that are left, and what it leaves of them. If it
executes no `Input`, it takes nothing. Else it executes one `Input` and nothing more: that takes the
next line, or it is reported that there is none, and the session stays as it was. -/
inductive Takes (shell : Shell) (line : String) :
    List (List Char) → Option (List Char) → List (List Char) → Prop
  | nothing {lines : List (List Char)}
      (hexecuted : ∀ statement ∈ shell.executed line, statement.takesLine = false)
      (hinput : (shell.handle line).shell.session.input = .ofLines lines) :
      Takes shell line lines none lines
  | next {taken : List Char} {lines : List (List Char)} {span nameSpan : Span} {name : String}
      (hexecuted : shell.executed line = [.input span (.named nameSpan name)])
      (hsession : (shell.handle line).shell.session =
        { shell.session.set name (.text (String.ofList (dropLineEnd taken))) with
          input := .ofLines lines })
      (hreported : (shell.handle line).reported = "") :
      Takes shell line (taken :: lines) (some taken) lines
  | ended {span nameSpan : Span} {name : String}
      (hexecuted : shell.executed line = [.input span (.named nameSpan name)])
      (hsession : (shell.handle line).shell.session = shell.session)
      (hreported : (shell.handle line).reported =
        ((shell.reporter.register (Command.stripped line)).report
          (.blame (.inputEnds name) nameSpan)).printed)
      (hnonempty : (shell.handle line).reported ≠ "") :
      Takes shell line [] none []

/-- A command line takes lines from the front. -/
theorem Takes.eq_append {shell : Shell} {line : String} {lines rest : List (List Char)}
    {input : Option (List Char)} (h : shell.Takes line lines input rest) :
    lines = input.toList ++ rest := by
  cases h with
  | nothing hexecuted hinput => rfl
  | next hexecuted hsession hreported => rfl
  | ended hexecuted hsession hreported hnonempty => rfl

/-- What the shell says itself is printed, if the console accepts everything. -/
theorem say_of_unlimited {shell : Shell} (h : shell.console = .unlimited) (texts : List String)
    (stop : Bool) : shell.say texts stop = ⟨shell, stop, String.join texts, "", none⟩ := by
  have hfresh : (Output.fresh shell.console).policy = .unlimited := h
  simp only [say, Output.writeAll_of_unlimited hfresh, ← h]
  simp [Output.fresh]

/-- A reply after which the shell goes on. -/
structure Reply.GoesOn (reply : Reply) : Prop where
  stop_eq : reply.stop = false
  escaped_eq : reply.escaped = none
  fatal_eq : reply.shell.reporter.fatal = false
  console_eq : reply.shell.console = .unlimited

/-- A line that is run as a program brings up no failure that cannot be told to the end. -/
theorem Awaits.interprets {shell : Shell} {lines : List (List Char)} (h : shell.Awaits lines)
    {line : String} (hfree : '\n' ∉ line.toList) :
    shell.Interprets (Command.stripped line) (shell.interpret (Command.stripped line)) ∧
      (shell.interpret (Command.stripped line)).escaped = none := by
  have hstreams := Session.not_brings_of_lines h.input_eq h.policy_eq
  have hinterprets : shell.Interprets (Command.stripped line) _ :=
    Shell.interprets h.fatal_eq fun failure hraised =>
      ne_leave_of_interpret (fun other hbrings => absurd hbrings (hstreams other)) hraised
  refine ⟨hinterprets, ?_⟩
  generalize shell.interpret (Command.stripped line) = reply at hinterprets
  cases hinterprets with
  | broken hends htellable hprinted hnonempty =>
    have hbrings := tellable_or_brings (Command.newline_not_mem_stripped hfree) hends
    exact absurd (hbrings.resolve_left htellable) (hstreams _)
  | _ => rfl

/-- A command line that does not leave the shell lets it go on, whatever fails. -/
theorem Awaits.goesOn {shell : Shell} {lines : List (List Char)} (h : shell.Awaits lines)
    {line : String} (hfree : '\n' ∉ line.toList) (hstays : ¬Command.Leaves line) :
    (shell.handle line).GoesOn := by
  rw [Command.leaves_iff, not_or] at hstays
  obtain ⟨hexit, hend⟩ := hstays
  have hsay : ∀ texts, (shell.say texts false).GoesOn := by
    intro texts
    rw [say_of_unlimited h.console_eq]
    exact ⟨rfl, rfl, h.fatal_eq, h.console_eq⟩
  rw [handle]
  cases hcommand : Command.ofLine line with
  | endOfInput => exact absurd hcommand hend
  | exit => exact absurd hcommand hexit
  | statement source =>
    obtain rfl := Command.eq_stripped_of_ofLine hcommand
    obtain ⟨hinterprets, hescaped⟩ := h.interprets hfree
    rw [perform]
    generalize shell.interpret (Command.stripped line) = reply at hinterprets hescaped
    cases hinterprets with
    | broken hends htellable hprinted hnonempty => cases hescaped
    | _ => exact ⟨rfl, rfl, h.fatal_eq, h.console_eq⟩
  | _ =>
    rw [perform]
    exact hsay _

/-- What a command line takes, it takes from the front of the input, and the rest is left. -/
theorem Takes.input_eq {shell : Shell} {line : String} {lines rest : List (List Char)}
    {input : Option (List Char)} (h : shell.Takes line lines input rest)
    (hawaits : shell.Awaits lines) :
    (shell.handle line).shell.session.input = .ofLines rest := by
  cases h with
  | nothing hexecuted hinput => exact hinput
  | next hexecuted hsession hreported => rw [hsession]
  | ended hexecuted hsession hreported hnonempty => rw [hsession, hawaits.input_eq]

/-- An `Input` of a command line takes the next line, or it is reported that there is none. -/
theorem Awaits.takes_of_input {shell : Shell} {lines : List (List Char)} (h : shell.Awaits lines)
    (hlines : ∀ taken ∈ lines, taken ≠ []) {line : String} (hfree : '\n' ∉ line.toList)
    {span nameSpan : Span} {name : String}
    (hprogram : Command.program line = [.input span (.named nameSpan name)]) :
    ∃ input rest, shell.Takes line lines input rest := by
  obtain ⟨hcommand, hsource⟩ := Command.of_program_eq_cons hprogram
  have hhandle : shell.handle line = shell.interpret (Command.stripped line) := by
    rw [handle, hcommand, perform]
  have hexecuted : shell.executed line = [.input span (.named nameSpan name)] := by
    rw [executed, hprogram, Session.attempted_singleton]
  have hinterpret := interpret_of_ok shell.session hsource
  rw [Session.run_singleton] at hinterpret
  obtain ⟨hinterprets, hescaped⟩ := h.interprets hfree
  generalize shell.interpret (Command.stripped line) = reply at hhandle hinterprets hescaped
  cases lines with
  | nil =>
    rw [Session.execute_input_of_nil h.input_eq] at hinterpret
    cases hinterprets with
    | done hends => cases hinterpret.symm.trans hends
    | told hends htellable hprinted hnonempty =>
      cases hinterpret.symm.trans hends
      refine ⟨none, [], .ended hexecuted ?_ ?_ ?_⟩ <;> rw [hhandle]
      · exact hprinted
      · exact hnonempty
    | broken hends htellable hprinted hnonempty => cases hescaped
  | cons taken rest =>
    rw [Session.execute_input_of_cons h.input_eq (hlines taken List.mem_cons_self)] at hinterpret
    cases hinterprets with
    | done hends =>
      cases hinterpret.symm.trans hends
      exact ⟨some taken, rest, .next hexecuted (by rw [hhandle]) (by rw [hhandle])⟩
    | told hends htellable hprinted hnonempty => cases hinterpret.symm.trans hends
    | broken hends htellable hprinted hnonempty => cases hescaped

/-- One command line: it takes what it takes, and the shell awaits the rest. -/
theorem Awaits.step {shell : Shell} {lines : List (List Char)} (h : shell.Awaits lines)
    (hlines : ∀ taken ∈ lines, taken ≠ []) {line : String} (hfree : '\n' ∉ line.toList)
    (hstays : ¬Command.Leaves line) :
    ∃ input rest, shell.Takes line lines input rest ∧ (shell.handle line).shell.Awaits rest := by
  have hpolicy : (shell.handle line).shell.session.output.policy = .unlimited := by
    rw [session_handle]
    exact Session.policy_run h.policy_eq _
  have hgoesOn := h.goesOn hfree hstays
  suffices htakes : ∃ input rest, shell.Takes line lines input rest by
    obtain ⟨input, rest, htakes⟩ := htakes
    exact ⟨input, rest, htakes, htakes.input_eq h, hpolicy, hgoesOn.fatal_eq, hgoesOn.console_eq⟩
  by_cases hnone : ∀ statement ∈ shell.executed line, statement.takesLine = false
  · refine ⟨none, lines, .nothing hnone ?_⟩
    have hcount : (shell.executed line).countP Statement.takesLine = 0 :=
      List.countP_eq_zero.2 fun statement hstatement => by simp [hnone statement hstatement]
    rw [session_handle, Session.input_run_attempted, ← executed, hcount]
    exact h.input_eq
  · obtain ⟨found, hprogram⟩ := Command.exists_program_eq hfree
    cases found with
    | none =>
      rw [executed, hprogram] at hnone
      exact absurd (List.forall_mem_nil _) hnone
    | some statement =>
      rw [Option.toList_some] at hprogram
      rw [executed, hprogram, Session.attempted_singleton, List.forall_mem_singleton] at hnone
      obtain ⟨-, hsource⟩ := Command.of_program_eq_cons hprogram
      cases proper_of_ofSource hsource statement List.mem_cons_self with
      | input span nameSpan name => exact h.takes_of_input hlines hfree hprogram
      | _ => exact absurd rfl hnone

/-! ## Dialogues -/

/-- One round of a shell: the shell that the command line is handed to, the line that was read for
the command line, unless the input was at its end, and the line that the command line itself read,
if it did. -/
structure Round where
  shell : Shell
  command : Option (List Char)
  input : Option (List Char)

namespace Round

/-- The command line of a round. At the end of the input it is `EOF`. -/
def line (round : Round) : String :=
  commandLine (String.ofList (round.command.getD []))

/-- What the shell does in a round. -/
def reply (round : Round) : Reply := round.shell.handle round.line

/-- The lines that a round takes from the input, in their order. -/
def lines (round : Round) : List (List Char) :=
  round.command.toList ++ round.input.toList

/-- What a round adds to the standard output: one prompt, and then what the shell prints and what
the session writes. -/
def stdout (round : Round) : String :=
  prompt ++ (round.reply.printed ++ round.shell.wrote round.line)

/-- What a round adds to the error output. -/
def stderr (round : Round) (verbose : Bool) : String :=
  Journal.render verbose (round.shell.entries round.line) ++ round.reply.reported

/-- The command line of the round leaves the shell. -/
def Leaves (round : Round) : Prop := Command.Leaves round.line

instance (round : Round) : Decidable round.Leaves :=
  inferInstanceAs (Decidable (Command.Leaves round.line))

end Round

/-- A run of the shell over lines: its rounds, and the lines that are left when it is over. Each
command line is the next line, is handed to the shell that the round before left, and takes what it
takes from the lines after it. The rounds go on until a command line leaves the shell, and the end
of the input does. -/
inductive Dialogue : Shell → List (List Char) → List Round → List (List Char) → Prop
  | ended (shell : Shell) : Dialogue shell [] [⟨shell.withInput (.ofLines []), none, none⟩] []
  | left {shell : Shell} {line : List Char} {lines : List (List Char)} {round : Round}
      (hround : round = ⟨shell.withInput (.ofLines lines), some line, none⟩)
      (hleaves : round.Leaves) : Dialogue shell (line :: lines) [round] lines
  | onward {shell : Shell} {line : List Char} {lines rest unread : List (List Char)}
      {input : Option (List Char)} {round : Round} {rounds : List Round}
      (hround : round = ⟨shell.withInput (.ofLines lines), some line, input⟩)
      (hstays : ¬round.Leaves) (htakes : round.shell.Takes round.line lines input rest)
      (hmore : Dialogue round.reply.shell rest rounds unread) :
      Dialogue shell (line :: lines) (round :: rounds) unread

/-- A dialogue takes the lines from the first on, each once, and leaves the rest. -/
theorem Dialogue.eq_append {shell : Shell} {lines unread : List (List Char)}
    {rounds : List Round} (h : shell.Dialogue lines rounds unread) :
    lines = rounds.flatMap Round.lines ++ unread := by
  induction h with
  | ended shell => rfl
  | left hround hleaves =>
    subst hround
    rfl
  | onward hround hstays htakes _ ih =>
    subst hround
    rw [htakes.eq_append, List.flatMap_cons, List.append_assoc, ← ih]
    rfl

/-- The end of the input leaves the shell. -/
theorem Round.leaves_of_none {round : Round} (h : round.command = none) : round.Leaves := by
  have hline : round.line = "EOF" := by
    rw [Round.line, h]
    rfl
  rw [Round.Leaves, hline]
  decide

/-- A command line that leaves the shell does nothing to the session. -/
theorem session_of_leaves (shell : Shell) {line : String} (h : Command.Leaves line) :
    (shell.handle line).shell.session = shell.session := by
  rcases (Command.leaves_iff line).1 h with hcommand | hcommand <;> rw [handle, hcommand] <;> rfl

/-- A command line that leaves the shell stops it, if what the shell says last is printed. -/
theorem stop_of_leaves {shell : Shell} (hconsole : shell.console = .unlimited) {line : String}
    (h : Command.Leaves line) :
    (shell.handle line).stop = true ∧ (shell.handle line).escaped = none := by
  rcases (Command.leaves_iff line).1 h with hcommand | hcommand <;>
    rw [handle, hcommand, perform, say_of_unlimited hconsole] <;> exact ⟨rfl, rfl⟩

/-- A dialogue ends with the first round that leaves the shell, and that round takes nothing more
from the input. -/
theorem Dialogue.exists_last {shell : Shell} {lines unread : List (List Char)}
    {rounds : List Round} (h : shell.Dialogue lines rounds unread) :
    ∃ (front : List Round) (last : Round), rounds = front ++ [last] ∧
      (∀ round ∈ front, ¬round.Leaves) ∧ last.Leaves ∧
      last.reply.shell.session.input = .ofLines unread ∧ (last.command = none → unread = []) := by
  induction h with
  | ended shell =>
    have hleaves : Round.Leaves ⟨shell.withInput (.ofLines []), none, none⟩ :=
      Round.leaves_of_none rfl
    refine ⟨[], _, rfl, List.forall_mem_nil _, hleaves, ?_, fun _ => rfl⟩
    rw [Round.reply, session_of_leaves _ hleaves]
    rfl
  | left hround hleaves =>
    refine ⟨[], _, rfl, List.forall_mem_nil _, hleaves, ?_, ?_⟩
    · rw [Round.reply, session_of_leaves _ hleaves, hround]
      rfl
    · intro hcommand
      rw [hround] at hcommand
      cases hcommand
  | onward hround hstays _ _ ih =>
    obtain ⟨front, last, rfl, hfront, hlast⟩ := ih
    exact ⟨_ :: front, last, rfl, List.forall_mem_cons.2 ⟨hstays, hfront⟩, hlast⟩

/-- A round that leaves the shell is the last, and the status is zero. -/
theorem loop_of_leaves (shell : Shell) (round : Round) {input : Input}
    (hread : shell.session.input.read = (.ok (String.ofList (round.command.getD [])), input))
    (hround : round.shell = shell.withInput input) (hconsole : shell.console = .unlimited)
    (hleaves : round.Leaves) (verbose : Bool) :
    shell.loop verbose = ⟨round.stdout, round.stderr verbose, 0⟩ := by
  have hprints : round.shell.console = .unlimited := by
    rw [hround]
    exact hconsole
  obtain ⟨hstop, hescaped⟩ := stop_of_leaves hprints hleaves
  rw [Round.line] at hstop hescaped
  rw [loop_eq, hread]
  simp only [← hround, turn_eq hescaped, hstop]
  rfl

/-- After a round that does not leave the shell, the loop goes on with the shell it left. -/
theorem loop_of_stays (shell : Shell) (round : Round) {input : Input}
    (hread : shell.session.input.read = (.ok (String.ofList (round.command.getD [])), input))
    (hround : round.shell = shell.withInput input) (hgoesOn : round.reply.GoesOn)
    (verbose : Bool) :
    shell.loop verbose =
      (round.reply.shell.loop verbose).after round.stdout (round.stderr verbose) := by
  have hdrained : (round.shell.drained.handle round.line).shell.drained =
      round.reply.shell.drained := by
    rw [Round.reply, handle_eq_drained round.shell, drained_headed]
  have hstop := hgoesOn.stop_eq
  have hescaped := hgoesOn.escaped_eq
  rw [Round.reply, Round.line] at hstop hescaped
  rw [loop_eq, hread]
  simp only [← hround, turn_eq hescaped, hstop, Bool.false_eq_true, if_false]
  rw [← Round.line, loop_congr hdrained]
  rfl

/-- A command line has no line feed. -/
theorem newline_not_mem_commandLine {line : List Char} (h : '\n' ∉ line.dropLast) :
    '\n' ∉ (commandLine (String.ofList line)).toList := by
  rcases List.eq_nil_or_concat' line with rfl | ⟨front, last, rfl⟩
  · decide
  · have hne : String.ofList (front ++ [last]) ≠ "" := by simp
    rw [List.dropLast_concat] at h
    simp only [commandLine, if_neg hne, String.toList_ofList, dropNewline, List.getLast?_concat,
      List.dropLast_concat]
    split
    · exact h
    · next hlast =>
      rw [List.mem_append, List.mem_singleton, not_or]
      exact ⟨h, fun hnewline => hlast (congrArg some hnewline.symm)⟩

/-- Lines as they are read: none is empty, and line feeds stand only at their ends. -/
def OneByOne (lines : List (List Char)) : Prop :=
  ∀ line ∈ lines, line ≠ [] ∧ '\n' ∉ line.dropLast

/-- A shell that awaits lines has a dialogue over them, and its loop leaves what the rounds leave,
with status zero. -/
theorem Awaits.exists_dialogue {shell : Shell} {lines : List (List Char)} (h : shell.Awaits lines)
    (hlines : OneByOne lines) (verbose : Bool) :
    ∃ rounds unread, shell.Dialogue lines rounds unread ∧
      shell.loop verbose =
        ⟨String.join (rounds.map Round.stdout),
          String.join (rounds.map fun round => round.stderr verbose), 0⟩ := by
  -- By induction on the number of lines: a round takes its command line and maybe one line more.
  induction hn : lines.length using Nat.strongRecOn generalizing shell lines with
  | ind n ih =>
    cases lines with
    | nil =>
      have hread : shell.session.input.read = (.ok "", .ofLines []) := by
        rw [h.input_eq]
        rfl
      have hleaves : Round.Leaves ⟨shell.withInput (.ofLines []), none, none⟩ :=
        Round.leaves_of_none rfl
      refine ⟨_, [], .ended shell, ?_⟩
      rw [shell.loop_of_leaves ⟨shell.withInput (.ofLines []), none, none⟩ hread rfl h.console_eq
        hleaves]
      simp
    | cons line lines =>
      obtain ⟨hline, hlines⟩ := List.forall_mem_cons.1 hlines
      have hread : shell.session.input.read = (.ok (String.ofList line), .ofLines lines) := by
        rw [h.input_eq]
        rfl
      by_cases hleaves : Command.Leaves (commandLine (String.ofList line))
      · let round : Round := ⟨shell.withInput (.ofLines lines), some line, none⟩
        refine ⟨[round], lines, .left rfl hleaves, ?_⟩
        rw [shell.loop_of_leaves round hread rfl h.console_eq hleaves]
        simp
      · have hawaits : (shell.withInput (.ofLines lines)).Awaits lines :=
          ⟨rfl, h.policy_eq, h.fatal_eq, h.console_eq⟩
        have hfree := newline_not_mem_commandLine hline.2
        obtain ⟨input, rest, htakes, hnext⟩ :=
          hawaits.step (fun taken htaken => (hlines taken htaken).1) hfree hleaves
        have hrest : OneByOne rest := by
          intro taken htaken
          apply hlines taken
          rw [htakes.eq_append]
          exact List.mem_append_right _ htaken
        have hlength : rest.length < n := by
          rw [← hn, htakes.eq_append, List.length_cons, List.length_append]
          omega
        obtain ⟨rounds, unread, hdialogue, hloop⟩ := ih rest.length hlength hnext hrest rfl
        let round : Round := ⟨shell.withInput (.ofLines lines), some line, input⟩
        have hreply : round.reply.shell.loop verbose = _ := hloop
        refine ⟨round :: rounds, unread, .onward rfl hleaves htakes hdialogue, ?_⟩
        rw [shell.loop_of_stays round hread rfl (hawaits.goesOn hfree hleaves), hreply]
        simp only [Transcript.after, List.map_cons, String.join_cons]

theorem oneByOne_terminatedLines (text : List Char) : OneByOne (terminatedLines text) :=
  fun _ hline => ⟨ne_nil_of_mem_terminatedLines hline, newline_not_mem_dropLast hline⟩

end Shell

namespace CommandLine

open Shell (Round)

/-- Without a file the program ends with status zero, and its run is a dialogue of one shell with
the lines of its input. They are taken in their order, each by one command line, with one prompt
before it, or by one `Input` of the command line before, and none is passed over. The first command
line that starts with `exit` or `EOF`, or the end of the input, is the last, and what follows it
stays in the input. -/
theorem run_shell {arguments : List String} {options : Options}
    (hrequest : Request.ofArguments arguments = .ok (.run options)) (hfile : options.file = none)
    (system : System) (text : List Char) (clock : Clock) :
    ∃ front last unread,
      (Shell.start (.fresh (.ofText text) (.fresh .unlimited) system.room)
          (.fresh system.paint true) .unlimited).Dialogue
          (terminatedLines text) (front ++ [last]) unread ∧
        run system arguments (.ofText text) clock =
          ⟨Shell.intro ++ String.join ((front ++ [last]).map Round.stdout),
            String.join ((front ++ [last]).map fun round => round.stderr options.verbose), 0⟩ ∧
        (∀ round ∈ front ++ [last], round.reply.shell.session.output.written =
          round.shell.session.output.written ++ round.shell.wrote round.line) ∧
        terminatedLines text = (front ++ [last]).flatMap Round.lines ++ unread ∧
        (∀ round ∈ front, ¬round.Leaves) ∧ last.Leaves ∧
        last.reply.shell.session.input = .ofLines unread ∧
        (last.command = none → unread = []) := by
  have hawaits : (Shell.start (.fresh (.ofText text) (.fresh .unlimited) system.room)
      (.fresh system.paint true) .unlimited).Awaits (terminatedLines text) :=
    ⟨rfl, rfl, rfl, rfl⟩
  obtain ⟨rounds, unread, hdialogue, hloop⟩ :=
    hawaits.exists_dialogue (Shell.oneByOne_terminatedLines text) options.verbose
  obtain ⟨front, last, rfl, hfront, hlast⟩ := hdialogue.exists_last
  refine ⟨front, last, unread, hdialogue, ?_, ?_, hdialogue.eq_append, hfront, hlast⟩
  · simp only [run, hrequest, hfile, shellTranscript, hloop, Transcript.after,
      String.empty_append]
  · intro round _
    rw [Round.reply, Shell.written_handle]

/-- A line that says `exit` and is taken by an `Input`, an `Input` without a line, and the end of
the input. -/
theorem run_shell_inputs :
    ∃ first second last : Round,
      run ⟨.plain, fun _ => .ok [], knownCodecs, 990⟩ []
          (.ofText "Input a\nexit\nInput b".toList) ⟨[]⟩ =
          ⟨Shell.intro ++ String.join ([first, second, last].map Round.stdout),
            String.join ([first, second, last].map fun round => round.stderr false), 0⟩ ∧
        first.lines = ["Input a\n".toList, "exit\n".toList] ∧ second.lines = ["Input b".toList] ∧
        second.reply.reported ≠ "" ∧ last.lines = [] := by
  have hrequest : Request.ofArguments [] = .ok (.run .default) := by cbv
  have hlines : terminatedLines "Input a\nexit\nInput b".toList =
      ["Input a\n".toList, "exit\n".toList, "Input b".toList] := by cbv
  have hfirst : Command.program (Shell.commandLine (String.ofList "Input a\n".toList)) =
      [.input ⟨1, 0, 7⟩ (.named ⟨1, 6, 7⟩ "a")] := by cbv
  have hsecond : Command.program (Shell.commandLine (String.ofList "Input b".toList)) =
      [.input ⟨1, 0, 7⟩ (.named ⟨1, 6, 7⟩ "b")] := by cbv
  have hexecuted : ∀ (shell : Shell) {line : String} {span nameSpan : Span} {name : String},
      Command.program line = [.input span (.named nameSpan name)] →
        ¬∀ statement ∈ shell.executed line, statement.takesLine = false := by
    intro shell line span nameSpan name hprogram hall
    rw [Shell.executed, hprogram, Session.attempted_singleton] at hall
    cases hall _ List.mem_cons_self
  obtain ⟨front, last, unread, hdialogue, hrun, -⟩ :=
    run_shell hrequest rfl ⟨.plain, fun _ => .ok [], knownCodecs, 990⟩
      "Input a\nexit\nInput b".toList ⟨[]⟩
  generalize front ++ [last] = rounds at hdialogue hrun
  rw [hlines] at hdialogue
  cases hdialogue with
  | left hround hleaves =>
    subst hround
    exact absurd hleaves (by decide)
  | onward hround hstays htakes hmore =>
    subst hround
    cases htakes with
    | nothing hnone hinput => exact absurd hnone (hexecuted _ hfirst)
    | next =>
      cases hmore with
      | left hround hleaves =>
        subst hround
        exact absurd hleaves (by decide)
      | onward hround hstays htakes hmore =>
        subst hround
        cases htakes with
        | nothing hnone hinput => exact absurd hnone (hexecuted _ hsecond)
        | ended _ _ _ hnonempty =>
          cases hmore with
          | ended => exact ⟨_, _, _, hrun, rfl, rfl, hnonempty, rfl⟩

end CommandLine

end LineScript
