import LineScript.Proofs.Shell.Dialogue

/-!
# A shell between command lines

Whatever goes wrong in a command line, the shell is ready for the next one: its reporter is not
fatal and knows no source, so no later failure is shown against the line. A command line without a
line feed holds at most one statement, and a statement that fails sets nothing and writes nothing,
so a line that is reported has changed neither the variables nor the output
(`unchanged_of_interpret`). One line keeps all of this up (`settled_of_atRest`). A failure leaves
the shell in two cases only: the console refuses what the shell prints itself, or a stream brings up
a diagnostic that cannot be told to the end. Main statement: `settled_of_exchanges`, every command
line that a shell is given leaves it at rest, and one that is reported leaves its variables and its
output alone.
-/

set_option autoImplicit false

namespace LineScript

/-! ## A line that fails -/

/-- A line that fails sets nothing and writes nothing. -/
theorem unchanged_of_interpret {line source : String} (hfree : '\n' ∉ line.toList)
    (hcommand : Command.ofLine line = .statement source) {session after : Session}
    {failure : Failure} (h : session.interpret source = (after, some failure)) :
    after.space = session.space ∧ after.output.written = session.output.written := by
  cases hsource : Statement.ofSource source with
  | error other =>
    rw [interpret_of_error session hsource] at h
    cases h
    exact ⟨rfl, rfl⟩
  | ok statements =>
    rw [interpret_of_ok session hsource] at h
    -- There is at most one statement, so nothing was executed before the one that fails.
    obtain ⟨found, hprogram⟩ := Command.exists_program_eq hfree
    simp only [Command.program, hcommand, hsource] at hprogram
    subst hprogram
    cases found with
    | none => cases h
    | some statement =>
      rw [Option.toList_some, Session.run_singleton] at h
      exact Session.execute_failed h

namespace Shell

/-! ## One line -/

/-- A shell between command lines: its reporter is not fatal and knows no source. -/
structure AtRest (shell : Shell) : Prop where
  fatal_eq : shell.reporter.fatal = false
  source_eq : shell.reporter.source = none

/-- A command line and the shell that it is given to. -/
structure Exchange where
  shell : Shell
  line : String

/-- What the shell prints itself for a command. -/
def texts (shell : Shell) : Command → List String
  | .help => print helpText
  | .variables => Shell.listing shell.session.space
  | .endOfInput => ["\n"]
  | _ => []

namespace Exchange

/-- What the shell does in an exchange. -/
def reply (exchange : Exchange) : Reply := exchange.shell.handle exchange.line

/-- The console refuses what the shell prints itself. -/
def Refused (exchange : Exchange) (failure : Failure) : Prop :=
  ((Output.fresh exchange.shell.console).writeAll
    (exchange.shell.texts (Command.ofLine exchange.line))).2 = some failure

/-- The line is a program that fails. -/
def Fails (exchange : Exchange) (failure : Failure) : Prop :=
  ∃ source, Command.ofLine exchange.line = .statement source ∧
    (exchange.shell.session.interpret source).2 = some failure

/-- The line fails with what a stream brings up and what cannot be told to the end. -/
def BreaksOff (exchange : Exchange) : Prop :=
  ∃ failure, exchange.Fails failure ∧ exchange.shell.session.Brings failure ∧ ¬failure.Tellable

/-- What an exchange leaves behind. The reporter is not fatal and knows no source, unless its report
broke off. A failure leaves the shell exactly if a print is refused or the report breaks off.
Something is reported exactly if the line is a program that fails. If something is reported or a
failure leaves the shell, then the variables and the text that was written are as they were and the
shell does not stop. Else the shell stops exactly if the line says so. -/
structure Settled (exchange : Exchange) : Prop where
  fatal_eq : exchange.reply.shell.reporter.fatal = false
  source_iff : exchange.reply.shell.reporter.source = none ↔ ¬exchange.BreaksOff
  escaped_iff : ∀ failure, exchange.reply.escaped = some failure ↔
    exchange.Refused failure ∨ exchange.BreaksOff ∧ failure = .mishap .unwritable
  reported_iff : exchange.reply.reported ≠ "" ↔ ∃ failure, exchange.Fails failure
  unchanged : exchange.reply.reported ≠ "" ∨ exchange.reply.escaped ≠ none →
    exchange.reply.shell.session.space = exchange.shell.session.space ∧
      exchange.reply.shell.session.output.written = exchange.shell.session.output.written ∧
      exchange.reply.stop = false
  stop_iff : exchange.reply.stop = true ↔
    Command.Leaves exchange.line ∧ exchange.reply.escaped = none

/-- A program is nothing that the shell prints itself. -/
theorem not_refused_of_statement {exchange : Exchange} {source : String}
    (h : Command.ofLine exchange.line = .statement source) (failure : Failure) :
    ¬exchange.Refused failure := by
  rw [Refused, h]
  exact Option.some_ne_none failure ∘ Eq.symm

theorem not_fails_of_command {exchange : Exchange}
    (h : ∀ source, Command.ofLine exchange.line ≠ .statement source) (failure : Failure) :
    ¬exchange.Fails failure := by
  rintro ⟨source, hcommand, -⟩
  exact h source hcommand

theorem fails_iff_of_statement (exchange : Exchange) {source : String} {after : Session}
    {raised : Option Failure} (h : Command.ofLine exchange.line = .statement source)
    (hends : exchange.shell.session.interpret source = (after, raised)) (failure : Failure) :
    exchange.Fails failure ↔ raised = some failure := by
  constructor
  · rintro ⟨other, hother, hfails⟩
    cases h.symm.trans hother
    rwa [hends] at hfails
  · rintro rfl
    exact ⟨source, h, by rw [hends]⟩

end Exchange

/-- A command of the shell itself prints something, or tries to, and leaves everything as it is. -/
theorem settled_of_say {shell : Shell} (hrest : shell.AtRest) {line : String} {stop : Bool}
    (hhandle : shell.handle line = shell.say (shell.texts (Command.ofLine line)) stop)
    (hcommand : ∀ source, Command.ofLine line ≠ .statement source)
    (hstop : stop = true ↔ Command.Leaves line) : Exchange.Settled ⟨shell, line⟩ := by
  have hfails : ∀ failure, ¬Exchange.Fails ⟨shell, line⟩ failure :=
    Exchange.not_fails_of_command hcommand
  have hbreaks : ¬Exchange.BreaksOff ⟨shell, line⟩ := by
    rintro ⟨failure, hfailure, -⟩
    exact hfails failure hfailure
  have hreply : Exchange.reply ⟨shell, line⟩ = shell.say (shell.texts (Command.ofLine line)) stop :=
    hhandle
  constructor
  · rw [hreply]
    exact hrest.fatal_eq
  · rw [hreply]
    exact iff_of_true hrest.source_eq hbreaks
  · intro failure
    rw [hreply, or_iff_left fun h => hbreaks h.1]
    rfl
  · rw [hreply]
    apply iff_of_false (not_not_intro rfl)
    rintro ⟨failure, hfailure⟩
    exact hfails failure hfailure
  · rw [hreply]
    rintro (hreported | hescaped)
    · exact absurd rfl hreported
    · refine ⟨rfl, rfl, ?_⟩
      simp only [say] at hescaped ⊢
      rw [Option.isNone_eq_false_iff.2 (Option.isSome_iff_ne_none.2 hescaped), Bool.and_false]
  · rw [hreply, ← hstop, ← Option.isNone_iff_eq_none, ← Bool.and_eq_true]
    rfl

/-- A line that is run as a program leaves the shell at rest, unless its report breaks off; and if
it fails, it leaves everything else as it was. -/
theorem settled_of_interpret {shell : Shell} (hrest : shell.AtRest)
    (hstreams : ∀ failure, shell.session.Brings failure → ∀ status, failure ≠ .leave status)
    {line source : String} (hfree : '\n' ∉ line.toList)
    (hcommand : Command.ofLine line = .statement source) : Exchange.Settled ⟨shell, line⟩ := by
  have hrefused : ∀ failure, ¬Exchange.Refused ⟨shell, line⟩ failure :=
    Exchange.not_refused_of_statement hcommand
  have hleaves : ¬Command.Leaves line := by
    rw [Command.leaves_iff, hcommand]
    simp
  have hinterprets : shell.Interprets source (Exchange.reply ⟨shell, line⟩) := by
    rw [Exchange.reply, handle, hcommand, perform]
    exact interprets hrest.fatal_eq fun failure hraised => ne_leave_of_interpret hstreams hraised
  have hfails : ∀ {after raised}, shell.session.interpret source = (after, raised) →
      ∀ failure, Exchange.Fails ⟨shell, line⟩ failure ↔ raised = some failure :=
    Exchange.fails_iff_of_statement ⟨shell, line⟩ hcommand
  generalize hreply : Exchange.reply ⟨shell, line⟩ = reply at hinterprets
  cases hinterprets with
  | done hends =>
    have hnone : ¬∃ failure, Exchange.Fails ⟨shell, line⟩ failure := by
      rintro ⟨failure, hfailure⟩
      cases (hfails hends failure).1 hfailure
    have hbreaks : ¬Exchange.BreaksOff ⟨shell, line⟩ := by
      rintro ⟨failure, hfailure, -⟩
      exact hnone ⟨failure, hfailure⟩
    constructor <;> rw [hreply]
    · exact hrest.fatal_eq
    · exact iff_of_true rfl hbreaks
    · intro failure
      simp [hrefused, hbreaks]
    · exact iff_of_false (not_not_intro rfl) hnone
    · rintro (hreported | hescaped)
      · exact absurd rfl hreported
      · exact absurd rfl hescaped
    · exact iff_of_false Bool.false_ne_true fun h => hleaves h.1
  | @told after failure printed hends htellable hprinted hnonempty =>
    have hbreaks : ¬Exchange.BreaksOff ⟨shell, line⟩ := by
      rintro ⟨other, hother, -, hbroken⟩
      cases (hfails hends other).1 hother
      exact hbroken htellable
    obtain ⟨hspace, hwritten⟩ := unchanged_of_interpret hfree hcommand hends
    constructor <;> rw [hreply]
    · exact hrest.fatal_eq
    · exact iff_of_true rfl hbreaks
    · intro failure
      simp [hrefused, hbreaks]
    · exact iff_of_true hnonempty ⟨failure, (hfails hends failure).2 rfl⟩
    · exact fun _ => ⟨hspace, hwritten, rfl⟩
    · exact iff_of_false Bool.false_ne_true fun h => hleaves h.1
  | @broken after failure printed hends htellable hprinted hnonempty =>
    have hfailure : Exchange.Fails ⟨shell, line⟩ failure := (hfails hends failure).2 rfl
    have hbrings : shell.session.Brings failure := by
      obtain rfl := Command.eq_stripped_of_ofLine hcommand
      have hstripped := Command.newline_not_mem_stripped hfree
      exact (tellable_or_brings hstripped hends).resolve_left htellable
    have hbreaks : Exchange.BreaksOff ⟨shell, line⟩ := ⟨failure, hfailure, hbrings, htellable⟩
    obtain ⟨hspace, hwritten⟩ := unchanged_of_interpret hfree hcommand hends
    constructor <;> rw [hreply]
    · exact hrest.fatal_eq
    · exact iff_of_false (Option.some_ne_none source) (not_not_intro hbreaks)
    · intro other
      simp [hrefused, hbreaks, eq_comm]
    · exact iff_of_true hnonempty ⟨failure, hfailure⟩
    · exact fun _ => ⟨hspace, hwritten, rfl⟩
    · exact iff_of_false Bool.false_ne_true fun h => hleaves h.1

/-- One command line: whatever it is and however it ends, a shell at rest is at rest again. -/
theorem settled_of_atRest {shell : Shell} (hrest : shell.AtRest)
    (hstreams : ∀ failure, shell.session.Brings failure → ∀ status, failure ≠ .leave status)
    {line : String} (hfree : '\n' ∉ line.toList) : Exchange.Settled ⟨shell, line⟩ := by
  have hleaves := Command.leaves_iff line
  cases hcommand : Command.ofLine line with
  | statement source => exact settled_of_interpret hrest hstreams hfree hcommand
  | _ =>
    rw [hcommand] at hleaves
    apply settled_of_say hrest
    · rw [handle, hcommand, perform]
      rfl
    · simp [hcommand]
    · simp [hleaves]

/-! ## Many lines -/

/-- The report of a failure broke off: something was reported, and a failure came out of it. -/
def Reply.broken (reply : Reply) : Bool :=
  reply.reported != "" && reply.escaped.isSome

/-- What becomes of command lines that are given to a shell one after the other, also after one that
asks it to stop, up to the first whose report breaks off. -/
def exchanges (shell : Shell) : List String → List Exchange
  | [] => []
  | line :: lines =>
    ⟨shell, line⟩ ::
      if (shell.handle line).broken then [] else (shell.handle line).shell.exchanges lines

/-- A shell whose report did not break off is at rest again. -/
theorem Exchange.Settled.atRest {exchange : Exchange} (h : exchange.Settled)
    (hbroken : exchange.reply.broken = false) : exchange.reply.shell.AtRest := by
  refine ⟨h.fatal_eq, h.source_iff.2 ?_⟩
  rintro hbreaks
  obtain ⟨failure, hfails, -⟩ := id hbreaks
  have hreported := h.reported_iff.2 ⟨failure, hfails⟩
  have hescaped := (h.escaped_iff _).2 (.inr ⟨hbreaks, rfl⟩)
  simp [Reply.broken, hreported, hescaped] at hbroken

theorem AtRest.exchanges {shell : Shell} (hrest : shell.AtRest)
    (hstreams : ∀ failure, shell.session.Brings failure → ∀ status, failure ≠ .leave status)
    {lines : List String} (hfree : ∀ line ∈ lines, '\n' ∉ line.toList) :
    ∀ exchange ∈ shell.exchanges lines, exchange.Settled := by
  induction lines generalizing shell with
  | nil => exact List.forall_mem_nil _
  | cons line lines ih =>
    obtain ⟨hline, hlines⟩ := List.forall_mem_cons.1 hfree
    have hsettled := settled_of_atRest hrest hstreams hline
    rw [Shell.exchanges]
    refine List.forall_mem_cons.2 ⟨hsettled, ?_⟩
    split_ifs with hbroken
    · exact List.forall_mem_nil _
    · refine ih (hsettled.atRest (Bool.not_eq_true _ ▸ hbroken)) ?_ hlines
      intro failure hbrings
      rw [session_handle] at hbrings
      exact hstreams failure hbrings.of_run

end Shell

end LineScript
