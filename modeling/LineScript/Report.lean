import LineScript.Failure
import LineScript.Report.Excerpt

/-!
# Reports

A reporter tells failures to the user. It knows the source that is being run, if there is one, and
shows the line that a diagnostic is about. A fatal reporter ends the program after its first report;
any other one forgets the source with each report, so that no later failure is shown against it. A
report fails itself when the number of a line cannot be written; then it breaks off after its first
line, and the source stays known.
-/

set_option autoImplicit false

namespace LineScript

/-- What reports failures. -/
structure Reporter where
  paint : Paint
  fatal : Bool
  source : Option String

/-- What a reporter does: the reporter it becomes, what it prints, and what comes out of it, a
request to leave the program or a failure of the report itself. -/
structure Reporter.Reply where
  reporter : Reporter
  printed : String
  escaped : Option Failure

namespace Reporter

/-- The status with which a program ends that nothing follows in. A request to leave it brings its
own, and any other failure that comes out is a one. -/
def Reply.status (reply : Reply) : Int :=
  match reply.escaped with
  | none => 0
  | some (.leave status) => status
  | some _ => 1

/-- A reporter that knows no source. -/
def fresh (paint : Paint) (fatal : Bool) : Reporter := ⟨paint, fatal, none⟩

/-- Makes a source the one that is being run. -/
def register (reporter : Reporter) (source : String) : Reporter :=
  { reporter with source := some source }

/-- Forgets the source. -/
def remove (reporter : Reporter) : Reporter :=
  { reporter with source := none }

/-- Nothing happens. -/
def silent (reporter : Reporter) : Reply := ⟨reporter, "", none⟩

/-- The first line of a report. -/
def headline (paint : Paint) (diagnostic : Diagnostic) (internal : Bool) : String :=
  (if internal then paint.bold .red "[internal] " else "") ++
    paint.bold .red s!"{diagnostic.kind.title}: " ++ diagnostic.message ++ "\n"

/-- What follows the first line of a report: an excerpt, or nothing for a diagnostic that is
internal or about no line. -/
def excerpt (reporter : Reporter) (diagnostic : Diagnostic) (internal : Bool) : Option String :=
  match reporter.source with
  | none => some ""
  | some source =>
    if internal || diagnostic.span.line == 0 then some ""
    else (diagnostic.excerpt reporter.paint source).map (· ++ "\n")

/-- Reports a diagnostic. -/
def throw (reporter : Reporter) (diagnostic : Diagnostic) (internal : Bool) : Reply :=
  let first := headline reporter.paint diagnostic internal
  match reporter.excerpt diagnostic internal with
  | none => ⟨reporter, first, some (.mishap .unwritable)⟩
  | some shown =>
    if reporter.fatal then ⟨reporter, first ++ shown, some (.leave 1)⟩
    else ⟨reporter.remove, first ++ shown, none⟩

/-- A reporter that is not fatal forgets the source with a report, and the program goes on. -/
theorem throw_eq_of_not_fatal {reporter : Reporter} (h : reporter.fatal = false)
    {diagnostic : Diagnostic} {internal : Bool} {shown : String}
    (hshown : reporter.excerpt diagnostic internal = some shown) :
    reporter.throw diagnostic internal =
      ⟨reporter.remove, headline reporter.paint diagnostic internal ++ shown, none⟩ := by
  rw [throw, hshown, h]
  rfl

/-- A report whose excerpt cannot be written breaks off. -/
theorem throw_eq_of_unwritable {reporter : Reporter} {diagnostic : Diagnostic} {internal : Bool}
    (h : reporter.excerpt diagnostic internal = none) :
    reporter.throw diagnostic internal =
      ⟨reporter, headline reporter.paint diagnostic internal, some (.mishap .unwritable)⟩ := by
  rw [throw, h]

/-- The diagnostic of an interrupt. -/
def interrupted : Diagnostic := ⟨.general, "keyboard interrupt", .zero⟩

/-- The diagnostic of a mishap. -/
def unknown (mishap : Mishap) : Diagnostic :=
  ⟨.general, s!"unknown error: '{mishap.label}: {mishap.text}'", .zero⟩

/-- Reports a failure. A request to leave the program is no failure to report: it is followed, and
the source stays known. -/
def report (reporter : Reporter) : Failure → Reply
  | .leave status => ⟨reporter, "", some (.leave status)⟩
  | .interrupt _ => reporter.throw interrupted false
  | .mishap mishap => reporter.throw (unknown mishap) true
  | .raised diagnostic => reporter.throw diagnostic false
  | .lexical fault => reporter.throw ⟨.lexical, fault.item.message, fault.span⟩ false
  | .syntactic fault => reporter.throw ⟨.syntactic, fault.item.message, fault.span⟩ false
  | .execution fault => reporter.throw ⟨.execution, fault.item.message, fault.span⟩ false

/-- Reports what ended something, if it did not end well. -/
def conclude (reporter : Reporter) : Option Failure → Reply
  | none => reporter.silent
  | some failure => reporter.report failure

end Reporter

end LineScript
