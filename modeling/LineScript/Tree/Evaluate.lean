import LineScript.Failure
import LineScript.Namespace

/-!
# Evaluation

The value of an expression under a namespace. Operands are evaluated from left to right, and an
operator is applied only when both of its operands have values. Two texts are joined by a space
between words; a reference on either side, or a dollar sign at the end of the left text, joins them
without one.

The evaluation of a part is nested in the evaluation of the whole, and there is room for only so
many of them: a part that lies deeper is not evaluated, and that is a failure of its own. The room
is what the caller has left of its stack. It is counted in evaluations; the few calls that a single
part needs to find its value or to apply its operator are taken off beforehand.
-/

set_option autoImplicit false

namespace LineScript

namespace Namespace

/-- The value of a variable, or the failure that the given span is to blame for. -/
def lookup (space : Namespace) (name : String) (span : Span) : Except Failure Value :=
  match space.get? name with
  | some value => .ok value
  | none => .error (.blame (.unset name) span)

/-- A variable as a number, or the failure that the given span is to blame for. -/
def number (space : Namespace) (name : String) (span : Span) : Except Failure Int := do
  let value ← space.lookup name span
  match value.toInteger with
  | .integer n => .ok n
  | .notAnInteger => .error (.blame (.notANumber name) span)
  | .tooManyDigits count => .error (.mishap (.tooManyDigits count))

end Namespace

namespace NumberExpr

/-- Applies the operator with the given symbol; a zero divisor is blamed on the given span. -/
def applySymbol (symbol : String) (left right : Int) (divisor : Span) : Except Failure Int :=
  match Operator.ofSymbol? symbol with
  | none => .error (.mishap (.unknownOperator symbol))
  | some op =>
    match op.apply left right with
    | some n => .ok n
    | none => .error (.blame .divisionByZero divisor)

/-- The value of a number expression, with room for some nested evaluations. -/
def eval (space : Namespace) (room : Nat) (expr : NumberExpr) : Except Failure Int :=
  match room, expr with
  | 0, _ => .error (.mishap .tooDeep)
  | _ + 1, literal _ value => .ok value
  | _ + 1, reference span name => space.number name span
  | room + 1, binary _ symbol left right => do
    let l ← left.eval space room
    let r ← right.eval space room
    applySymbol symbol l r right.span
  | _ + 1, misplaced span kind => .error (.blame (.notNumeric kind) span)

end NumberExpr

namespace TextExpr

/-- Whether a text ends with a dollar sign. -/
def endsWithDollar (text : String) : Bool :=
  text.toList.getLast? == some '$'

/-- The value of a text expression, with room for some nested evaluations. -/
def eval (space : Namespace) (room : Nat) (expr : TextExpr) : Except Failure String :=
  match room, expr with
  | 0, _ => .error (.mishap .tooDeep)
  | _ + 1, literal _ value => .ok value
  | _ + 1, reference span name => do
    let value ← space.lookup name span
    .ok value.render
  | room + 1, concat _ left right => do
    let l ← left.eval space room
    let r ← right.eval space room
    -- What is asked of the left is its text, of the right only how it starts.
    if left.startsWithReference || right.startsWithReference || endsWithDollar l then .ok (l ++ r)
    else .ok (l ++ " " ++ r)
  | _ + 1, misplaced span kind => .error (.blame (.notTextual kind) span)

end TextExpr

end LineScript
