import LineScript.Token.Scan
import LineScript.Tree.Parse

/-!
# Failures

All that can end a program early. A program is at fault when it cannot be scanned, parsed or
executed, and such a failure is shown as a diagnostic. A `Mishap` is a failure outside of the
program: a stream that breaks, a number with too many digits, an expression that is nested too deep.
A stream can also be interrupted, ask to leave the program, or bring up a diagnostic of its own.
-/

set_option autoImplicit false

namespace LineScript

/-- Why a statement cannot be executed. -/
inductive ExecutionFault where
  | unset (name : String)
  | notANumber (name : String)
  | divisionByZero
  | notNumeric (kind : NodeKind)
  | notTextual (kind : NodeKind)
  | notExecutable (kind : NodeKind)
  | unreadable (name reason : String)
  | inputEnds (name : String)
  | unwritable (name reason : String)
  deriving DecidableEq, Repr

/-- The wording of a fault. -/
def ExecutionFault.message : ExecutionFault → String
  | unset name => s!"variable `{name}` not set"
  | notANumber name => s!"cannot convert text variable `{name}` to a number"
  | divisionByZero => "division by zero"
  | notNumeric kind => s!"cannot evaluate {kind.label} as a number"
  | notTextual kind => s!"cannot evaluate {kind.label} as text"
  | notExecutable kind => s!"cannot execute {kind.label}"
  | unreadable name reason => s!"could not read input for `{name}`: {reason}"
  | inputEnds name => s!"end of input reached while reading `{name}`"
  | unwritable name reason => s!"could not write `{name}`: {reason}"

/-- A failure that is not the program's. What comes from outside has a class and a text of any kind;
only whether it is about a stream or a file, or about an encoding, is told apart. -/
inductive Mishap where
  /-- The system refuses a stream or a file. -/
  | system (label text : String)
  /-- Bytes are not text. -/
  | undecodable (text : String)
  /-- An encoding fails in another way, as when a text cannot be written in it. -/
  | unencodable (label text : String)
  /-- Anything else that comes from outside. -/
  | foreign (label text : String)
  /-- A text has too many digits to be read as a number. -/
  | tooManyDigits (count : Nat)
  /-- A number has too many digits to be written. -/
  | unwritable
  /-- Evaluations are nested too deep. -/
  | tooDeep
  /-- A part of a tree is used for something that parts of its kind do not have. -/
  | missingPart (kind : NodeKind) (part : String)
  /-- A tree holds an operation that no operator has. -/
  | unknownOperator (symbol : String)
  deriving DecidableEq, Repr

namespace Mishap

/-- The class of a mishap, as reports name it. -/
def label : Mishap → String
  | system label _ => label
  | undecodable _ => "UnicodeDecodeError"
  | unencodable label _ => label
  | foreign label _ => label
  | tooManyDigits _ => "ValueError"
  | unwritable => "ValueError"
  | tooDeep => "RecursionError"
  | missingPart _ _ => "AttributeError"
  | unknownOperator _ => "KeyError"

/-- The text of a mishap. A key is shown in quotes. -/
def text : Mishap → String
  | system _ text => text
  | undecodable text => text
  | unencodable _ text => text
  | foreign _ text => text
  | tooManyDigits count => Integer.tooManyDigitsMessage count
  | unwritable => Integer.unwritableMessage
  | tooDeep => "maximum recursion depth exceeded"
  | missingPart kind part => s!"'{kind.label}' object has no attribute '{part}'"
  | unknownOperator symbol => Text.quoted symbol

/-- Whether a mishap of a stream is told as an error of the statement that uses the stream. -/
def isStreamTrouble : Mishap → Bool
  | system _ _ => true
  | undecodable _ => true
  | unencodable _ _ => true
  | _ => false

/-- Whether a mishap of a file is told as an error of the program that is in it. -/
def isFileTrouble : Mishap → Bool
  | system _ _ => true
  | undecodable _ => true
  | _ => false

end Mishap

/-- All that can end a program early. -/
inductive Failure where
  | lexical (fault : Located LexFault)
  | syntactic (fault : Located ParseFault)
  | execution (fault : Located ExecutionFault)
  | raised (diagnostic : Diagnostic)
  | mishap (mishap : Mishap)
  | interrupt (text : String)
  | leave (status : Int)
  deriving DecidableEq, Repr

namespace Failure

/-- The diagnostic that a failure of a program is shown as. -/
def diagnostic? : Failure → Option Diagnostic
  | lexical fault => some ⟨.lexical, fault.item.message, fault.span⟩
  | syntactic fault => some ⟨.syntactic, fault.item.message, fault.span⟩
  | execution fault => some ⟨.execution, fault.item.message, fault.span⟩
  | raised diagnostic => some diagnostic
  | _ => none

/-- The failure of a statement that the part with the given span is to blame for. -/
def blame (fault : ExecutionFault) (span : Span) : Failure :=
  execution ⟨fault, span⟩

end Failure

namespace Target

/-- The failure of a target that has no name. -/
def namelessFailure (kind : NodeKind) : Failure :=
  .mishap (.missingPart kind "name")

/-- The name of a target. -/
def name : Target → Except Failure String
  | named _ name => .ok name
  | misplaced _ kind => .error (namelessFailure kind)

/-- The failure of a statement that its target is to blame for. Without a name it cannot be told. -/
def blame (target : Target) (fault : String → ExecutionFault) : Failure :=
  match target with
  | named span name => .blame (fault name) span
  | misplaced _ kind => namelessFailure kind

end Target

/-- A parser's failure as a failure of the program. -/
def ParseFailure.toFailure : ParseFailure → Failure
  | .fault located => .syntactic located
  | .tooManyDigits count => .mishap (.tooManyDigits count)

/-- The statements of a source, or what is wrong with it. All of it is scanned before any of it is
parsed. -/
def Statement.ofSource (source : String) : Except Failure (List Statement) :=
  match Token.scan source with
  | .error fault => .error (.lexical fault)
  | .ok tokens =>
    match Statement.parse tokens with
    | .error failure => .error failure.toFailure
    | .ok statements => .ok statements

end LineScript
