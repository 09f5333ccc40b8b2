import LineScript.Diagnostic

/-!
# Statement trees

A statement assigns a text or a number to a variable, reads a line into one, or writes one. The
parts of a tree carry the spans they were parsed from, so that a failure can point at them. A tree
may also be built by hand: then the symbol of an operation can be one that no operator has, a
number can have any size, and `misplaced` stands for a part of another kind than its place calls
for. The parser produces none of these.
-/

set_option autoImplicit false

namespace LineScript

/-- The kinds of parts that trees are made of. -/
inductive NodeKind where
  | identifier
  | numberLiteral
  | numberReference
  | binaryNumber
  | textLiteral
  | textReference
  | concat
  | textAssign
  | numberAssign
  | inputStatement
  | outputStatement
  deriving DecidableEq, Repr

namespace NodeKind

/-- The name of a kind in messages. -/
def label : NodeKind → String
  | identifier => "Identifier"
  | numberLiteral => "NumberLiteral"
  | numberReference => "NumberReference"
  | binaryNumber => "BinaryNumber"
  | textLiteral => "TextLiteral"
  | textReference => "TextReference"
  | concat => "Concat"
  | textAssign => "TextAssign"
  | numberAssign => "NumberAssign"
  | inputStatement => "InputStatement"
  | outputStatement => "OutputStatement"

end NodeKind

/-- What a statement is about: a variable, or a part that is none and so has no name. -/
inductive Target where
  | named (span : Span) (name : String)
  | misplaced (span : Span) (kind : NodeKind)
  deriving DecidableEq, Repr

/-- The span of a target. -/
def Target.span : Target → Span
  | named span _ => span
  | misplaced span _ => span

/-- An expression for a number. -/
inductive NumberExpr where
  | literal (span : Span) (value : Int)
  | reference (span : Span) (name : String)
  | binary (span : Span) (symbol : String) (left right : NumberExpr)
  | misplaced (span : Span) (kind : NodeKind)
  deriving DecidableEq, Repr

/-- The span of an expression. -/
def NumberExpr.span : NumberExpr → Span
  | literal span _ => span
  | reference span _ => span
  | binary span _ _ _ => span
  | misplaced span _ => span

/-- An expression for a text. -/
inductive TextExpr where
  | literal (span : Span) (value : String)
  | reference (span : Span) (name : String)
  | concat (span : Span) (left right : TextExpr)
  | misplaced (span : Span) (kind : NodeKind)
  deriving DecidableEq, Repr

namespace TextExpr

/-- The span of an expression. -/
def span : TextExpr → Span
  | literal span _ => span
  | reference span _ => span
  | concat span _ _ => span
  | misplaced span _ => span

/-- The leftmost part of an expression that is no concatenation. -/
def firstLeaf : TextExpr → TextExpr
  | concat _ left _ => left.firstLeaf
  | leaf => leaf

/-- Whether an expression starts with a reference. -/
def startsWithReference (expr : TextExpr) : Bool :=
  match expr.firstLeaf with
  | reference _ _ => true
  | _ => false

end TextExpr

/-- A statement. -/
inductive Statement where
  | text (span : Span) (target : Target) (value : TextExpr)
  | number (span : Span) (target : Target) (value : NumberExpr)
  | input (span : Span) (target : Target)
  | output (span : Span) (target : Target)
  | misplaced (span : Span) (kind : NodeKind)
  deriving DecidableEq, Repr

namespace Statement

/-- The span of a statement. -/
def span : Statement → Span
  | text span _ _ => span
  | number span _ _ => span
  | input span _ => span
  | output span _ => span
  | misplaced span _ => span

/-- The kind of a statement. -/
def kind : Statement → NodeKind
  | text _ _ _ => .textAssign
  | number _ _ _ => .numberAssign
  | input _ _ => .inputStatement
  | output _ _ => .outputStatement
  | misplaced _ kind => kind

end Statement

end LineScript
