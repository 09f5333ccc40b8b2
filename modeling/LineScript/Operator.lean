import LineScript.Integer

/-!
# Arithmetic operators

The four operators, the characters they are written as, and their wrapped results. Main statement:
`Operator.apply_eq_none_iff`, only a division by zero has no result.
-/

set_option autoImplicit false

namespace LineScript

/-- The arithmetic operators. They have no precedence. -/
inductive Operator where
  | add
  | sub
  | mul
  | div
  deriving DecidableEq, Repr

namespace Operator

/-- The character an operator is written as. -/
def char : Operator → Char
  | add => '+'
  | sub => '-'
  | mul => '*'
  | div => '/'

/-- The text an operator is written as. -/
def symbol (op : Operator) : String := op.char.toString

/-- The operator that a character is. -/
def ofChar? (c : Char) : Option Operator :=
  if c = '+' then some add
  else if c = '-' then some sub
  else if c = '*' then some mul
  else if c = '/' then some div
  else none

/-- The operator that a text is. -/
def ofSymbol? (symbol : String) : Option Operator :=
  match symbol.toList with
  | [c] => ofChar? c
  | _ => none

/-- The wrapped result of an operator; a division by zero has none. -/
def apply : Operator → Int → Int → Option Int
  | add, left, right => some (Integer.wrap (left + right))
  | sub, left, right => some (Integer.wrap (left - right))
  | mul, left, right => some (Integer.wrap (left * right))
  | div, left, right => if right = 0 then none else some (Integer.wrap (left.tdiv right))

theorem ofChar?_char (op : Operator) : ofChar? op.char = some op := by
  cases op <;> rfl

/-- Only a division by zero has no result. -/
theorem apply_eq_none_iff (op : Operator) (left right : Int) :
    op.apply left right = none ↔ op = div ∧ right = 0 := by
  cases op <;> simp [apply]

end Operator

end LineScript
