/-!
# Integers of 64 bits

Numbers are signed integers of 64 bits. Arithmetic is done on unbounded integers and the result is
wrapped into the range, like in a machine register; division drops the fraction, so it goes toward
zero. A text reads as a number when it is an optional sign and decimal digits whose value lies in
the range. Between integers and their texts nothing of more than `digitLimit` digits is converted:
reading such a text is a failure of its own, and such an integer cannot be written.
-/

set_option autoImplicit false

namespace LineScript

namespace Integer

/-- The least integer of 64 bits. -/
def least : Int := -9223372036854775808

/-- The greatest integer of 64 bits. -/
def greatest : Int := 9223372036854775807

/-- The integers of 64 bits. -/
def InRange (n : Int) : Prop := least ≤ n ∧ n ≤ greatest

instance (n : Int) : Decidable (InRange n) := inferInstanceAs (Decidable (_ ∧ _))

/-- The integer of 64 bits that is congruent to `n` modulo 2^64. -/
def wrap (n : Int) : Int := n.bmod 18446744073709551616

theorem wrap_inRange (n : Int) : InRange (wrap n) := by
  simp only [InRange, least, greatest, wrap, Int.bmod]
  omega

theorem wrap_eq_self {n : Int} (h : InRange n) : wrap n = n := by
  simp only [InRange, least, greatest, wrap, Int.bmod] at *
  omega

/-- What a text is when it is read as an integer. -/
inductive Reading where
  | integer (n : Int)
  | notAnInteger
  | tooManyDigits (count : Nat)
  deriving DecidableEq, Repr

/-- The number of digits, leading zeros included, beyond which nothing is converted. -/
def digitLimit : Nat := 4300

/-- The sign of a written integer, and the text after it. -/
def splitSign : List Char → Bool × List Char
  | '+' :: digits => (false, digits)
  | '-' :: digits => (true, digits)
  | digits => (false, digits)

/-- Reads a text as an integer of any size. -/
def convert (text : String) : Reading :=
  let (negative, digits) := splitSign text.toList
  if digits.isEmpty || !digits.all Char.isDigit then .notAnInteger
  else if digitLimit < digits.length then .tooManyDigits digits.length
  else
    let size : Int := Nat.ofDigitChars 10 digits 0
    .integer (if negative then -size else size)

/-- Reads a text as an integer of 64 bits. -/
def read (text : String) : Reading :=
  match convert text with
  | .integer n => if InRange n then .integer n else .notAnInteger
  | reading => reading

/-- An integer in base ten, with a minus sign if it is negative. -/
def render (n : Int) : String :=
  match n with
  | .ofNat size => size.repr
  | .negSucc size => "-" ++ (size + 1).repr

/-- An integer in base ten, unless it has too many digits to be written. -/
def write? (n : Int) : Option String :=
  if digitLimit < n.natAbs.repr.length then none else some (render n)

/-- The message of a text with too many digits. -/
def tooManyDigitsMessage (count : Nat) : String :=
  s!"Exceeds the limit ({digitLimit} digits) for integer string conversion: value has {count} " ++
    "digits; use sys.set_int_max_str_digits() to increase the limit"

/-- The message of an integer with too many digits. -/
def unwritableMessage : String :=
  s!"Exceeds the limit ({digitLimit} digits) for integer string conversion; use " ++
    "sys.set_int_max_str_digits() to increase the limit"

end Integer

end LineScript
