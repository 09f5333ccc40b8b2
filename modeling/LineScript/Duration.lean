import LineScript.Integer

/-!
# Clocks and durations

A clock tells the time in ticks, 2^20 of which make a second. It is the sequence of what its
readings will be; the last of them stays for ever. The time between two readings is held with 53
significant bits: a reading, a difference and a product are each rounded to the nearest number of
so many bits, and a tie goes to the even one. Numbers below 2^53 are held as they are.
-/

set_option autoImplicit false

namespace LineScript.CommandLine

/-- What the readings of a clock will be. -/
structure Clock where
  readings : List Int
  deriving DecidableEq, Repr

namespace Clock

/-- Reads a clock. -/
def read (clock : Clock) : Int × Clock :=
  match clock.readings with
  | [] => (0, clock)
  | [ticks] => (ticks, clock)
  | ticks :: rest => (ticks, ⟨rest⟩)

end Clock

end LineScript.CommandLine

namespace LineScript.Duration

/-- The number of significant bits of a time. -/
def precision : Nat := 53

/-- A quotient rounded to the nearest integer, a tie to the even one. -/
def divNearest (n d : Nat) : Nat :=
  let quotient := n / d
  let twice := 2 * (n % d)
  if twice < d ∨ (twice = d ∧ quotient % 2 = 0) then quotient else quotient + 1

/-- A size rounded to the significant bits. -/
def roundSize (size : Nat) : Nat :=
  if size < Nat.pow 2 precision then size
  else
    -- The unit in the last place: the bits of the size beyond the significant ones.
    let unit := Nat.pow 2 (size.log2 + 1 - precision)
    divNearest size unit * unit

/-- An integer rounded to the significant bits. -/
def round (n : Int) : Int := n.sign * roundSize n.natAbs

/-- The ticks from one reading to another. -/
def between (start stop : Int) : Int := round (round stop - round start)

/-- A duration in parts of a second, of which there are `parts`. The fraction is dropped. -/
def count (parts ticks : Int) : Int := (round (ticks * parts)).tdiv 1048576

/-- The text of a duration: in microseconds below a millisecond, else in milliseconds. -/
def render (ticks : Int) : String :=
  if ticks ≤ 1048 then s!"{Integer.render (count 1000000 ticks)} µs"
  else s!"{Integer.render (count 1000 ticks)} ms"

end LineScript.Duration
