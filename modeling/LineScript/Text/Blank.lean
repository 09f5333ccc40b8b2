/-!
# White space

A character class beyond ASCII is a table of closed intervals of code points; here is the shape of
such a table, and the table of white space. White space separates the words of a statement. The line
feed is white space too, but it ends the statement; every other white space character is a *blank*.
-/

set_option autoImplicit false

namespace LineScript.Text

/-- Closed intervals of code points, given by their first and last member. -/
abbrev Ranges := List (Nat × Nat)

/-- A character belongs to a table when some interval of it holds the character's code point. -/
def Ranges.holds (table : Ranges) (c : Char) : Bool :=
  table.any fun range => decide (range.1 ≤ c.toNat) && decide (c.toNat ≤ range.2)

/-- Membership in a table, said without the search. -/
theorem Ranges.holds_iff (table : Ranges) (c : Char) :
    table.holds c = true ↔ ∃ range ∈ table, range.1 ≤ c.toNat ∧ c.toNat ≤ range.2 := by
  simp [Ranges.holds]

/-- The white space characters: the ASCII controls from tab to carriage return, the four ASCII
separators, the space, and the spaces and line separators beyond ASCII. -/
def spaceRanges : Ranges :=
  [(0x9, 0xd), (0x1c, 0x20), (0x85, 0x85), (0xa0, 0xa0), (0x1680, 0x1680), (0x2000, 0x200a),
   (0x2028, 0x2029), (0x202f, 0x202f), (0x205f, 0x205f), (0x3000, 0x3000)]

/-- Whether a character is white space. -/
def isSpace (c : Char) : Bool :=
  spaceRanges.holds c

/-- A blank separates words inside a statement: any white space but the line feed. -/
def isBlank (c : Char) : Bool :=
  isSpace c && c != '\n'

/-- Drops the white space at both ends of a text. -/
def strip (cs : List Char) : List Char :=
  ((cs.dropWhile isSpace).reverse.dropWhile isSpace).reverse

theorem isSpace_newline : isSpace '\n' = true := by decide

/-- Away from the line feed, blanks and white space are the same. -/
theorem isBlank_eq_isSpace {c : Char} (h : c ≠ '\n') : isBlank c = isSpace c := by
  simp [isBlank, h]

end LineScript.Text
