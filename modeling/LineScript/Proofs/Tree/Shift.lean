import LineScript.Proofs.Tree.Program

/-!
# Programs that are moved

Lines in front of a program move all of its spans by the same number of lines and characters, and
change nothing else. `shift` does this to trees. Trees are put together from spans only by taking
the start of one and the end of another, so moved tokens make up the moved tree (`LineTree.shift`),
and moved lines make up the moved program (`SourceTree.shift`).
-/

set_option autoImplicit false

namespace LineScript

open Scan Parse Text

/-! ## Moving trees -/

/-- Something that came from a stretch of a source, moved along with the source. -/
def Located.shift {α : Type} (located : Located α) (lines characters : Int) : Located α :=
  { located with span := located.span.shift lines characters }

/-- A target with its span moved. -/
def Target.shift (target : Target) (lines characters : Int) : Target :=
  match target with
  | .named span name => .named (span.shift lines characters) name
  | .misplaced span kind => .misplaced (span.shift lines characters) kind

/-- An expression for a number with all of its spans moved. -/
def NumberExpr.shift (expr : NumberExpr) (lines characters : Int) : NumberExpr :=
  match expr with
  | .literal span value => .literal (span.shift lines characters) value
  | .reference span name => .reference (span.shift lines characters) name
  | .binary span symbol left right =>
    .binary (span.shift lines characters) symbol (left.shift lines characters)
      (right.shift lines characters)
  | .misplaced span kind => .misplaced (span.shift lines characters) kind

/-- An expression for a text with all of its spans moved. -/
def TextExpr.shift (expr : TextExpr) (lines characters : Int) : TextExpr :=
  match expr with
  | .literal span value => .literal (span.shift lines characters) value
  | .reference span name => .reference (span.shift lines characters) name
  | .concat span left right =>
    .concat (span.shift lines characters) (left.shift lines characters)
      (right.shift lines characters)
  | .misplaced span kind => .misplaced (span.shift lines characters) kind

/-- A statement with all of its spans moved. -/
def Statement.shift (statement : Statement) (lines characters : Int) : Statement :=
  match statement with
  | .text span target value =>
    .text (span.shift lines characters) (target.shift lines characters)
      (value.shift lines characters)
  | .number span target value =>
    .number (span.shift lines characters) (target.shift lines characters)
      (value.shift lines characters)
  | .input span target => .input (span.shift lines characters) (target.shift lines characters)
  | .output span target => .output (span.shift lines characters) (target.shift lines characters)
  | .misplaced span kind => .misplaced (span.shift lines characters) kind

section

variable (lines characters : Int)

theorem NumberExpr.span_shift (expr : NumberExpr) :
    (expr.shift lines characters).span = expr.span.shift lines characters := by
  cases expr <;> rfl

theorem TextExpr.span_shift (expr : TextExpr) :
    (expr.shift lines characters).span = expr.span.shift lines characters := by
  cases expr <;> rfl

theorem Span.upTo_shift (first last : Span) :
    (first.shift lines characters).upTo (last.shift lines characters) =
      (first.upTo last).shift lines characters := rfl

/-- Spans that are moved alike end in the same order as before. -/
theorem Span.further_shift (a b : Span) :
    (a.shift lines characters).further (b.shift lines characters) =
      (a.further b).shift lines characters := by
  simp only [further, shift, add_lt_add_iff_right]
  split <;> rfl

/-! ## Moving tokens -/

namespace Parse

theorem textLeaf?_shift {token : Token} {leaf : TextExpr} (h : textLeaf? token = some leaf) :
    textLeaf? (token.shift lines characters) = some (leaf.shift lines characters) := by
  rcases textLeaf?_eq_some_iff.1 h with ⟨hkind, rfl⟩ | ⟨hkind, rfl⟩
  · exact textLeaf?_eq_some_iff.2 (Or.inl ⟨hkind, rfl⟩)
  · exact textLeaf?_eq_some_iff.2 (Or.inr ⟨hkind, rfl⟩)

theorem TextTree.shift {tokens : List Token} {value : TextExpr} (h : TextTree tokens value) :
    TextTree (tokens.map fun token => token.shift lines characters)
      (value.shift lines characters) := by
  induction h with
  | leaf hleaf => exact .leaf (textLeaf?_shift lines characters hleaf)
  | @concat token leaf rest value hleaf _ ih =>
    have htree := TextTree.concat (textLeaf?_shift lines characters hleaf) ih
    rwa [TextExpr.span_shift, TextExpr.span_shift, Span.upTo_shift] at htree

theorem NumberLeaf.shift {token : Token} {leaf : NumberExpr} (h : NumberLeaf token leaf) :
    NumberLeaf (token.shift lines characters) (leaf.shift lines characters) := by
  cases h with
  | literal hkind hread => exact .literal hkind hread
  | reference hkind => exact .reference hkind

theorem ChainTree.shift {left value : NumberExpr} {tokens : List Token}
    (h : ChainTree left tokens value) :
    ChainTree (left.shift lines characters)
      (tokens.map fun token => token.shift lines characters) (value.shift lines characters) := by
  induction h with
  | done left => exact .done _
  | @link left leaf value sign operand rest op hsign hleaf _ ih =>
    have hmoved : (sign.shift lines characters).kind = .operator op := hsign
    apply ChainTree.link hmoved (hleaf.shift lines characters)
    rw [NumberExpr.span_shift, NumberExpr.span_shift, Span.upTo_shift]
    exact ih

/-- Moved tokens make up the moved statement. -/
theorem LineTree.shift {tokens : List Token} {parsed : Statement} (h : LineTree tokens parsed) :
    LineTree (tokens.map fun token => token.shift lines characters)
      (parsed.shift lines characters) := by
  have hspan : ∀ first name value : Span,
      ((first.upTo (name.further value)).shift lines characters) =
        (first.shift lines characters).upTo
          ((name.shift lines characters).further (value.shift lines characters)) := by
    intro first name value
    rw [Span.further_shift, Span.upTo_shift]
  cases h with
  | emptyText hfirst hname =>
    simp only [Statement.shift, hspan]
    exact .emptyText hfirst hname
  | text hfirst hname hequal hvalue =>
    simp only [Statement.shift, hspan, ← TextExpr.span_shift]
    exact .text hfirst hname hequal (hvalue.shift lines characters)
  | zeroNumber hfirst hname =>
    simp only [Statement.shift, hspan]
    exact .zeroNumber hfirst hname
  | number hfirst hname hequal hleaf hchain =>
    simp only [Statement.shift, hspan, ← NumberExpr.span_shift]
    exact .number hfirst hname hequal (hleaf.shift lines characters)
      (hchain.shift lines characters)
  | input hfirst hname => exact .input hfirst hname
  | output hfirst hname => exact .output hfirst hname

theorem LineHolds.shift {tokens : List Token} {found : Option Statement}
    (h : LineHolds tokens found) :
    LineHolds (tokens.map fun token => token.shift lines characters)
      (found.map fun parsed => parsed.shift lines characters) := by
  cases found with
  | none => exact List.map_eq_nil_iff.2 h
  | some parsed => exact LineTree.shift lines characters h

end Parse

end

/-! ## Moving lines -/

/-- A span of columns moves with its line. -/
theorem Scan.place_shift (line offset lines characters column width : Nat) :
    place (line + lines) (offset + characters) column width =
      (place line offset column width).shift lines characters := by
  simp only [place, Span.shift, Span.mk.injEq]
  omega

theorem Scan.Piece.place_shift (line offset lines characters : Nat) (piece : Piece) :
    piece.place (line + lines) (offset + characters) =
      (piece.place line offset).shift lines characters := by
  simp only [Piece.place, Token.shift, Scan.place_shift]

namespace Text.PlacedLine

/-- A line with further lines in front of it. -/
def shift (line : PlacedLine) (lines characters : Nat) : PlacedLine :=
  ⟨line.number + lines, line.offset + characters, line.text⟩

theorem tokens_shift (line : PlacedLine) (lines characters : Nat) (pieces : List Piece) :
    (line.shift lines characters).tokens pieces =
      (line.tokens pieces).map fun token => token.shift lines characters := by
  simp only [tokens, shift, List.map_map]
  apply List.map_congr_left
  intro piece _
  exact piece.place_shift line.number line.offset lines characters

theorem stop_shift (line : PlacedLine) (lines characters : Nat) (last : Bool) :
    (line.shift lines characters).stop last = (line.stop last).shift lines characters := by
  cases last <;> simp [stop, shift, Token.shift, Scan.place_shift]

end Text.PlacedLine

theorem Text.placeLines_shift (number offset lines characters : Nat) (ls : List (List Char)) :
    placeLines (number + lines) (offset + characters) ls =
      (placeLines number offset ls).map fun line => line.shift lines characters := by
  induction ls generalizing number offset with
  | nil => rfl
  | cons l ls ih =>
    rw [placeLines, placeLines, List.map_cons, ← ih]
    congr 2 <;> omega

/-- Lines that are moved hold the moved statements. -/
theorem SourceTree.shift {source : List PlacedLine} {tokens : List Token}
    {statements : List Statement} (h : SourceTree source tokens statements)
    (lines characters : Nat) :
    SourceTree (source.map fun line => line.shift lines characters)
      (tokens.map fun token => token.shift lines characters)
      (statements.map fun statement => statement.shift lines characters) := by
  have hheld : ∀ {line : PlacedLine} {pieces : List Piece} {found : Option Statement},
      LineHolds (line.tokens pieces) found →
        LineHolds ((line.shift lines characters).tokens pieces)
          (found.map fun parsed => parsed.shift lines characters) := by
    intro line pieces found hfound
    rw [PlacedLine.tokens_shift]
    exact hfound.shift lines characters
  induction h with
  | @last line pieces found hcut hfound =>
    have hline : LineCut (line.shift lines characters).text pieces := hcut
    have hmoved := SourceTree.last hline (hheld hfound)
    rw [PlacedLine.tokens_shift, PlacedLine.stop_shift] at hmoved
    cases found <;> simpa using hmoved
  | @more line others pieces found tokens statements hcut hfound _ ih =>
    have hline : LineCut (line.shift lines characters).text pieces := hcut
    have hmoved := SourceTree.more hline (hheld hfound) ih
    rw [PlacedLine.tokens_shift, PlacedLine.stop_shift] at hmoved
    cases found <;> simpa using hmoved

end LineScript
