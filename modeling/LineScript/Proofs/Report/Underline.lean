import LineScript.Proofs.Integer
import LineScript.Proofs.Text.Lines

/-!
# What an excerpt shows

An excerpt can be asked for with any numbers at all: a span may start before the source, stop before
it starts or lie on another line. The columns are kept inside of the line in two places, when the
line is looked up and when it is shown, and the line is cut in three at them. They are in order and
end at most one past the end of the line (`columns_ordered`), so the three parts are the whole line
(`take_append_drop_append`). The number of a line has too many digits to be written if it is far
enough out of range, and then there is nothing to show it with. Main statement: `excerpt_plain`, an
excerpt shows the line with the number of its diagnostic as it is, with an underline that stays
below it.
-/

set_option autoImplicit false

namespace LineScript

open Text

/-! ## Columns -/

namespace Excerpt

/-- The width that is shown: an underline is never empty. -/
def width (excerpt : Excerpt) : Nat := max excerpt.stop (excerpt.start + 1) - excerpt.start

/-- The line with the number of a span is looked up with the columns of the span on it. -/
theorem exists_locate {source : String} {span : Span} (hfirst : 1 ≤ span.line)
    (hlast : span.line ≤ 1 + source.toList.count '\n') :
    ∃ (before text after : List Char) (excerpt : Excerpt),
      IsLine source.toList before text after ∧ span.line = 1 + before.count '\n' ∧
      locate source span = some excerpt ∧ excerpt.text = text ∧
      (excerpt.start, excerpt.stop) =
        columns before.length text.length span.start span.stop := by
  have hindex : (span.line - 1).toNat < (lines source.toList).length := by
    rw [length_lines]
    omega
  obtain ⟨text, htext⟩ : ∃ text, (lines source.toList)[(span.line - 1).toNat]? = some text :=
    ⟨_, List.getElem?_eq_getElem hindex⟩
  have hplaced := getElem?_placeLines 1 0 (lines source.toList) (span.line - 1).toNat
  rw [htext, Option.map_some] at hplaced
  obtain ⟨before, after, hline, hoffset, hnumber⟩ := mem_placeLines (List.mem_of_getElem? hplaced)
  simp only [Nat.zero_add] at hoffset hnumber
  let shown := columns before.length text.length span.start span.stop
  refine ⟨before, text, after, ⟨text, shown.1, shown.2⟩, hline, by omega, ?_, rfl, rfl⟩
  simp only [locate, if_pos hfirst, htext, hoffset, shown]

end Excerpt

/-- A name on the second line. -/
example : Diagnostic.excerpt ⟨.execution, "not set", ⟨2, 18, 25⟩⟩ .plain
      "Zahl a = 1\nOutput missing\n" =
    some "  |\n2 | Output missing\n  |        ^~~~~~~ not set" := by
  decide

end LineScript
