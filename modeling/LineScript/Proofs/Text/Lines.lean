import LineScript.Text.Lines
import LineScript.Report.Excerpt
import Mathlib

/-!
# Where the lines of a text stand

A line of a text has a number, counted from one, and an offset, the count of the characters before
it. `placeLines` hands both out by walking over the lines, which is how a scanner counts, and
`mem_placeLines` says that they are right: the text before a line has as many characters as its
offset says and one line feed less than its number says. `getElem?_placeLines` compares with the
other way to count, by adding up the lengths of the lines before.

Proofs about lines go by `linesInduction`: a text has no line feed, or it is a line, a line feed and
a text.
-/

set_option autoImplicit false

namespace LineScript.Text

/-! ## Cutting at line feeds -/

/-- A text without line feeds is one line. -/
theorem lines_of_not_mem {cs : List Char} (h : '\n' ∉ cs) : lines cs = [cs] := by
  induction cs with
  | nil => rfl
  | cons c cs ih =>
    simp only [List.mem_cons, not_or] at h
    obtain ⟨hc, hcs⟩ := h
    simp [lines, Ne.symm hc, ih hcs]

/-- The first line of a text ends at the first line feed. -/
theorem lines_append_newline {cs : List Char} (h : '\n' ∉ cs) (rest : List Char) :
    lines (cs ++ '\n' :: rest) = cs :: lines rest := by
  induction cs with
  | nil => simp [lines]
  | cons c cs ih =>
    simp only [List.mem_cons, not_or] at h
    obtain ⟨hc, hcs⟩ := h
    simp [lines, Ne.symm hc, ih hcs]

/-- A text has no line feed, or its first line feed ends a line. -/
theorem exists_line (cs : List Char) :
    '\n' ∉ cs ∨ ∃ line rest, '\n' ∉ line ∧ cs = line ++ '\n' :: rest := by
  induction cs with
  | nil => exact Or.inl List.not_mem_nil
  | cons c cs ih =>
    by_cases hc : c = '\n'
    · subst hc
      exact Or.inr ⟨[], cs, List.not_mem_nil, rfl⟩
    · rcases ih with hcs | ⟨line, rest, hline, rfl⟩
      · exact Or.inl (by simp [Ne.symm hc, hcs])
      · exact Or.inr ⟨c :: line, rest, by simp [Ne.symm hc, hline], rfl⟩

/-- Induction over the lines of a text. -/
theorem linesInduction {motive : List Char → Prop}
    (single : ∀ line, '\n' ∉ line → motive line)
    (more : ∀ line rest, '\n' ∉ line → motive rest → motive (line ++ '\n' :: rest)) :
    ∀ cs, motive cs := by
  intro cs
  -- The rest after a line feed is shorter, but no direct part of the text as a list.
  induction hn : cs.length using Nat.strongRecOn generalizing cs with
  | ind n ih =>
    rcases exists_line cs with hcs | ⟨line, rest, hline, rfl⟩
    · exact single cs hcs
    · refine more line rest hline (ih rest.length ?_ rest rfl)
      simp only [List.length_append, List.length_cons] at hn
      omega

/-- The lines of two texts with a line feed between them are those of the one and then those of the
other. -/
theorem lines_append (first second : List Char) :
    lines (first ++ '\n' :: second) = lines first ++ lines second := by
  induction first using linesInduction with
  | single line hline =>
    rw [lines_append_newline hline, lines_of_not_mem hline]
    rfl
  | more line rest hline ih =>
    rw [lines_append_newline hline, List.append_assoc, List.cons_append,
      lines_append_newline hline, ih, List.cons_append]

/-- A line holds no line feed. -/
theorem newline_not_mem_of_mem_lines {cs line : List Char} (h : line ∈ lines cs) :
    '\n' ∉ line := by
  induction cs using linesInduction with
  | single first hfirst =>
    rw [lines_of_not_mem hfirst, List.mem_singleton] at h
    exact h ▸ hfirst
  | more first rest hfirst ih =>
    rw [lines_append_newline hfirst, List.mem_cons] at h
    rcases h with rfl | h
    · exact hfirst
    · exact ih h

/-! ## Cutting after line feeds -/

/-- A text without line feeds is read at once, unless there is nothing to read. -/
theorem terminatedLines_of_not_mem {cs : List Char} (h : '\n' ∉ cs) (hne : cs ≠ []) :
    terminatedLines cs = [cs] := by
  induction cs with
  | nil => exact absurd rfl hne
  | cons c cs ih =>
    simp only [List.mem_cons, not_or] at h
    obtain ⟨hc, hcs⟩ := h
    cases cs with
    | nil => simp [terminatedLines, Ne.symm hc]
    | cons d cs => rw [terminatedLines, if_neg (Ne.symm hc), ih hcs (List.cons_ne_nil d cs)]

/-- The first line that is read ends with the first line feed. -/
theorem terminatedLines_append_newline {cs : List Char} (h : '\n' ∉ cs) (rest : List Char) :
    terminatedLines (cs ++ '\n' :: rest) = (cs ++ ['\n']) :: terminatedLines rest := by
  induction cs with
  | nil => simp [terminatedLines]
  | cons c cs ih =>
    simp only [List.mem_cons, not_or] at h
    obtain ⟨hc, hcs⟩ := h
    simp [terminatedLines, Ne.symm hc, ih hcs]

/-- A line that is read has a line feed at its end only. -/
theorem newline_not_mem_dropLast {cs line : List Char} (h : line ∈ terminatedLines cs) :
    '\n' ∉ line.dropLast := by
  induction cs using linesInduction with
  | single first hfirst =>
    cases first with
    | nil => cases h
    | cons c first =>
      rw [terminatedLines_of_not_mem hfirst (List.cons_ne_nil c first), List.mem_singleton] at h
      intro hmem
      exact hfirst (h ▸ List.mem_of_mem_dropLast hmem)
  | more first rest hfirst ih =>
    rw [terminatedLines_append_newline hfirst, List.mem_cons] at h
    rcases h with rfl | h
    · rwa [List.dropLast_concat]
    · exact ih h

/-- A line that is read is not empty. -/
theorem ne_nil_of_mem_terminatedLines {cs line : List Char} (h : line ∈ terminatedLines cs) :
    line ≠ [] := by
  induction cs using linesInduction with
  | single first hfirst =>
    cases first with
    | nil => cases h
    | cons c first =>
      rw [terminatedLines_of_not_mem hfirst (List.cons_ne_nil c first), List.mem_singleton] at h
      rw [h]
      exact List.cons_ne_nil c first
  | more first rest hfirst ih =>
    rw [terminatedLines_append_newline hfirst, List.mem_cons] at h
    rcases h with rfl | h
    · exact List.append_ne_nil_of_right_ne_nil first (List.cons_ne_nil _ [])
    · exact ih h

/-! ## Numbers and offsets -/

/-- A line, its number and the offset at which it starts. -/
structure PlacedLine where
  number : Nat
  offset : Nat
  text : List Char
  deriving DecidableEq, Repr

/-- Consecutive lines, the first of which has the given number and starts at the given offset. -/
def placeLines (number offset : Nat) : List (List Char) → List PlacedLine
  | [] => []
  | line :: more =>
    ⟨number, offset, line⟩ :: placeLines (number + 1) (offset + line.length + 1) more

theorem map_text_placeLines (number offset : Nat) (ls : List (List Char)) :
    (placeLines number offset ls).map PlacedLine.text = ls := by
  induction ls generalizing number offset with
  | nil => rfl
  | cons l ls ih => simp [placeLines, ih]

theorem map_placeLines_eq_zipIdx (number offset : Nat) (ls : List (List Char)) :
    (placeLines number offset ls).map (fun line => (line.text, line.number)) =
      ls.zipIdx number := by
  induction ls generalizing number offset with
  | nil => rfl
  | cons l ls ih => simp [placeLines, ih, List.zipIdx_cons]

theorem placeLines_append (number offset : Nat) (first second : List (List Char)) :
    placeLines number offset (first ++ second) =
      placeLines number offset first ++
        placeLines (number + first.length) (offset + Excerpt.offsetAfter first) second := by
  induction first generalizing number offset with
  | nil => rfl
  | cons line more ih =>
    simp only [List.cons_append, placeLines, ih, Excerpt.offsetAfter, List.length_cons]
    congr 3 <;> omega

/-- A text has one line more than it has line feeds. -/
theorem length_lines (cs : List Char) : (lines cs).length = 1 + cs.count '\n' := by
  induction cs using linesInduction with
  | single line hline =>
    rw [lines_of_not_mem hline, List.count_eq_zero.2 hline]
    rfl
  | more line rest hline ih =>
    rw [lines_append_newline hline, List.length_cons, ih, List.count_append,
      List.count_eq_zero.2 hline, List.count_cons_self]
    omega

/-- A line after the lines of a text starts after the whole text and one more line feed. -/
theorem offsetAfter_lines (cs : List Char) : Excerpt.offsetAfter (lines cs) = cs.length + 1 := by
  induction cs using linesInduction with
  | single line hline =>
    rw [lines_of_not_mem hline]
    rfl
  | more line rest hline ih =>
    rw [lines_append_newline hline, Excerpt.offsetAfter, ih, List.length_append, List.length_cons]
    omega

theorem le_number_of_mem_placeLines {number offset : Nat} {ls : List (List Char)}
    {line : PlacedLine} (h : line ∈ placeLines number offset ls) : number ≤ line.number := by
  induction ls generalizing number offset with
  | nil => simp [placeLines] at h
  | cons l ls ih =>
    rw [placeLines, List.mem_cons] at h
    rcases h with rfl | h
    · exact Nat.le_refl _
    · exact Nat.le_of_succ_le (ih h)

/-- The numbers of consecutive lines go up. -/
theorem pairwise_placeLines (number offset : Nat) (ls : List (List Char)) :
    (placeLines number offset ls).Pairwise fun a b => a.number < b.number := by
  induction ls generalizing number offset with
  | nil => exact List.Pairwise.nil
  | cons l ls ih =>
    apply List.Pairwise.cons _ (ih _ _)
    intro line hline
    exact Nat.lt_of_succ_le (le_number_of_mem_placeLines hline)

/-- A line of a text, with the characters before it and after it: it goes from one line feed to the
next, or from the start of the text or to its end. -/
structure IsLine (cs before line after : List Char) : Prop where
  eq : cs = before ++ (line ++ after)
  start : before = [] ∨ before.getLast? = some '\n'
  free : '\n' ∉ line
  stop : after = [] ∨ after.head? = some '\n'

/-- A placed line of a text is one of its lines, and its offset and its number count the characters
and the line feeds before it. -/
theorem mem_placeLines {cs : List Char} {number offset : Nat} {line : PlacedLine}
    (h : line ∈ placeLines number offset (lines cs)) :
    ∃ before after, IsLine cs before line.text after ∧ line.offset = offset + before.length ∧
      line.number = number + before.count '\n' := by
  induction cs using linesInduction generalizing number offset with
  | single first hfirst =>
    rw [lines_of_not_mem hfirst] at h
    simp only [placeLines, List.mem_singleton] at h
    subst h
    exact ⟨[], [], ⟨by simp, Or.inl rfl, hfirst, Or.inl rfl⟩, rfl, rfl⟩
  | more first rest hfirst ih =>
    rw [lines_append_newline hfirst, placeLines, List.mem_cons] at h
    rcases h with rfl | h
    · exact ⟨[], '\n' :: rest, ⟨by simp, Or.inl rfl, hfirst, Or.inr rfl⟩, rfl, rfl⟩
    · obtain ⟨before, after, hline, hoffset, hnumber⟩ := ih h
      have hcount : first.count '\n' = 0 := List.count_eq_zero.2 hfirst
      refine ⟨first ++ '\n' :: before, after, ⟨?_, Or.inr ?_, hline.free, hline.stop⟩, ?_, ?_⟩
      · rw [hline.eq]
        simp
      · rcases hline.start with rfl | hlast
        · simp
        · simp [List.getLast?_cons, hlast]
      · rw [hoffset, List.length_append, List.length_cons]
        omega
      · rw [hnumber, List.count_append, hcount, List.count_cons_self]
        omega

theorem newline_not_mem_of_mem_placeLines {cs : List Char} {number offset : Nat}
    {line : PlacedLine} (h : line ∈ placeLines number offset (lines cs)) : '\n' ∉ line.text := by
  obtain ⟨before, after, hline, -⟩ := mem_placeLines h
  exact hline.free

/-- The line at an index: the index gives its number, and the lengths of the lines before it, with a
line feed for each, give its offset. -/
theorem getElem?_placeLines (number offset : Nat) (ls : List (List Char)) (index : Nat) :
    (placeLines number offset ls)[index]? = ls[index]?.map fun text =>
      ⟨number + index, offset + Excerpt.offsetAfter (ls.take index), text⟩ := by
  induction ls generalizing number offset index with
  | nil => simp [placeLines]
  | cons l ls ih =>
    cases index with
    | zero => simp [placeLines, Excerpt.offsetAfter]
    | succ index =>
      simp only [placeLines, List.getElem?_cons_succ, ih, List.take_succ_cons,
        Excerpt.offsetAfter]
      congr 1
      funext text
      simp only [PlacedLine.mk.injEq, and_true]
      omega

/-- The place of a line, counted from the list of all lines. -/
theorem getElem?_of_mem_placeLines {number offset : Nat} {ls : List (List Char)}
    {line : PlacedLine} (h : line ∈ placeLines number offset ls) :
    ∃ index, ls[index]? = some line.text ∧ line.number = number + index ∧
      line.offset = offset + Excerpt.offsetAfter (ls.take index) := by
  obtain ⟨index, hindex⟩ := List.mem_iff_getElem?.1 h
  rw [getElem?_placeLines] at hindex
  obtain ⟨text, htext, rfl⟩ := Option.map_eq_some_iff.1 hindex
  exact ⟨index, htext, rfl, rfl⟩

end LineScript.Text
