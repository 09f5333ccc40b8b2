import LineScript.Token.Scan
import Mathlib

/-!
# Classes of characters and runs of them

A line is read in runs: blanks, characters of a name, digits, characters of a word. A run is as long
as it can be, so it ends where the line ends or at a character of another class. The classes
therefore have to exclude each other where one run follows another; `of_isSpace` settles all that is
asked about white space by going through the table of it.
-/

set_option autoImplicit false

namespace LineScript.Text

/-! ## White space and the other classes -/

/-- The code points of a table, one by one. -/
def codePoints (table : Ranges) : List Nat :=
  table.flatMap fun range => List.range' range.1 (range.2 + 1 - range.1)

theorem toNat_mem_codePoints {table : Ranges} {c : Char} (h : table.holds c = true) :
    c.toNat ∈ codePoints table := by
  obtain ⟨range, hrange, hfirst, hlast⟩ := (table.holds_iff c).1 h
  refine List.mem_flatMap.2 ⟨range, hrange, ?_⟩
  rw [List.mem_range'_1]
  omega

/-- What holds of every code point of white space holds of every white space character. -/
theorem of_isSpace {motive : Char → Prop}
    (hall : ∀ n ∈ codePoints spaceRanges, motive (Char.ofNat n)) {c : Char}
    (h : isSpace c = true) : motive c := by
  have hc := hall _ (toNat_mem_codePoints h)
  rwa [Char.ofNat_toNat] at hc

/-- A class without code points of white space has no white space. -/
theorem isSpace_eq_false {p : Char → Bool}
    (hall : ∀ n ∈ codePoints spaceRanges, p (Char.ofNat n) = false) {c : Char}
    (h : p c = true) : isSpace c = false := by
  apply Bool.eq_false_iff.2
  intro hspace
  have hc : p c = false := of_isSpace (motive := fun c => p c = false) hall hspace
  exact Bool.false_ne_true (hc.symm.trans h)

theorem isSpace_of_isNameChar {c : Char} (h : isNameChar c = true) : isSpace c = false :=
  isSpace_eq_false (by decide +kernel) h

theorem isSpace_of_isDigit {c : Char} (h : c.isDigit = true) : isSpace c = false :=
  isSpace_eq_false (by decide +kernel) h

theorem isSpace_of_isBlank {c : Char} (h : isBlank c = true) : isSpace c = true := by
  simp only [isBlank, Bool.and_eq_true] at h
  exact h.1

theorem isNameChar_of_isBlank {c : Char} (h : isBlank c = true) : isNameChar c = false :=
  of_isSpace (motive := fun c => isNameChar c = false) (by decide +kernel) (isSpace_of_isBlank h)

theorem isDigit_of_isBlank {c : Char} (h : isBlank c = true) : c.isDigit = false :=
  of_isSpace (motive := fun c => c.isDigit = false) (by decide +kernel) (isSpace_of_isBlank h)

theorem ne_dollar_of_isBlank {c : Char} (h : isBlank c = true) : c ≠ '$' :=
  of_isSpace (motive := fun c => c ≠ '$') (by decide +kernel) (isSpace_of_isBlank h)

/-! ## Runs -/

/-- The text is over or goes on with a character outside of the class. -/
def Leaves (p : Char → Bool) (cs : List Char) : Prop := ∀ c ∈ cs.head?, p c = false

theorem leaves_nil (p : Char → Bool) : Leaves p [] := by simp [Leaves]

theorem leaves_cons_iff {p : Char → Bool} {c : Char} {cs : List Char} :
    Leaves p (c :: cs) ↔ p c = false := by
  simp [Leaves]

/-- A class is left where a run of characters outside of it begins, or after it if it is empty. -/
theorem leaves_append {p : Char → Bool} {run rest : List Char} (hrun : ∀ c ∈ run, p c = false)
    (hrest : Leaves p rest) : Leaves p (run ++ rest) := by
  cases run with
  | nil => exact hrest
  | cons c run => exact leaves_cons_iff.2 (hrun c List.mem_cons_self)

theorem takeWhile_run {p : Char → Bool} {run rest : List Char} (hrun : ∀ c ∈ run, p c = true)
    (hrest : Leaves p rest) : (run ++ rest).takeWhile p = run := by
  rw [List.takeWhile_append_of_pos hrun]
  cases rest with
  | nil => simp
  | cons c rest => simp [leaves_cons_iff.1 hrest]

theorem dropWhile_run {p : Char → Bool} {run rest : List Char} (hrun : ∀ c ∈ run, p c = true)
    (hrest : Leaves p rest) : (run ++ rest).dropWhile p = rest := by
  rw [List.dropWhile_append_of_pos hrun]
  cases rest with
  | nil => rfl
  | cons c rest => simp [leaves_cons_iff.1 hrest]

theorem leaves_dropWhile (p : Char → Bool) (cs : List Char) : Leaves p (cs.dropWhile p) := by
  intro c hc
  have h := List.head?_dropWhile_not p cs
  rw [Option.mem_def.1 hc] at h
  exact h

/-- Every text starts with a run of a class and leaves the class after it. -/
theorem exists_run (p : Char → Bool) (cs : List Char) :
    ∃ run rest, cs = run ++ rest ∧ (∀ c ∈ run, p c = true) ∧ Leaves p rest :=
  ⟨cs.takeWhile p, cs.dropWhile p, List.takeWhile_append_dropWhile.symm,
    fun _ hc => List.mem_takeWhile_imp hc, leaves_dropWhile p cs⟩

/-- Nothing but blanks. -/
def Blanks (cs : List Char) : Prop := ∀ c ∈ cs, isBlank c = true

/-- A variable name: one or more name characters. -/
def IsName (cs : List Char) : Prop := cs ≠ [] ∧ ∀ c ∈ cs, isNameChar c = true

/-- A name does not start with a dollar sign. -/
theorem IsName.head?_ne_dollar {name rest : List Char} (h : IsName name) :
    (name ++ rest).head? ≠ some '$' := by
  obtain ⟨hne, hall⟩ := h
  cases name with
  | nil => exact absurd rfl hne
  | cons c name =>
    intro hhead
    obtain rfl : c = '$' := Option.some.inj hhead
    exact absurd (hall '$' List.mem_cons_self) (by decide)

theorem blanks_nil : Blanks [] := List.forall_mem_nil _

end LineScript.Text

namespace LineScript

open Text

/-- The operator of a character is the one that is written as it. -/
theorem Operator.ofChar?_eq_some_iff {c : Char} {op : Operator} :
    Operator.ofChar? c = some op ↔ c = op.char := by
  constructor
  · intro h
    simp only [Operator.ofChar?] at h
    split_ifs at h with hadd hsub hmul hdiv <;> cases h <;> assumption
  · rintro rfl
    exact op.ofChar?_char

theorem Operator.char_not_blank (op : Operator) : isBlank op.char = false := by
  cases op <;> decide

theorem Operator.char_not_digit (op : Operator) : op.char.isDigit = false := by
  cases op <;> decide

theorem Operator.char_ne_dollar (op : Operator) : op.char ≠ '$' := by
  cases op <;> decide

/-- The keyword of a word is the one that is written as it. -/
theorem Keyword.ofWord?_eq_some_iff {word : List Char} {keyword : Keyword} :
    Keyword.ofWord? word = some keyword ↔ word = keyword.word.toList := by
  constructor
  · intro h
    simp only [Keyword.ofWord?] at h
    split_ifs at h with htext hnumber hinput houtput <;> cases h <;> assumption
  · rintro rfl
    cases keyword <;> decide

theorem Keyword.isSpace_word (keyword : Keyword) :
    ∀ c ∈ keyword.word.toList, isSpace c = false := by
  have hword : (keyword.word.toList.all fun c => !isSpace c) = true := by
    cases keyword <;> decide
  intro c hc
  simpa using List.all_eq_true.1 hword c hc

theorem Keyword.word_ne_nil (keyword : Keyword) : keyword.word.toList ≠ [] := by
  cases keyword <;> decide

namespace Scan

theorem skipBlanks_append {lead rest : List Char} (hlead : Blanks lead)
    (hrest : Leaves isBlank rest) : skipBlanks (lead ++ rest) = rest :=
  dropWhile_run hlead hrest

theorem blanks_append {lead rest : List Char} (hlead : Blanks lead)
    (hrest : Leaves isBlank rest) : blanks (lead ++ rest) = lead.length := by
  rw [blanks, takeWhile_run hlead hrest]

theorem skipBlanks_of_blanks {cs : List Char} (h : Blanks cs) : skipBlanks cs = [] := by
  simpa using skipBlanks_append h (leaves_nil isBlank)

/-- A character that is not part of a word is a dollar sign or a blank. -/
theorem isWordChar_eq_false_iff {c : Char} :
    isWordChar c = false ↔ c = '$' ∨ isBlank c = true := by
  by_cases hb : isBlank c = true <;> by_cases hd : c = '$' <;> simp [isWordChar, hb, hd]

theorem isWordChar_eq_true_iff {c : Char} :
    isWordChar c = true ↔ isBlank c = false ∧ c ≠ '$' := by
  simp [isWordChar]

end Scan

end LineScript
