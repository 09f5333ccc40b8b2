import LineScript.Proofs.Token.Scanning

/-!
# Where pieces and flaws stand on a line

A piece of a line is a stretch of the line: its text starts in its column (`LineCut.on`). A flaw
covers characters of its line only (`within_of_linePieces`). The scanners count columns by hand,
from one run to the next, so each statement about a part of a line is made for any text `before`
that part, with the column of the part as its length.
-/

set_option autoImplicit false

namespace LineScript.Scan

open Text

/-! ## Pieces -/

/-- A piece of a line: its text stands in its column, and it does not end the line. -/
structure Piece.On (line : List Char) (piece : Piece) : Prop where
  stands : ∃ before after, line = before ++ (piece.text ++ after) ∧ before.length = piece.column
  inner : piece.kind.endsLine = false

theorem on_wordPiece (before rest : List Char) {column : Nat} {word : List Char} {piece : Piece}
    (hcolumn : before.length = column) (h : piece ∈ wordPiece column word) :
    piece.On (before ++ (word ++ rest)) := by
  simp only [wordPiece] at h
  split at h
  · simp at h
  · rw [List.mem_singleton] at h
    subst h
    exact ⟨⟨before, rest, rfl, hcolumn⟩, rfl⟩

theorem on_namePiece (before rest : List Char) {column : Nat} {name : List Char} {piece : Piece}
    (hcolumn : before.length = column) (h : piece ∈ namePiece column name) :
    piece.On (before ++ (name ++ rest)) := by
  simp only [namePiece] at h
  split at h
  · simp at h
  · rw [List.mem_singleton] at h
    subst h
    exact ⟨⟨before, rest, rfl, hcolumn⟩, rfl⟩

theorem TextCut.on (before : List Char) {column : Nat} {cs : List Char} {pieces : List Piece}
    (h : TextCut column cs pieces) (hcolumn : before.length = column) :
    ∀ piece ∈ pieces, piece.On (before ++ cs) := by
  -- The text before the part that is left grows by what each rule takes off its front.
  induction h generalizing before with
  | @word column word hword =>
    intro piece hpiece
    simpa using on_wordPiece before [] hcolumn hpiece
  | @dollar column word rest more hword _ ih =>
    intro piece hpiece
    rcases List.mem_cons.1 hpiece with rfl | hpiece
    · exact ⟨⟨before, '$' :: rest, by simp, hcolumn⟩, rfl⟩
    · have hlength : (before ++ word ++ ['$', '$']).length = column + word.length + 2 := by
        simp only [List.length_append, List.length_cons, List.length_nil]
        omega
      simpa using ih _ hlength piece hpiece
  | @reference column word name rest more hword hname hrest _ ih =>
    intro piece hpiece
    rcases List.mem_append.1 hpiece with hpiece | hpiece
    · exact on_wordPiece before _ hcolumn hpiece
    · rcases List.mem_cons.1 hpiece with rfl | hpiece
      · refine ⟨⟨before ++ word ++ ['$'], '$' :: rest, by simp, ?_⟩, rfl⟩
        simp only [List.length_append, List.length_cons, List.length_nil]
        omega
      · have hlength : (before ++ word ++ '$' :: (name ++ ['$'])).length =
            column + word.length + name.length + 2 := by
          simp only [List.length_append, List.length_cons, List.length_nil]
          omega
        simpa using ih _ hlength piece hpiece
  | @blank column word rest c more hword hc _ ih =>
    intro piece hpiece
    rcases List.mem_append.1 hpiece with hpiece | hpiece
    · exact on_wordPiece before _ hcolumn hpiece
    · have hlength : (before ++ word ++ [c]).length = column + word.length + 1 := by
        simp only [List.length_append, List.length_cons, List.length_nil]
        omega
      simpa using ih _ hlength piece hpiece

theorem OperandCut.on (before rest : List Char) {column : Nat} {text : List Char} {piece : Piece}
    (h : OperandCut column text piece) (hcolumn : before.length = column) :
    piece.On (before ++ (text ++ rest)) := by
  cases h with
  | digits hne hdigits => exact ⟨⟨before, rest, rfl, hcolumn⟩, rfl⟩
  | @reference name hname =>
    refine ⟨⟨before ++ ['$'], '$' :: rest, by simp, ?_⟩, rfl⟩
    simp only [List.length_append, List.length_cons, List.length_nil]
    omega

theorem NumberCut.on (before : List Char) {column : Nat} {cs : List Char} {pieces : List Piece}
    (h : NumberCut column cs pieces) (hcolumn : before.length = column) :
    ∀ piece ∈ pieces, piece.On (before ++ cs) := by
  induction h generalizing before with
  | @last column lead text trail operand hlead hoperand htrail =>
    intro piece hpiece
    rw [List.mem_singleton.1 hpiece]
    have hlength : (before ++ lead).length = column + lead.length := by
      rw [List.length_append, hcolumn]
    simpa using hoperand.on (before ++ lead) trail hlength
  | @link column lead text gap rest operand more op hlead hoperand hgap _ ih =>
    intro piece hpiece
    have hlength : (before ++ lead).length = column + lead.length := by
      rw [List.length_append, hcolumn]
    rcases List.mem_cons.1 hpiece with rfl | hpiece
    · simpa using hoperand.on (before ++ lead) (gap ++ op.char :: rest) hlength
    · rcases List.mem_cons.1 hpiece with rfl | hpiece
      · refine ⟨⟨before ++ lead ++ text ++ gap, rest, by simp, ?_⟩, rfl⟩
        simp only [List.length_append]
        omega
      · have hnext : (before ++ lead ++ text ++ gap ++ [op.char]).length =
            column + lead.length + text.length + gap.length + 1 := by
          simp only [List.length_append, List.length_cons, List.length_nil]
          omega
        simpa using ih _ hnext piece hpiece

theorem TailCut.on (before : List Char) {column : Nat} {keyword : Keyword} {cs : List Char}
    {pieces : List Piece} (h : TailCut column keyword cs pieces)
    (hcolumn : before.length = column) : ∀ piece ∈ pieces, piece.On (before ++ cs) := by
  have hnext : (before ++ ['=']).length = column + 1 := by
    rw [List.length_append, hcolumn, List.length_singleton]
  intro piece hpiece
  cases h with
  | nothing keyword => simp at hpiece
  | @text value more hvalue =>
    rcases List.mem_cons.1 hpiece with rfl | hpiece
    · exact ⟨⟨before, value, rfl, hcolumn⟩, rfl⟩
    · simpa using hvalue.on (before ++ ['=']) hnext piece hpiece
  | @number value more hvalue =>
    rcases List.mem_cons.1 hpiece with rfl | hpiece
    · exact ⟨⟨before, value, rfl, hcolumn⟩, rfl⟩
    · simpa using hvalue.on (before ++ ['=']) hnext piece hpiece

/-- The pieces of a line stand on it. -/
theorem LineCut.on {cs : List Char} {pieces : List Piece} (h : LineCut cs pieces) :
    ∀ piece ∈ pieces, piece.On cs := by
  intro piece hpiece
  cases h with
  | empty hcs => simp at hpiece
  | @statement keyword lead gap name space tail more hlead hgap hname hspace hword hbare htail =>
    rcases List.mem_append.1 hpiece with hpiece | hpiece
    · rcases List.mem_cons.1 hpiece with rfl | hpiece
      · exact ⟨⟨lead, gap ++ (name ++ (space ++ tail)), rfl, rfl⟩, rfl⟩
      · have hlength : (lead ++ keyword.word.toList ++ gap).length =
            lead.length + keyword.word.toList.length + gap.length := by
          simp only [List.length_append]
        simpa using on_namePiece (lead ++ keyword.word.toList ++ gap) (space ++ tail) hlength hpiece
    · have hlength : (lead ++ keyword.word.toList ++ gap ++ name ++ space).length =
          lead.length + keyword.word.toList.length + gap.length + name.length + space.length := by
        simp only [List.length_append]
      simpa using
        htail.on (lead ++ keyword.word.toList ++ gap ++ name ++ space) hlength piece hpiece

/-! ## Flaws -/

theorem length_nextWord_le (cs : List Char) : (nextWord cs).length ≤ cs.length :=
  (List.takeWhile_prefix _).length_le

/-- A flaw of a reference covers at most the dollar sign that opens it and the text after it. -/
theorem within_of_reference {column : Nat} {cs : List Char} {flaw : Flaw}
    (h : reference column cs = .error flaw) :
    flaw.column + flaw.width ≤ column + 1 + cs.length := by
  obtain ⟨name, rest, rfl, hname, hrest⟩ := exists_run isNameChar cs
  simp only [reference, takeWhile_run hname hrest, dropWhile_run hname hrest] at h
  rw [List.length_append]
  split at h
  · split at h
    · cases h
      simp only [List.length_cons]
      omega
    · cases h
      simp only
      omega
  · split at h
    · cases h
      simp only [List.length_cons]
      omega
    · cases h
    · cases h
      simp only
      omega

theorem within_of_textPieces {column : Nat} {cs : List Char} {flaw : Flaw}
    (h : textPieces column cs = .error flaw) : flaw.column + flaw.width ≤ column + cs.length := by
  induction cs using textInduction generalizing column with
  | word word hword =>
    rw [textPieces_word column hword] at h
    cases h
  | dollar word rest hword ih =>
    rw [textPieces_dollar column hword, bind_eq_error_iff] at h
    simp only [List.length_append, List.length_cons]
    rcases h with h | ⟨more, -, h⟩
    · have hflaw := ih h
      omega
    · cases h
  | reference word rest hword hrest ih =>
    rw [textPieces_reference column hword hrest] at h
    simp only [List.length_append, List.length_cons]
    split at h
    · next href =>
      cases h
      have hflaw := within_of_reference href
      omega
    · next name after href =>
      obtain ⟨text, htext, rfl, hafter, rfl⟩ := reference_eq_ok_iff.1 href
      rcases bind_eq_error_iff.1 h with h | ⟨more, -, h⟩
      · have hflaw := ih (text ++ ['$']) after (by simp) h
        simp only at hflaw
        simp only [List.length_append, List.length_cons]
        omega
      · cases h
  | blank word c rest hword hc ih =>
    rw [textPieces_blank column hword hc, bind_eq_error_iff] at h
    simp only [List.length_append, List.length_cons]
    rcases h with h | ⟨more, -, h⟩
    · have hflaw := ih h
      omega
    · cases h

theorem within_of_operand {last : Bool} {column : Nat} {cs : List Char} {flaw : Flaw}
    (h : operand last column cs = .error flaw) : flaw.column + flaw.width ≤ column + cs.length := by
  simp only [operand] at h
  split at h
  · cases h
    simp
  · split at h
    · next href =>
      cases h
      have hflaw := within_of_reference href
      simp only [List.length_cons]
      omega
    · cases h
  · split at h
    · cases h
      exact Nat.add_le_add_left (length_nextWord_le _) column
    · cases h

theorem within_of_numberPieces {last : Bool} {column : Nat} {cs : List Char} {flaw : Flaw}
    (h : numberPieces last column cs = .error flaw) :
    flaw.column + flaw.width ≤ column + cs.length := by
  have hlead : ∀ cs : List Char, cs.length = blanks cs + (skipBlanks cs).length := by
    intro cs
    obtain ⟨lead, hcs, -, hcount⟩ := exists_blanks cs
    rw [hcount, ← List.length_append, ← hcs]
  fun_induction numberPieces last column cs with
  | case1 column cs flaw' hoperand =>
    cases h
    have hflaw := within_of_operand hoperand
    have hcs := hlead cs
    omega
  | case2 column cs piece next rest hoperand hend => cases h
  | case3 column cs piece next rest hoperand c after hnext hop =>
    cases h
    obtain ⟨text, htext, rfl, -⟩ := operandCut_of_operand hoperand
    have hword := length_nextWord_le (c :: after)
    have hcs := hlead cs
    have hrest := hlead rest
    rw [htext, List.length_append] at hcs
    rw [hnext] at hrest
    simp only [wordFlaw]
    omega
  | case4 column cs piece next rest hoperand c after hnext op hop ih =>
    obtain ⟨text, htext, rfl, -⟩ := operandCut_of_operand hoperand
    have hcs := hlead cs
    have hrest := hlead rest
    rw [htext, List.length_append] at hcs
    rw [hnext, List.length_cons] at hrest
    rcases bind_eq_error_iff.1 h with h | ⟨more, -, h⟩
    · have hflaw := ih h
      omega
    · cases h

theorem within_of_tailPieces {last : Bool} {keyword : Keyword} {column : Nat} {cs : List Char}
    {flaw : Flaw} (h : tailPieces last keyword column cs = .error flaw) :
    flaw.column + flaw.width ≤ column + cs.length := by
  cases cs with
  | nil => cases h
  | cons c rest =>
    have hword : column + (nextWord (c :: rest)).length ≤ column + (c :: rest).length :=
      Nat.add_le_add_left (length_nextWord_le _) column
    cases keyword with
    | text =>
      simp only [tailPieces] at h
      split at h
      · rcases bind_eq_error_iff.1 h with h | ⟨value, -, h⟩
        · have hflaw := within_of_textPieces h
          rw [List.length_cons]
          omega
        · cases h
      · cases h
        exact hword
    | number =>
      simp only [tailPieces] at h
      split at h
      · rcases bind_eq_error_iff.1 h with h | ⟨value, -, h⟩
        · have hflaw := within_of_numberPieces h
          rw [List.length_cons]
          omega
        · cases h
      · cases h
        exact hword
    | input =>
      cases h
      exact hword
    | output =>
      cases h
      exact hword

theorem within_of_statementPieces {last : Bool} {column : Nat} {cs : List Char} {flaw : Flaw}
    (h : statementPieces last column cs = .error flaw) :
    flaw.column + flaw.width ≤ column + cs.length := by
  -- A missing keyword is blamed on the first word; every other flaw is one of what follows.
  obtain ⟨word, after, rfl, hword, hafter⟩ := exists_run (fun c => !isSpace c) cs
  obtain ⟨gap, fromName, rfl, hgap, hfrom⟩ := exists_run isBlank after
  obtain ⟨name, afterName, rfl, hname, hafterName⟩ := exists_run isNameChar fromName
  obtain ⟨space, tail, rfl, hspace, htail⟩ := exists_run isBlank afterName
  rw [statementPieces_eq last column (fun c hc => by simpa using hword c hc) hafter hgap hfrom
    hname hafterName hspace htail] at h
  simp only [List.length_append]
  split at h
  · cases h
    simp only
    omega
  · rcases bind_eq_error_iff.1 h with h | ⟨pieces, -, h⟩
    · have hflaw := within_of_tailPieces h
      omega
    · cases h

/-- A flaw covers characters of its line only. -/
theorem within_of_linePieces {last : Bool} {cs : List Char} {flaw : Flaw}
    (h : linePieces last cs = .error flaw) : flaw.column + flaw.width ≤ cs.length := by
  obtain ⟨lead, hcs, -, hcount⟩ := exists_blanks cs
  have hlength : cs.length = lead.length + (skipBlanks cs).length := by
    rw [← List.length_append, ← hcs]
  simp only [linePieces] at h
  split at h
  · cases h
  · next c rest hskip =>
    have hflaw := within_of_statementPieces h
    rw [hcount, ← hskip] at hflaw
    omega

end LineScript.Scan
