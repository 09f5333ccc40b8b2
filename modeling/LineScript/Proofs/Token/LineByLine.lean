import LineScript.Proofs.Text.Lines
import LineScript.Proofs.Token.Cursor
import LineScript.Proofs.Token.Scanning

/-!
# A cursor scans line by line

Each scanner of a cursor does with a line, whatever follows the line, what the scanner of the line
does: it comes to the tokens of the same pieces or to the fault of the same flaw, and stops at the
line feed at the latest (`text_eq`, `number_eq`, `statement_eq`). That a line is the last shows to
it only by nothing being ahead. Main statement: `scan_eq`, a cursor over a source comes to the same
tokens or to the same fault as the scanner of lines.
-/

set_option autoImplicit false

namespace LineScript.Cursor

open Text

/-! ## The end of a line -/

/-- The source is over or goes on with a line feed. -/
def EndsLine (rest : List Char) : Prop := ∀ c ∈ rest.head?, c = '\n'

theorem endsLine_nil : EndsLine [] := by simp [EndsLine]

theorem endsLine_newline (rest : List Char) : EndsLine ('\n' :: rest) := by simp [EndsLine]

/-- A class without the line feed is left at the end of a line, if not before. -/
theorem EndsLine.leaves {rest : List Char} (h : EndsLine rest) {p : Char → Bool}
    (hp : p '\n' = false) : Leaves p rest := by
  intro c hc
  rw [h c hc, hp]

theorem EndsLine.leaves_append {rest : List Char} (h : EndsLine rest) {p : Char → Bool}
    (hp : p '\n' = false) {cs : List Char} (hcs : Leaves p cs) : Leaves p (cs ++ rest) := by
  cases cs with
  | nil => exact h.leaves hp
  | cons c cs => exact leaves_cons_iff.2 (leaves_cons_iff.1 hcs)

theorem EndsLine.head?_append_eq_dollar {rest : List Char} (h : EndsLine rest) (cs : List Char) :
    (cs ++ rest).head? = some '$' ↔ cs.head? = some '$' := by
  cases cs with
  | nil => exact ⟨fun hhead => absurd (h '$' hhead) (by decide), fun hhead => by cases hhead⟩
  | cons c cs => rfl

theorem EndsLine.eq_nil_or {rest : List Char} (h : EndsLine rest) :
    rest = [] ∨ ∃ more, rest = '\n' :: more := by
  cases rest with
  | nil => exact Or.inl rfl
  | cons c more => exact Or.inr ⟨more, by rw [h c rfl]⟩

/-! ## Cursors where a token starts -/

/-- A cursor where a token starts. -/
def resting (behind ahead : List Char) (line : Nat) (tokens : List Token) : Cursor :=
  ⟨behind, ahead, behind.length, line, tokens⟩

section Moves

variable {p : Char → Bool} {behind run word rest : List Char} {start line offset column : Nat}
  {tokens : List Token}

/-- The cursor is in the column of its line that the characters it has passed come to. -/
theorem length_passed (hcolumn : behind.length = offset + column) (cs : List Char) :
    (behind ++ cs).length = offset + (column + cs.length) := by
  rw [List.length_append, hcolumn, Nat.add_assoc]

theorem skip_run (hrun : ∀ c ∈ run, p c = true) (hrest : Leaves p rest) :
    skip ⟨behind, run ++ rest, start, line, tokens⟩ p =
      ⟨behind ++ run, rest, start, line, tokens⟩ := by
  simp only [skip, takeWhile_run hrun hrest, dropWhile_run hrun hrest]

theorem skipBlanks_run (hrun : Blanks run) (hrest : Leaves isBlank rest) :
    (resting behind (run ++ rest) line tokens).skipBlanks =
      resting (behind ++ run) rest line tokens := by
  rw [skipBlanks, resting, skip_run hrun hrest]
  rfl

theorem lexeme_word : lexeme ⟨behind ++ word, rest, behind.length, line, tokens⟩ = word :=
  List.drop_left

theorem span_eq {cursor : Cursor} {width : Nat} (hstart : cursor.start = offset + column)
    (hstop : cursor.behind.length = offset + column + width) :
    cursor.span = Scan.place cursor.line offset column width := by
  simp only [span, Cursor.offset, Scan.place, hstart, hstop]

theorem span_word (hcolumn : behind.length = offset + column) :
    span ⟨behind ++ word, rest, behind.length, line, tokens⟩ =
      Scan.place line offset column word.length :=
  span_eq hcolumn ((length_passed hcolumn word).trans (Nat.add_assoc _ _ _).symm)

theorem fault_eq {cursor : Cursor} {width : Nat} (cause : LexFault)
    (hstart : cursor.start = offset + column)
    (hstop : cursor.behind.length = offset + column + width) :
    cursor.fault cause = (Scan.Flaw.mk cause column width).place cursor.line offset :=
  congrArg (Located.mk cause) (span_eq hstart hstop)

/-- The token that is added is the piece that a line has there. -/
theorem emit_word (kind : Token.Kind) (hcolumn : behind.length = offset + column) :
    emit ⟨behind ++ word, rest, behind.length, line, tokens⟩ kind =
      resting (behind ++ word) rest line
        (tokens ++ [(Scan.Piece.mk kind word column).place line offset]) := by
  rw [emit, lexeme_word, span_word hcolumn]
  rfl

theorem next_emit {c : Char} (kind : Token.Kind) (hcolumn : behind.length = offset + column) :
    (resting behind (c :: rest) line tokens).next.emit kind =
      resting (behind ++ [c]) rest line
        (tokens ++ [(Scan.Piece.mk kind [c] column).place line offset]) :=
  emit_word kind hcolumn

theorem close_resting (kind : Token.Kind) :
    (resting behind rest line tokens).close kind = resting behind rest line tokens :=
  if_neg (Nat.lt_irrefl _)

theorem close_word (kind : Token.Kind) (hcolumn : behind.length = offset + column) :
    close ⟨behind ++ word, rest, behind.length, line, tokens⟩ kind =
      resting (behind ++ word) rest line
        (tokens ++ (if word.isEmpty then [] else [Scan.Piece.mk kind word column]).map
          (Scan.Piece.place line offset)) := by
  cases word with
  | nil =>
    rw [List.append_nil, ← resting, close_resting]
    simp
  | cons c word =>
    have hlt : behind.length < (behind ++ c :: word).length := by simp
    exact (if_pos hlt).trans (emit_word kind hcolumn)

/-- The characters up to the next white space are on the line. -/
theorem wordFault_eq {cs : List Char} (hrest : EndsLine rest) (cause : String → LexFault)
    (hcolumn : behind.length = offset + column) :
    (resting behind (cs ++ rest) line tokens).wordFault cause =
      (Scan.wordFlaw cause column cs).place line offset := by
  obtain ⟨word, after, rfl, hword, hafter⟩ := exists_run (fun c => !isSpace c) cs
  have hskip := hrest.leaves_append (by decide) hafter
  have hnext : Scan.nextWord (word ++ after) = word := takeWhile_run hword hafter
  rw [wordFault, resting, List.append_assoc, skip_run hword hskip]
  simp only [fault, lexeme_word, span_word hcolumn, Scan.wordFlaw, hnext, Scan.Flaw.place]

/-! ## References and texts -/

theorem skip_name {name : List Char} (hname : ∀ c ∈ name, isNameChar c = true)
    (hrest : Leaves isNameChar rest) :
    (resting behind ('$' :: (name ++ rest)) line tokens).next.restart.skip isNameChar =
      ⟨behind ++ ['$'] ++ name, rest, (behind ++ ['$']).length, line, tokens⟩ :=
  skip_run hname hrest

theorem reference_of_name {name : List Char} (hname : IsName name) (hrest : rest.head? ≠ some '$')
    (hcolumn : behind.length = offset + column) :
    (resting behind ('$' :: (name ++ '$' :: rest)) line tokens).reference =
      .ok (resting (behind ++ '$' :: (name ++ ['$'])) rest line
        (tokens ++ [(Scan.Piece.mk .identifier name (column + 1)).place line offset])) := by
  have hleaves : Leaves isNameChar ('$' :: rest) := leaves_cons_iff.2 (by decide)
  have hopen : (behind ++ ['$']).length = offset + (column + 1) := length_passed hcolumn ['$']
  rw [reference, skip_name hname.2 hleaves]
  simp only [lexeme_word, List.isEmpty_iff, hname.1, if_false, List.head?_cons, if_true,
    emit_word .identifier hopen]
  refine (if_neg hrest).trans ?_
  simp [next, restart, resting, Cursor.offset]

theorem reference_of_error {cs : List Char} {flaw : Scan.Flaw} (hrest : EndsLine rest)
    (hcolumn : behind.length = offset + column) (h : Scan.reference column cs = .error flaw) :
    (resting behind ('$' :: (cs ++ rest)) line tokens).reference =
      .error (flaw.place line offset) := by
  obtain ⟨name, after, rfl, hname, hafter⟩ := exists_run isNameChar cs
  rw [reference, List.append_assoc, skip_name hname (hrest.leaves_append (by decide) hafter)]
  simp only [Scan.reference, takeWhile_run hname hafter, dropWhile_run hname hafter] at h
  simp only [lexeme_word, hrest.head?_append_eq_dollar]
  split at h
  · next hempty =>
    rw [if_pos hempty]
    obtain rfl := List.isEmpty_iff.1 hempty
    split at h <;> cases h
    · refine (if_pos rfl).trans (congrArg Except.error (fault_eq _ hcolumn ?_))
      simp [next, hcolumn]
    · next hnot =>
      rw [if_neg fun hhead => (List.head?_eq_some_iff.1 hhead).elim hnot]
      refine congrArg Except.error (fault_eq _ hcolumn ?_)
      simp [hcolumn]
  · next hempty =>
    rw [if_neg hempty]
    split at h
    · cases h
      refine (if_pos rfl).trans ((if_pos rfl).trans (congrArg Except.error (fault_eq _ ?_ ?_)))
      · simp [next, emit, Cursor.offset, hcolumn]
        omega
      · simp [next, emit, hcolumn]
        omega
    · cases h
    · next hnot =>
      cases h
      rw [if_neg fun hhead => (List.head?_eq_some_iff.1 hhead).elim hnot]
      refine congrArg Except.error (fault_eq _ hcolumn ?_)
      simp [hcolumn]
      omega

/-- The outcome of a scan that goes over a part of a line: the tokens of its pieces, or the fault of
the flaw in it. -/
def came (line offset : Nat) (behind ahead : List Char) (tokens : List Token) :
    Except Scan.Flaw (List Scan.Piece) → Except (Located LexFault) Cursor
  | .error flaw => .error (flaw.place line offset)
  | .ok pieces =>
    .ok (resting behind ahead line (tokens ++ pieces.map (Scan.Piece.place line offset)))

/-- Pieces that are found first stand before those that are found later. -/
theorem came_bind {ahead : List Char} (front : List Scan.Piece)
    {more : Except Scan.Flaw (List Scan.Piece)}
    {f : List Scan.Piece → Except Scan.Flaw (List Scan.Piece)}
    (hf : ∀ pieces, f pieces = .ok (front ++ pieces)) :
    came line offset behind ahead tokens (more >>= f) =
      came line offset behind ahead (tokens ++ front.map (Scan.Piece.place line offset)) more := by
  cases more with
  | error flaw => rfl
  | ok pieces =>
    rw [show Except.ok pieces >>= f = f pieces from rfl, hf, came, came, List.map_append,
      List.append_assoc]

/-! ### The steps of a text -/

section Steps

variable {cursor : Cursor}

theorem text_end (hrest : EndsLine cursor.ahead) : cursor.text = .ok (cursor.close .value) := by
  rw [text_step]
  obtain hahead | ⟨more, hahead⟩ := hrest.eq_nil_or
  · rw [hahead]
  · rw [hahead]
    rfl

theorem text_blank {c : Char} (hahead : cursor.ahead = c :: rest) (hc : isBlank c = true) :
    cursor.text = (cursor.close .value).skipBlanks.text := by
  have hline : c ≠ '\n' := by
    rintro rfl
    exact absurd hc (by decide)
  rw [text_step, hahead]
  exact (if_neg hline).trans (if_pos hc)

theorem text_dollar (hahead : cursor.ahead = '$' :: '$' :: rest) :
    cursor.text = (cursor.next.emit .value).next.restart.text := by
  rw [text_step, hahead]
  rfl

theorem text_reference (hahead : cursor.ahead = '$' :: rest) (hrest : rest.head? ≠ some '$') :
    cursor.text = (cursor.close .value).reference >>= text := by
  rw [text_step, hahead]
  exact if_neg hrest

end Steps

/-- The cursor goes through a word character by character. -/
theorem text_word (hword : Scan.IsWord word) (hfree : '\n' ∉ word) :
    text ⟨behind, word ++ rest, start, line, tokens⟩ =
      text ⟨behind ++ word, rest, start, line, tokens⟩ := by
  induction word generalizing behind with
  | nil => rw [List.append_nil, List.nil_append]
  | cons c word ih =>
    obtain ⟨hblank, hdollar⟩ := Scan.isWordChar_eq_true_iff.1 (hword c List.mem_cons_self)
    obtain ⟨hc, hfree⟩ := List.ne_and_not_mem_of_not_mem_cons hfree
    have hstep : text ⟨behind, c :: word ++ rest, start, line, tokens⟩ =
        text ⟨behind ++ [c], word ++ rest, start, line, tokens⟩ := by
      rw [text_step]
      simp [hblank, hdollar, hc.symm, next]
    rw [hstep, ih (fun d hd => hword d (List.mem_cons_of_mem c hd)) hfree, List.append_assoc,
      List.singleton_append]

/-- A doubled dollar sign ends the word before it. -/
theorem text_doubled (hcolumn : behind.length = offset + column) :
    text ⟨behind ++ word, '$' :: '$' :: rest, behind.length, line, tokens⟩ =
      text (resting (behind ++ word ++ ['$', '$']) rest line
        (tokens ++ [(Scan.Piece.mk .value (word ++ ['$']) column).place line offset])) := by
  have hnext : next ⟨behind ++ word, '$' :: '$' :: rest, behind.length, line, tokens⟩ =
      ⟨behind ++ (word ++ ['$']), '$' :: rest, behind.length, line, tokens⟩ := by
    rw [← List.append_assoc]
    rfl
  rw [text_dollar rfl, hnext, emit_word .value hcolumn]
  simp [next, restart, resting, Cursor.offset]

theorem skipBlanks_of_leaves (hrest : Leaves isBlank rest) :
    (resting behind rest line tokens).skipBlanks = resting behind rest line tokens := by
  simpa using skipBlanks_run blanks_nil hrest

theorem skipBlanks_blank {c : Char} (hc : isBlank c = true) :
    (resting behind (c :: rest) line tokens).skipBlanks =
      (resting (behind ++ [c]) rest line tokens).skipBlanks := by
  obtain ⟨run, after, rfl, hrun, hafter⟩ := exists_run isBlank rest
  rw [← List.cons_append, skipBlanks_run (List.forall_mem_cons.2 ⟨hc, hrun⟩) hafter,
    skipBlanks_run hrun hafter, List.append_assoc, List.singleton_append]

/-- Blanks before a word or a reference of a text make no difference. -/
theorem text_skipBlanks :
    (resting behind rest line tokens).skipBlanks.text = (resting behind rest line tokens).text := by
  cases rest with
  | nil => rw [skipBlanks_of_leaves (leaves_nil isBlank)]
  | cons c rest =>
    by_cases hc : isBlank c = true
    · have hahead : (resting behind (c :: rest) line tokens).ahead = c :: rest := rfl
      rw [text_blank hahead hc, close_resting]
    · rw [skipBlanks_of_leaves (leaves_cons_iff.2 (Bool.eq_false_iff.2 hc))]

/-- The scan of a text is the scan of its line, whatever follows the line. -/
theorem text_eq {cs : List Char} (hfree : '\n' ∉ cs) (hrest : EndsLine rest)
    (hcolumn : behind.length = offset + column) :
    (resting behind (cs ++ rest) line tokens).text =
      came line offset (behind ++ cs) rest tokens (Scan.textPieces column cs) := by
  -- In the steps of the scanner of texts, which takes one blank at a time where the cursor skips all
  -- of them at once.
  induction cs using Scan.textInduction generalizing behind column tokens with
  | word word hword =>
    rw [resting, text_word hword hfree, text_end hrest, close_word .value hcolumn,
      Scan.textPieces_word column hword]
    rfl
  | dollar word cs hword ih =>
    simp only [List.mem_append, List.mem_cons, not_or] at hfree
    have hstop := length_passed (length_passed hcolumn word) ['$', '$']
    rw [resting, List.append_assoc, text_word hword hfree.1, List.cons_append, List.cons_append,
      text_doubled hcolumn, ih hfree.2.2.2 hstop, Scan.textPieces_dollar column hword]
    refine Eq.trans ?_ (came_bind [⟨.value, word ++ ['$'], column⟩] fun _ => rfl).symm
    simp
  | reference word cs hword hcs ih =>
    simp only [List.mem_append, List.mem_cons, not_or] at hfree
    have hhead := (not_congr (hrest.head?_append_eq_dollar cs)).2 hcs
    have hopen := length_passed hcolumn word
    rw [resting, List.append_assoc, text_word hword hfree.1, List.cons_append,
      text_reference rfl hhead, close_word .value hcolumn,
      Scan.textPieces_reference column hword hcs]
    cases href : Scan.reference (column + word.length) cs with
    | error flaw =>
      rw [reference_of_error hrest hopen href]
      rfl
    | ok found =>
      obtain ⟨piece, after⟩ := found
      obtain ⟨name, hname, rfl, hafter, rfl⟩ := Scan.reference_eq_ok_iff.1 href
      have hhead' := (not_congr (hrest.head?_append_eq_dollar after)).2 hafter
      rw [List.append_assoc, List.cons_append, reference_of_name hname hhead' hopen]
      simp only [List.mem_append, List.mem_cons, not_or] at hfree
      have hstop : (behind ++ word ++ '$' :: (name ++ ['$'])).length =
          offset + (column + word.length + name.length + 2) := by
        simp only [List.length_append, hcolumn, List.length_cons, List.length_nil]
        omega
      refine Eq.trans (ih (name ++ ['$']) after (by simp) hfree.2.2.2.2 hstop) ?_
      simp only
      rw [came_bind (Scan.wordPiece column word ++
        [⟨.identifier, name, column + word.length + 1⟩]) fun _ => by simp]
      simp [Scan.wordPiece]
  | blank word c cs hword hc ih =>
    simp only [List.mem_append, List.mem_cons, not_or] at hfree
    have hstop := length_passed (length_passed hcolumn word) [c]
    rw [resting, List.append_assoc, text_word hword hfree.1, List.cons_append, text_blank rfl hc,
      close_word .value hcolumn, skipBlanks_blank hc, text_skipBlanks,
      Scan.textPieces_blank column hword hc, ih hfree.2.2 hstop,
      came_bind (Scan.wordPiece column word) fun _ => rfl]
    simp [Scan.wordPiece]

/-! ## Numbers -/

theorem operand_skipBlanks : (resting behind rest line tokens).skipBlanks.operand =
    (resting behind rest line tokens).operand := by
  obtain ⟨run, after, rfl, hrun, hafter⟩ := exists_run isBlank rest
  rw [operand, operand, skipBlanks_run hrun hafter, skipBlanks_of_leaves hafter]

/-- The blanks that a line has here are skipped, and what follows the line is not touched. -/
theorem skipBlanks_line (hrest : EndsLine rest) (cs : List Char) :
    (resting behind (cs ++ rest) line tokens).skipBlanks =
      resting (behind ++ cs.takeWhile isBlank) (Scan.skipBlanks cs ++ rest) line tokens := by
  obtain ⟨lead, after, rfl, hlead, hafter⟩ := exists_run isBlank cs
  rw [List.append_assoc, skipBlanks_run hlead (hrest.leaves_append (by decide) hafter),
    takeWhile_run hlead hafter, Scan.skipBlanks_append hlead hafter]

variable (line tokens) in
theorem operand_of_ok {last : Bool} {cs after : List Char} {piece : Scan.Piece} {stop : Nat}
    (hcs : Leaves isBlank cs) (hrest : EndsLine rest) (hcolumn : behind.length = offset + column)
    (h : Scan.operand last column cs = .ok (piece, stop, after)) :
    ∃ text, cs = text ++ after ∧ stop = column + text.length ∧
      (resting behind (cs ++ rest) line tokens).operand =
        .ok (resting (behind ++ text) (after ++ rest) line
          (tokens ++ [piece.place line offset])) := by
  have hskip : (resting behind (cs ++ rest) line tokens).skipBlanks =
      resting behind (cs ++ rest) line tokens :=
    skipBlanks_of_leaves (hrest.leaves_append (by decide) hcs)
  simp only [operand, hskip]
  simp only [Scan.operand] at h
  split at h
  · cases h
  · next cs =>
    split at h
    · cases h
    · next href =>
      cases h
      obtain ⟨name, hname, rfl, hafter, rfl⟩ := Scan.reference_eq_ok_iff.1 href
      have hhead := (not_congr (hrest.head?_append_eq_dollar after)).2 hafter
      refine ⟨'$' :: (name ++ ['$']), by simp, by simp; omega, ?_⟩
      rw [List.cons_append, List.append_assoc]
      exact reference_of_name hname hhead hcolumn
  · next hnil hdollar =>
    split at h
    · cases h
    · next hne =>
      cases h
      obtain ⟨digits, after, rfl, hdigits, hafter⟩ := exists_run Char.isDigit cs
      rw [takeWhile_run hdigits hafter] at hne ⊢
      rw [dropWhile_run hdigits hafter]
      refine ⟨digits, rfl, rfl, ?_⟩
      cases digits with
      | nil => exact absurd rfl hne
      | cons c digits =>
        refine (if_pos (hdigits c List.mem_cons_self)).trans (congrArg Except.ok ?_)
        rw [List.append_assoc, resting, skip_run hdigits (hrest.leaves_append (by decide) hafter)]
        exact emit_word .value hcolumn

theorem operand_of_error {cs : List Char} {flaw : Scan.Flaw} (hfree : '\n' ∉ cs)
    (hcs : Leaves isBlank cs) (hrest : EndsLine rest) (hcolumn : behind.length = offset + column)
    (h : Scan.operand rest.isEmpty column cs = .error flaw) :
    (resting behind (cs ++ rest) line tokens).operand = .error (flaw.place line offset) := by
  have hskip : (resting behind (cs ++ rest) line tokens).skipBlanks =
      resting behind (cs ++ rest) line tokens :=
    skipBlanks_of_leaves (hrest.leaves_append (by decide) hcs)
  simp only [operand, hskip]
  simp only [Scan.operand] at h
  split at h
  · cases h
    obtain rfl | ⟨more, rfl⟩ := hrest.eq_nil_or
    · exact congrArg Except.error (fault_eq _ hcolumn hcolumn)
    · exact congrArg Except.error (fault_eq _ hcolumn hcolumn)
  · next cs =>
    split at h
    · next href =>
      cases h
      exact reference_of_error hrest hcolumn href
    · cases h
  · next hnil hdollar =>
    split at h
    · next hempty =>
      cases h
      cases cs with
      | nil => exact (hnil rfl).elim
      | cons c cs =>
        have hdigit : ¬c.isDigit = true := fun hc => by simp [hc] at hempty
        have hsign : c ≠ '$' := fun e => hdollar cs (by rw [e])
        have hline : c ≠ '\n' := fun e => hfree (by simp [e])
        refine (if_neg hdigit).trans ((if_neg hsign).trans ((if_neg hline).trans ?_))
        exact congrArg Except.error (wordFault_eq hrest _ hcolumn)
    · cases h

variable (line tokens) in
theorem operand_line_ok {last : Bool} {cs after : List Char} {piece : Scan.Piece} {stop : Nat}
    (hrest : EndsLine rest) (hcolumn : behind.length = offset + column)
    (h : Scan.operand last (column + Scan.blanks cs) (Scan.skipBlanks cs) =
      .ok (piece, stop, after)) :
    ∃ front, cs = front ++ after ∧ stop = column + front.length ∧
      (resting behind (cs ++ rest) line tokens).operand =
        .ok (resting (behind ++ front) (after ++ rest) line
          (tokens ++ [piece.place line offset])) := by
  obtain ⟨text, htext, rfl, hoperand⟩ := operand_of_ok line tokens
    (leaves_dropWhile isBlank cs) hrest (length_passed hcolumn _) h
  refine ⟨cs.takeWhile isBlank ++ text, ?_, ?_, ?_⟩
  · rw [List.append_assoc, ← htext]
    exact List.takeWhile_append_dropWhile.symm
  · rw [List.length_append, Nat.add_assoc]
  · rw [← operand_skipBlanks, skipBlanks_line hrest, ← List.append_assoc]
    exact hoperand

theorem operand_line_error {cs : List Char} {flaw : Scan.Flaw} (hfree : '\n' ∉ cs)
    (hrest : EndsLine rest) (hcolumn : behind.length = offset + column)
    (h : Scan.operand rest.isEmpty (column + Scan.blanks cs) (Scan.skipBlanks cs) =
      .error flaw) :
    (resting behind (cs ++ rest) line tokens).operand = .error (flaw.place line offset) := by
  rw [← operand_skipBlanks, skipBlanks_line hrest]
  exact operand_of_error (fun hmem => hfree ((List.dropWhile_suffix isBlank).subset hmem))
    (leaves_dropWhile isBlank cs) hrest (length_passed hcolumn _) h

/-- The scan of a number is the scan of its line, whatever follows the line. What tells the last
line from the others is that nothing follows it. -/
theorem number_eq {cs : List Char} (hfree : '\n' ∉ cs) (hrest : EndsLine rest)
    (hcolumn : behind.length = offset + column) :
    (resting behind (cs ++ rest) line tokens).number =
      came line offset (behind ++ cs) rest tokens
        (Scan.numberPieces rest.isEmpty column cs) := by
  fun_induction Scan.numberPieces rest.isEmpty column cs generalizing behind tokens with
  | case1 column cs flaw hoperand =>
    exact number_of_error (operand_line_error hfree hrest hcolumn hoperand)
  | case2 column cs piece stop after hoperand hend =>
    obtain ⟨front, rfl, rfl, hcursor⟩ :=
      operand_line_ok line tokens hrest hcolumn hoperand
    have htrail : after.takeWhile isBlank = after := by
      have hafter : after.takeWhile isBlank ++ Scan.skipBlanks after = after :=
        List.takeWhile_append_dropWhile
      rwa [hend, List.append_nil] at hafter
    rw [number_of_ok hcursor, skipBlanks_line hrest, hend, htrail, List.append_assoc]
    obtain rfl | ⟨more, rfl⟩ := hrest.eq_nil_or <;> rfl
  | case3 column cs piece stop after hoperand c more hnext hop =>
    obtain ⟨front, rfl, rfl, hcursor⟩ :=
      operand_line_ok line tokens hrest hcolumn hoperand
    have hopen : (behind ++ front ++ after.takeWhile isBlank).length =
        offset + (column + front.length + Scan.blanks after) :=
      length_passed (length_passed hcolumn front) (after.takeWhile isBlank)
    have hafter : after = after.takeWhile isBlank ++ c :: more :=
      hnext ▸ List.takeWhile_append_dropWhile.symm
    have hline : c ≠ '\n' := fun e => hfree (by rw [hafter]; simp [e])
    rw [number_of_ok hcursor, skipBlanks_line hrest, hnext]
    refine (if_neg hline).trans ?_
    simp only [hop]
    exact congrArg Except.error (wordFault_eq hrest _ hopen)
  | case4 column cs piece stop after hoperand c more hnext op hop ih =>
    obtain ⟨front, rfl, rfl, hcursor⟩ :=
      operand_line_ok line tokens hrest hcolumn hoperand
    have hopen : (behind ++ front ++ after.takeWhile isBlank).length =
        offset + (column + front.length + Scan.blanks after) :=
      length_passed (length_passed hcolumn front) (after.takeWhile isBlank)
    have hafter : after = after.takeWhile isBlank ++ c :: more :=
      hnext ▸ List.takeWhile_append_dropWhile.symm
    have hline : c ≠ '\n' := fun e => hfree (by rw [hafter]; simp [e])
    have hmore : '\n' ∉ more := fun hmem => hfree (by rw [hafter]; simp [hmem])
    rw [number_of_ok hcursor, skipBlanks_line hrest, hnext]
    refine (if_neg hline).trans ?_
    simp only [hop, List.cons_append]
    rw [next_emit (.operator op) hopen, ih hmore (length_passed hopen [c])]
    refine Eq.trans ?_ (came_bind [piece, ⟨.operator op, [c], _⟩] fun _ => rfl).symm
    simp [← hafter]

/-! ## Statements -/

theorem tail_eq (keyword : Keyword) {cs : List Char} (hfree : '\n' ∉ cs) (hrest : EndsLine rest)
    (hcolumn : behind.length = offset + column) :
    (resting behind (cs ++ rest) line tokens).tail keyword =
      came line offset (behind ++ cs) rest tokens
        (Scan.tailPieces rest.isEmpty keyword column cs) := by
  cases cs with
  | nil =>
    have hend : (resting behind rest line tokens).atLineEnd = true := by
      obtain rfl | ⟨more, rfl⟩ := hrest.eq_nil_or <;> rfl
    refine (if_pos hend).trans ?_
    simp [Scan.tailPieces, came]
  | cons c cs =>
    obtain ⟨hc, hcs⟩ := List.ne_and_not_mem_of_not_mem_cons hfree
    have hend : ¬(resting behind (c :: cs ++ rest) line tokens).atLineEnd = true := by
      simpa [atLineEnd, resting] using hc.symm
    have hvalue : (behind ++ [c]).length = offset + (column + 1) := length_passed hcolumn [c]
    have hfault (cause : String → LexFault) :
        Except.error ((resting behind (c :: cs ++ rest) line tokens).wordFault cause) =
          came line offset (behind ++ c :: cs) rest tokens
            (.error (Scan.wordFlaw cause column (c :: cs))) :=
      congrArg Except.error (wordFault_eq hrest cause hcolumn)
    rw [tail, if_neg hend]
    by_cases hsign : c = '='
    · subst hsign
      have hemit : (resting behind ('=' :: (cs ++ rest)) line tokens).next.emit .equal = _ :=
        next_emit .equal hcolumn
      cases keyword with
      | text =>
        refine (if_pos rfl).trans ((if_pos rfl).trans ((if_pos rfl).trans ?_))
        refine Eq.trans ?_ (came_bind [⟨.equal, ['='], column⟩] fun _ => rfl).symm
        rw [List.cons_append, hemit, text_skipBlanks, text_eq hcs hrest hvalue]
        simp
      | number =>
        refine (if_pos rfl).trans ((if_pos rfl).trans ((if_neg (by decide)).trans ?_))
        refine Eq.trans ?_ (came_bind [⟨.equal, ['='], column⟩] fun _ => rfl).symm
        rw [List.cons_append, hemit, number_eq hcs hrest hvalue]
        simp
      | input => exact hfault _
      | output => exact hfault _
    · have hhead : (resting behind (c :: cs ++ rest) line tokens).ahead.head? ≠ some '=' :=
        fun e => hsign (Option.some.inj e)
      cases keyword with
      | text =>
        refine (if_pos rfl).trans ((if_neg hhead).trans ((hfault _).trans ?_))
        simp only [Scan.tailPieces, if_neg hsign]
      | number =>
        refine (if_pos rfl).trans ((if_neg hhead).trans ((hfault _).trans ?_))
        simp only [Scan.tailPieces, if_neg hsign]
      | input => exact hfault _
      | output => exact hfault _

/-- The scan of a statement is the scan of its line, whatever follows the line. -/
theorem statement_eq {cs : List Char} (hfree : '\n' ∉ cs) (hrest : EndsLine rest)
    (hcolumn : behind.length = offset + column) :
    (resting behind (cs ++ rest) line tokens).statement =
      came line offset (behind ++ cs) rest tokens
        (Scan.statementPieces rest.isEmpty column cs) := by
  obtain ⟨word, after, rfl, hword, hafter⟩ := exists_run (fun c => !isSpace c) cs
  obtain ⟨gap, fromName, rfl, hgap, hfrom⟩ := exists_run isBlank after
  obtain ⟨name, afterName, rfl, hname, hafterName⟩ := exists_run isNameChar fromName
  obtain ⟨space, tail, rfl, hspace, htail⟩ := exists_run isBlank afterName
  have hword' : ∀ c ∈ word, isSpace c = false := fun c hc => by simpa using hword c hc
  rw [Scan.statementPieces_eq _ column hword' hafter hgap hfrom hname hafterName hspace htail]
  have hstart := length_passed (length_passed hcolumn word) gap
  have hstop := length_passed (length_passed hstart name) space
  have hskip : (resting behind (word ++ (gap ++ (name ++ (space ++ tail))) ++ rest) line
      tokens).restart.skip (fun c => !isSpace c) =
      ⟨behind ++ word, gap ++ (name ++ (space ++ tail)) ++ rest, behind.length, line, tokens⟩ := by
    rw [List.append_assoc]
    exact skip_run hword (hrest.leaves_append (by decide) hafter)
  simp only [statement, hskip, lexeme_word]
  cases hkeyword : Keyword.ofWord? word with
  | none =>
    have hnext : Scan.nextWord (word ++ (gap ++ (name ++ (space ++ tail)))) = word :=
      takeWhile_run hword hafter
    refine congrArg Except.error ((wordFault_eq hrest _ hcolumn).trans ?_)
    rw [Scan.wordFlaw, hnext]
    rfl
  | some keyword =>
    simp only [emit_word (.keyword keyword) hcolumn]
    rw [List.append_assoc gap, skipBlanks_run hgap (hrest.leaves_append (by decide) hfrom), resting,
      List.append_assoc name, skip_run hname (hrest.leaves_append (by decide) hafterName),
      close_word .identifier hstart, List.append_assoc space,
      skipBlanks_run hspace (hrest.leaves_append (by decide) htail),
      tail_eq keyword (fun hmem => hfree (by simp [hmem])) hrest hstop,
      came_bind (⟨.keyword keyword, word, column⟩ :: Scan.namePiece _ name) fun _ => rfl]
    simp [Scan.namePiece]

end Moves

/-! ## Lines -/

section Lines

variable {behind rest cs : List Char} {line offset column : Nat} {tokens : List Token}

theorem skipSpace_restart (cursor : Cursor) : cursor.restart.skipSpace = cursor.skipSpace := by
  rw [skipSpace.eq_def cursor.restart, skipSpace.eq_def cursor]
  rfl

theorem skipSpace_blanks (hcs : Blanks cs) :
    (resting behind (cs ++ rest) line tokens).skipSpace =
      (resting (behind ++ cs) rest line tokens).skipSpace := by
  induction cs generalizing behind with
  | nil => rw [List.append_nil, List.nil_append]
  | cons c cs ih =>
    have hc := hcs c List.mem_cons_self
    have hline : c ≠ '\n' := by
      rintro rfl
      exact absurd hc (by decide)
    have hstep : (resting behind (c :: cs ++ rest) line tokens).skipSpace =
        (resting (behind ++ [c]) (cs ++ rest) line tokens).skipSpace := by
      rw [skipSpace]
      refine (if_pos (isSpace_of_isBlank hc)).trans ((if_neg hline).trans ?_)
      exact (skipSpace_restart _).symm
    rw [hstep, ih (fun d hd => hcs d (List.mem_cons_of_mem c hd)), List.append_assoc,
      List.singleton_append]

theorem skipSpace_newline (hcolumn : behind.length = offset + column) :
    (resting behind ('\n' :: rest) line tokens).skipSpace =
      (resting (behind ++ ['\n']) rest (line + 1)
        (tokens ++ [⟨.newline, "\n", Scan.place line offset column 1⟩])).skipSpace := by
  have hemit : (resting behind ('\n' :: rest) line tokens).next.emit .newline = _ :=
    next_emit .newline hcolumn
  rw [skipSpace]
  refine (if_pos isSpace_newline).trans ((if_pos rfl).trans ?_)
  exact congrArg (fun after : Cursor => { after with line := line + 1 }.skipSpace) hemit

theorem skipSpace_of_leaves (hrest : Leaves isSpace rest) :
    (resting behind rest line tokens).skipSpace = resting behind rest line tokens := by
  cases rest with
  | nil =>
    rw [skipSpace]
    rfl
  | cons c rest =>
    rw [skipSpace]
    exact if_neg (Bool.eq_false_iff.1 (leaves_cons_iff.1 hrest))

/-- A scan goes on from where white space ends. -/
theorem run_congr {cursor after : Cursor} (h : cursor.skipSpace = after.skipSpace) :
    cursor.run = after.run := by
  rw [run_step cursor, run_step after, h]

theorem run_nil : (resting behind [] line tokens).run = .ok (resting behind [] line tokens) := by
  rw [run_step, skipSpace_of_leaves (leaves_nil isSpace)]
  rfl

theorem run_statement {c : Char} (hc : isSpace c = false) :
    (resting behind (c :: rest) line tokens).run =
      (resting behind (c :: rest) line tokens).statement >>= run := by
  rw [run_step, skipSpace_of_leaves (leaves_cons_iff.2 hc)]
  exact if_neg (by simp [resting])

/-- The scan of a line is that of the line alone, and then it goes on after the line. -/
theorem run_line (hfree : '\n' ∉ cs) (hrest : EndsLine rest)
    (hoffset : behind.length = offset) :
    (resting behind (cs ++ rest) line tokens).run =
      came line offset (behind ++ cs) rest tokens (Scan.linePieces rest.isEmpty cs) >>= run := by
  obtain ⟨lead, body, rfl, hlead, hbody⟩ := exists_run isBlank cs
  have hlength : (behind ++ lead).length = offset + lead.length := by
    rw [List.length_append, hoffset]
  rw [Scan.linePieces, Scan.skipBlanks_append hlead hbody, Scan.blanks_append hlead hbody,
    List.append_assoc, run_congr (skipSpace_blanks hlead)]
  cases body with
  | nil => simp [came, bind, Except.bind]
  | cons c cs =>
    have hc : isSpace c = false := by
      rw [← isBlank_eq_isSpace fun e => hfree (by simp [e])]
      exact leaves_cons_iff.1 hbody
    rw [List.cons_append, run_statement hc, ← List.cons_append,
      statement_eq (fun hmem => hfree (List.mem_append_right lead hmem)) hrest hlength,
      List.append_assoc]

theorem finished_nil (hcolumn : behind.length = offset + column) :
    finished (resting behind [] line tokens).run =
      .ok (tokens ++ [⟨.endOfInput, "", Scan.place line offset column 0⟩]) := by
  have hemit : emit ⟨behind ++ [], [], behind.length, line, tokens⟩ .endOfInput = _ :=
    emit_word .endOfInput hcolumn
  rw [List.append_nil] at hemit
  rw [run_nil]
  exact congrArg (fun after : Cursor => Except.ok after.tokens) hemit

/-- A scan of lines comes to what the scanner of lines comes to. -/
theorem finished_run (cs : List Char) (hoffset : behind.length = offset) :
    finished (resting behind cs line tokens).run =
      (Scan.linesTokens line offset (lines cs)).map (tokens ++ ·) := by
  induction cs using linesInduction generalizing behind line offset tokens with
  | single cs hfree =>
    have hstop : (behind ++ cs).length = offset + cs.length := by
      rw [List.length_append, hoffset]
    have hrun : (resting behind (cs ++ []) line tokens).run = _ :=
      run_line hfree endsLine_nil hoffset
    rw [List.append_nil] at hrun
    rw [hrun, lines_of_not_mem hfree, Scan.linesTokens, Scan.lineTokens]
    cases hpieces : Scan.linePieces true cs with
    | error flaw =>
      simp only [List.isEmpty_nil, hpieces]
      rfl
    | ok pieces =>
      simp only [List.isEmpty_nil, hpieces]
      refine (finished_nil hstop).trans ?_
      simp [bind, Except.bind, Except.map]
  | more cs rest hfree ih =>
    have hstop : (behind ++ cs).length = offset + cs.length := by
      rw [List.length_append, hoffset]
    have hnext : (behind ++ cs ++ ['\n']).length = offset + cs.length + 1 := by
      rw [List.length_append, hstop, List.length_singleton]
    rw [run_line hfree (endsLine_newline rest) hoffset, lines_append_newline hfree,
      Scan.linesTokens_cons line offset cs (lines_ne_nil rest), Scan.lineTokens]
    cases hpieces : Scan.linePieces false cs with
    | error flaw =>
      simp only [List.isEmpty_cons, hpieces]
      rfl
    | ok pieces =>
      simp only [List.isEmpty_cons, hpieces]
      refine (congrArg finished (run_congr (skipSpace_newline hstop))).trans ((ih hnext).trans ?_)
      cases Scan.linesTokens (line + 1) (offset + cs.length + 1) (lines rest) with
      | error fault => rfl
      | ok others => simp [bind, Except.bind, Except.map]

end Lines

/-- One cursor over the whole source comes to the tokens, or to the fault, that the scanner of lines
comes to. -/
theorem scan_eq (source : String) : scan source = Token.scan source := by
  have hrun : finished (resting [] source.toList 1 []).run =
      (Scan.linesTokens 1 0 (lines source.toList)).map ([] ++ ·) := finished_run source.toList rfl
  refine hrun.trans ?_
  rw [Token.scan]
  cases Scan.linesTokens 1 0 (lines source.toList) <;> rfl

end LineScript.Cursor
