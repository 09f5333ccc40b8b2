import LineScript.Proofs.Tree.Shift

/-!
# Programs one after the other

A scanner that crosses a line feed starts anew: the lines after it are scanned as they would be
alone, only further down (`linesTokens_shift`), and the lines before it are scanned as if the source
ended there (`linesTokens_append_of_ok`, `linesTokens_append_of_error`). The one thing that the end
of a source and the end of a line do not share is the wording of a missing number, and `beforeLine`
turns the first wording into the second. Main statement: `scan_and_parse_append`, two sources with a
line feed between them give the tokens and the statements of the first, and then those of the second
moved past the first; or the fault of the first, or the fault of the second moved past the first.
-/

set_option autoImplicit false

namespace LineScript

open Scan Parse Text

/-! ## The last line with more lines after it -/

/-- A fault of the last line when more lines follow it: what was missing at the end of the source is
missing at the end of the line. -/
def LexFault.beforeLine : LexFault → LexFault
  | inputEnds => lineEnds
  | fault => fault

theorem LexFault.beforeLine_beforeLine (fault : LexFault) :
    fault.beforeLine.beforeLine = fault.beforeLine := by
  cases fault <;> rfl

namespace Scan

/-- A flaw of the last line when more lines follow it. -/
def Flaw.beforeLine (flaw : Flaw) : Flaw :=
  { flaw with cause := flaw.cause.beforeLine }

theorem beforeLine_of_reference {column : Nat} {cs : List Char} {flaw : Flaw}
    (h : reference column cs = .error flaw) : flaw.beforeLine = flaw := by
  simp only [reference] at h
  split at h
  · split at h <;> cases h <;> rfl
  · split at h <;> cases h <;> rfl

theorem beforeLine_of_textPieces {column : Nat} {cs : List Char} {flaw : Flaw}
    (h : textPieces column cs = .error flaw) : flaw.beforeLine = flaw := by
  -- A text lacks no number: all of its flaws are those of its references.
  induction cs using textInduction generalizing column with
  | word word hword =>
    rw [textPieces_word column hword] at h
    cases h
  | dollar word rest hword ih =>
    rw [textPieces_dollar column hword, bind_eq_error_iff] at h
    rcases h with h | ⟨more, -, h⟩
    · exact ih h
    · cases h
  | reference word rest hword hrest ih =>
    rw [textPieces_reference column hword hrest] at h
    split at h
    · next href =>
      cases h
      exact beforeLine_of_reference href
    · next name after href =>
      obtain ⟨text, htext, rfl, hafter, rfl⟩ := reference_eq_ok_iff.1 href
      rcases bind_eq_error_iff.1 h with h | ⟨more, -, h⟩
      · exact ih (text ++ ['$']) after (by simp) h
      · cases h
  | blank word c rest hword hc ih =>
    rw [textPieces_blank column hword hc, bind_eq_error_iff] at h
    rcases h with h | ⟨more, -, h⟩
    · exact ih h
    · cases h

theorem operand_false (column : Nat) (cs : List Char) :
    operand false column cs = (operand true column cs).mapError Flaw.beforeLine := by
  simp only [operand]
  split
  · rfl
  · split
    · next href => exact congrArg Except.error (beforeLine_of_reference href).symm
    · rfl
  · split <;> rfl

theorem numberPieces_false (column : Nat) (cs : List Char) :
    numberPieces false column cs = (numberPieces true column cs).mapError Flaw.beforeLine := by
  fun_induction numberPieces true column cs with
  | case1 column cs flaw hoperand =>
    rw [numberPieces_eq, operand_false, hoperand]
    rfl
  | case2 column cs piece next rest hoperand hend =>
    rw [numberPieces_eq, operand_false, hoperand]
    simp only [Except.mapError, hend]
  | case3 column cs piece next rest hoperand c after hnext hop =>
    rw [numberPieces_eq, operand_false, hoperand]
    simp only [Except.mapError, hnext, hop]
    rfl
  | case4 column cs piece next rest hoperand c after hnext op hop ih =>
    rw [numberPieces_eq, operand_false, hoperand]
    simp only [Except.mapError, hnext, hop, ih]
    cases numberPieces true (next + blanks rest + 1) after <;> rfl

theorem tailPieces_false (keyword : Keyword) (column : Nat) (cs : List Char) :
    tailPieces false keyword column cs =
      (tailPieces true keyword column cs).mapError Flaw.beforeLine := by
  cases cs with
  | nil => rfl
  | cons c rest =>
    cases keyword with
    | text =>
      simp only [tailPieces]
      split
      · cases htext : textPieces (column + 1) rest with
        | error flaw => exact congrArg Except.error (beforeLine_of_textPieces htext).symm
        | ok pieces => rfl
      · rfl
    | number =>
      simp only [tailPieces, numberPieces_false]
      split
      · cases numberPieces true (column + 1) rest <;> rfl
      · rfl
    | input => rfl
    | output => rfl

theorem linePieces_false (cs : List Char) :
    linePieces false cs = (linePieces true cs).mapError Flaw.beforeLine := by
  simp only [linePieces, statementPieces, tailPieces_false]
  split
  · rfl
  · split
    · rfl
    · next keyword hkeyword =>
      generalize tailPieces true keyword _ _ = tail
      cases tail <;> rfl

/-- A line gives the same tokens whether it is the last or not, and the same fault up to the one
wording. -/
theorem lineTokens_false (line offset : Nat) (cs : List Char) :
    lineTokens false line offset cs =
      (lineTokens true line offset cs).mapError
        fun fault => ⟨fault.item.beforeLine, fault.span⟩ := by
  simp only [lineTokens, linePieces_false]
  cases linePieces true cs <;> rfl

theorem beforeLine_of_lineTokens {line offset : Nat} {cs : List Char} {fault : Located LexFault}
    (h : lineTokens false line offset cs = .error fault) : fault.item.beforeLine = fault.item := by
  rw [lineTokens_false] at h
  generalize lineTokens true line offset cs = scanned at h
  cases scanned with
  | error other =>
    cases h
    exact other.item.beforeLine_beforeLine
  | ok tokens => cases h

/-! ## Lines that are moved -/

/-- What a scanner found, moved along with the source. -/
def moved (lines characters : Int) :
    Except (Located LexFault) (List Token) → Except (Located LexFault) (List Token)
  | .error fault => .error (fault.shift lines characters)
  | .ok tokens => .ok (tokens.map fun token => token.shift lines characters)

theorem lineTokens_shift (last : Bool) (line offset lines characters : Nat) (cs : List Char) :
    lineTokens last (line + lines) (offset + characters) cs =
      moved lines characters (lineTokens last line offset cs) := by
  simp only [lineTokens]
  split
  · simp only [moved, Flaw.place, Located.shift, place_shift]
  · next pieces hpieces =>
    exact congrArg Except.ok (PlacedLine.tokens_shift ⟨line, offset, cs⟩ lines characters pieces)

/-- Lines are scanned the same wherever they stand. -/
theorem linesTokens_shift (line offset lines characters : Nat) (ls : List (List Char)) :
    linesTokens (line + lines) (offset + characters) ls =
      moved lines characters (linesTokens line offset ls) := by
  induction ls generalizing line offset with
  | nil => rfl
  | cons cs ls ih =>
    cases ls with
    | nil =>
      simp only [linesTokens, lineTokens_shift]
      cases lineTokens true line offset cs with
      | error fault => rfl
      | ok tokens => simp [bind, Except.bind, moved, Token.shift, place_shift]
    | cons next ls =>
      have hne := List.cons_ne_nil next ls
      have hnext : linesTokens (line + lines + 1) (offset + characters + cs.length + 1)
          (next :: ls) =
            moved lines characters
              (linesTokens (line + 1) (offset + cs.length + 1) (next :: ls)) := by
        rw [← ih]
        congr 1 <;> omega
      rw [linesTokens_cons _ _ cs hne, linesTokens_cons _ _ cs hne, hnext, lineTokens_shift]
      cases lineTokens false line offset cs with
      | error fault => rfl
      | ok tokens =>
        cases linesTokens (line + 1) (offset + cs.length + 1) (next :: ls) with
        | error fault => rfl
        | ok others => simp [bind, Except.bind, moved, Token.shift, place_shift]

/-! ## Lines before other lines -/

theorem linesTokens_append_of_error {ls more : List (List Char)} (hmore : more ≠ [])
    {line offset : Nat} {fault : Located LexFault}
    (h : linesTokens line offset ls = .error fault) :
    linesTokens line offset (ls ++ more) = .error ⟨fault.item.beforeLine, fault.span⟩ := by
  induction ls generalizing line offset with
  | nil => cases h
  | cons cs ls ih =>
    rw [List.cons_append, linesTokens_cons line offset cs (by simp [hmore]), bind_eq_error_iff]
    cases ls with
    | nil =>
      rw [linesTokens, bind_eq_error_iff] at h
      rcases h with h | ⟨tokens, -, h⟩
      · rw [lineTokens_false, h]
        exact Or.inl rfl
      · cases h
    | cons next ls =>
      rw [linesTokens_cons line offset cs (List.cons_ne_nil next ls), bind_eq_error_iff] at h
      rcases h with h | ⟨tokens, htokens, h⟩
      · rw [beforeLine_of_lineTokens h]
        exact Or.inl h
      · rcases bind_eq_error_iff.1 h with h | ⟨others, -, h⟩
        · exact Or.inr ⟨tokens, htokens, bind_eq_error_iff.2 (Or.inl (ih h))⟩
        · cases h

/-- The line feed after some lines, the first of which has the given number and offset. -/
def feedAfter (line offset : Nat) (ls : List (List Char)) : Token :=
  ⟨.newline, "\n", ⟨(line + ls.length : Nat) - 1, (offset + Excerpt.offsetAfter ls : Nat) - 1,
    (offset + Excerpt.offsetAfter ls : Nat)⟩⟩

theorem feedAfter_singleton (line offset : Nat) (cs : List Char) :
    feedAfter line offset [cs] = ⟨.newline, "\n", place line offset cs.length 1⟩ := by
  simp only [feedAfter, place, Excerpt.offsetAfter, List.length_singleton, Token.mk.injEq,
    Span.mk.injEq, true_and]
  omega

theorem feedAfter_cons (line offset : Nat) (cs : List Char) (ls : List (List Char)) :
    feedAfter line offset (cs :: ls) = feedAfter (line + 1) (offset + cs.length + 1) ls := by
  simp only [feedAfter, Excerpt.offsetAfter, List.length_cons, Token.mk.injEq, Span.mk.injEq,
    true_and]
  omega

/-- Lines that are scanned give the same tokens before other lines: a line feed takes the place of
the end of the source, and the others follow. -/
theorem linesTokens_append_of_ok {ls more : List (List Char)} (hne : ls ≠ []) (hmore : more ≠ [])
    {line offset : Nat} {tokens : List Token} (h : linesTokens line offset ls = .ok tokens) :
    ∃ front stop, tokens = front ++ [stop] ∧ stop.kind = .endOfInput ∧
      linesTokens line offset (ls ++ more) =
        (linesTokens (line + ls.length) (offset + Excerpt.offsetAfter ls) more).map
          fun others => front ++ feedAfter line offset ls :: others := by
  induction ls generalizing line offset tokens with
  | nil => exact absurd rfl hne
  | cons cs ls ih =>
    rw [List.cons_append, linesTokens_cons line offset cs (by simp [hmore])]
    cases ls with
    | nil =>
      rw [linesTokens, bind_eq_ok_iff] at h
      obtain ⟨front, hfront, h⟩ := h
      cases h
      refine ⟨front, _, rfl, rfl, ?_⟩
      rw [lineTokens_false, hfront, feedAfter_singleton]
      simp only [List.nil_append, List.length_singleton, Excerpt.offsetAfter]
      cases linesTokens (line + 1) (offset + cs.length + 1) more <;> rfl
    | cons next ls =>
      rw [linesTokens_cons line offset cs (List.cons_ne_nil next ls), bind_eq_ok_iff] at h
      obtain ⟨own, hown, h⟩ := h
      obtain ⟨others, hothers, h⟩ := bind_eq_ok_iff.1 h
      cases h
      obtain ⟨front, stop, rfl, hstop, happend⟩ := ih (List.cons_ne_nil next ls) hothers
      refine ⟨own ++ ⟨.newline, "\n", place line offset cs.length 1⟩ :: front, stop, by simp,
        hstop, ?_⟩
      have hline : line + 1 + (next :: ls).length = line + (cs :: next :: ls).length := by
        simp only [List.length_cons]
        omega
      have hoffset : offset + cs.length + 1 + Excerpt.offsetAfter (next :: ls) =
          offset + Excerpt.offsetAfter (cs :: next :: ls) := by
        simp only [Excerpt.offsetAfter]
        omega
      rw [hown, happend, ← feedAfter_cons line offset cs, hline, hoffset]
      cases linesTokens (line + (cs :: next :: ls).length)
        (offset + Excerpt.offsetAfter (cs :: next :: ls)) more with
      | error fault => rfl
      | ok tokens => simp [bind, Except.bind, Except.map]

end Scan

/-! ## The wording of a missing number -/

theorem starts_append {front text : String} (rest : String)
    (h : front.toList <+: text.toList) : front.toList <+: (text ++ rest).toList := by
  rw [String.toList_append]
  exact h.trans (List.prefix_append _ _)

/-- No other fault has the wording of a number that is missing at the end of the source. -/
theorem LexFault.eq_inputEnds_of_message {fault : LexFault}
    (h : fault.message = LexFault.inputEnds.message) : fault = .inputEnds := by
  have hfront : ∀ {front : String}, front.toList <+: fault.message.toList →
      front.toList <+: LexFault.inputEnds.message.toList := fun hstarts => h ▸ hstarts
  cases fault with
  | inputEnds => rfl
  | lineEnds => exact absurd h (by decide +kernel)
  | missingEquals => exact absurd h (by decide +kernel)
  | emptyReference => exact absurd h (by decide +kernel)
  | namelessReference => exact absurd h (by decide +kernel)
  | reopenedReference => exact absurd h (by decide +kernel)
  | unknownStatement word =>
    have hstarts := hfront (starts_append _ (starts_append _ (List.prefix_refl _)))
    exact absurd hstarts (by decide +kernel)
  | extraWord word keyword =>
    have hstarts := hfront (starts_append _ (starts_append _ (starts_append _
      (starts_append _ (List.prefix_refl _)))))
    exact absurd hstarts (by decide +kernel)
  | missingOperator word =>
    have hstarts := hfront (starts_append _ (starts_append _ (List.prefix_refl _)))
    exact absurd hstarts (by decide +kernel)
  | notANumber word =>
    have hstarts := hfront (starts_append _ (starts_append _ (List.prefix_refl _)))
    exact absurd hstarts (by decide +kernel)
  | unclosedReference name =>
    have hstarts := hfront (starts_append _ (starts_append _ (List.prefix_refl _)))
    exact absurd hstarts (by decide +kernel)

theorem LexFault.message_beforeLine (fault : LexFault) :
    fault.beforeLine.message =
      if fault.message = "unexpected end of input, expected a number" then
        "expected a number before the end of the line"
      else fault.message := by
  split
  · next h =>
    rw [LexFault.eq_inputEnds_of_message h]
    rfl
  · next h =>
    cases fault with
    | inputEnds => exact absurd rfl h
    | _ => rfl

/-! ## Sources before other sources -/

theorem SourceTree.append {first second : List PlacedLine} {tokens others : List Token}
    {statements more : List Statement} (hfirst : SourceTree first tokens statements)
    (hsecond : SourceTree second others more) :
    ∃ joined, SourceTree (first ++ second) joined (statements ++ more) := by
  induction hfirst with
  | last hcut hfound => exact ⟨_, .more hcut hfound hsecond⟩
  | more hcut hfound _ ih =>
    obtain ⟨joined, hjoined⟩ := ih
    rw [List.append_assoc]
    exact ⟨_, .more hcut hfound hjoined⟩

theorem lines_toList_append (first second : String) :
    lines (first ++ "\n" ++ second).toList = lines first.toList ++ lines second.toList := by
  rw [← lines_append]
  simp

theorem scan_append_of_error {first : String} {fault : Located LexFault}
    (h : Token.scan first = .error fault) (second : String) :
    Token.scan (first ++ "\n" ++ second) = .error ⟨fault.item.beforeLine, fault.span⟩ := by
  rw [Token.scan, lines_toList_append]
  exact linesTokens_append_of_error (lines_ne_nil _) h

theorem scan_append_of_ok {first : String} {tokens : List Token}
    (h : Token.scan first = .ok tokens) (second : String) :
    ∃ front stop, tokens = front ++ [stop] ∧ stop.kind = .endOfInput ∧
      Token.scan (first ++ "\n" ++ second) =
        (moved (1 + first.toList.count '\n') (first.length + 1) (Token.scan second)).map
          fun more => front ++
            ⟨.newline, "\n", ⟨1 + first.toList.count '\n', first.length, first.length + 1⟩⟩ ::
            more := by
  obtain ⟨front, stop, hfront, hstop, happend⟩ :=
    linesTokens_append_of_ok (lines_ne_nil first.toList) (lines_ne_nil second.toList) h
  refine ⟨front, stop, hfront, hstop, ?_⟩
  have hfeed : feedAfter 1 0 (lines first.toList) =
      ⟨.newline, "\n", ⟨1 + first.toList.count '\n', first.length, first.length + 1⟩⟩ := by
    simp only [feedAfter, length_lines, offsetAfter_lines, String.length_toList, Token.mk.injEq,
      Span.mk.injEq, true_and]
    omega
  rw [Token.scan, lines_toList_append, happend, linesTokens_shift, hfeed, length_lines,
    offsetAfter_lines, String.length_toList]
  push_cast
  rfl

theorem ofSource_append {first second : String} {statements more : List Statement}
    (hfirst : Statement.ofSource first = .ok statements)
    (hsecond : Statement.ofSource second = .ok more) :
    Statement.ofSource (first ++ "\n" ++ second) =
      .ok (statements ++ more.map fun statement =>
        statement.shift (1 + first.toList.count '\n') (first.length + 1)) := by
  obtain ⟨tokens, htree⟩ := ofSource_eq_ok_iff.1 hfirst
  obtain ⟨others, hmore⟩ := ofSource_eq_ok_iff.1 hsecond
  have hmoved := hmore.shift (lines first.toList).length (Excerpt.offsetAfter (lines first.toList))
  rw [← placeLines_shift] at hmoved
  obtain ⟨joined, hjoined⟩ := htree.append hmoved
  rw [← placeLines_append, ← lines_toList_append, length_lines, offsetAfter_lines,
    String.length_toList] at hjoined
  push_cast at hjoined
  exact ofSource_eq_ok_iff.2 ⟨joined, hjoined⟩

/-- Two sources with a line feed between them are scanned and parsed like each of them alone: the
tokens, the fault or the statements of the second are moved past the first. A fault of the first
stays where it is, and only the wording of a missing number knows of the line feed after it. -/
theorem scan_and_parse_append (first second : String) :
    (∀ tokens stop more, Token.scan first = .ok (tokens ++ [stop]) →
      Token.scan second = .ok more →
      stop.kind = .endOfInput ∧
        Token.scan (first ++ "\n" ++ second) =
          .ok (tokens ++
            ⟨.newline, "\n", ⟨1 + first.toList.count '\n', first.length, first.length + 1⟩⟩ ::
            more.map fun token => token.shift (1 + first.toList.count '\n') (first.length + 1))) ∧
    (∀ tokens fault, Token.scan first = .ok tokens → Token.scan second = .error fault →
      Token.scan (first ++ "\n" ++ second) =
        .error (fault.shift (1 + first.toList.count '\n') (first.length + 1))) ∧
    (∀ fault, Token.scan first = .error fault →
      ∃ told : LexFault, Token.scan (first ++ "\n" ++ second) = .error ⟨told, fault.span⟩ ∧
        told.message =
          if fault.item.message = "unexpected end of input, expected a number" then
            "expected a number before the end of the line"
          else fault.item.message) ∧
    ∀ statements more, Statement.ofSource first = .ok statements →
      Statement.ofSource second = .ok more →
      Statement.ofSource (first ++ "\n" ++ second) =
        .ok (statements ++ more.map fun statement =>
          statement.shift (1 + first.toList.count '\n') (first.length + 1)) := by
  refine ⟨?_, ?_, ?_, ?_⟩
  · intro tokens stop more hfirst hsecond
    obtain ⟨front, last, hfront, hlast, happend⟩ := scan_append_of_ok hfirst second
    obtain ⟨rfl, hstop⟩ := List.append_inj' hfront rfl
    obtain rfl := List.singleton_inj.1 hstop
    rw [happend, hsecond]
    exact ⟨hlast, rfl⟩
  · intro tokens fault hfirst hsecond
    obtain ⟨front, last, -, -, happend⟩ := scan_append_of_ok hfirst second
    rw [happend, hsecond]
    rfl
  · intro fault hfirst
    exact ⟨fault.item.beforeLine, scan_append_of_error hfirst second,
      fault.item.message_beforeLine⟩
  · intro statements more hfirst hsecond
    exact ofSource_append hfirst hsecond

/-- A source before one that is a program, and before one that is none; and a number that is missing
at the end of a line. -/
theorem scan_and_parse_append_output :
    Token.scan ("Output a" ++ "\n" ++ "Input b") = .ok
      [⟨.keyword .output, "Output", ⟨1, 0, 6⟩⟩, ⟨.identifier, "a", ⟨1, 7, 8⟩⟩,
       ⟨.newline, "\n", ⟨1, 8, 9⟩⟩, ⟨.keyword .input, "Input", ⟨2, 9, 14⟩⟩,
       ⟨.identifier, "b", ⟨2, 15, 16⟩⟩, ⟨.endOfInput, "", ⟨2, 16, 16⟩⟩] ∧
    Statement.ofSource ("Output a" ++ "\n" ++ "Input b") = .ok
      [.output ⟨1, 0, 8⟩ (.named ⟨1, 7, 8⟩ "a"), .input ⟨2, 9, 16⟩ (.named ⟨2, 15, 16⟩ "b")] ∧
    Token.scan ("Output a" ++ "\n" ++ "b") = .error ⟨.unknownStatement "b", ⟨2, 9, 10⟩⟩ ∧
    ∃ told : LexFault, Token.scan ("Zahl a =" ++ "\n" ++ "b") = .error ⟨told, ⟨1, 8, 8⟩⟩ ∧
      told.message = "expected a number before the end of the line" := by
  have houtput : Token.scan "Output a" = .ok
      ([⟨.keyword .output, "Output", ⟨1, 0, 6⟩⟩, ⟨.identifier, "a", ⟨1, 7, 8⟩⟩] ++
        [⟨.endOfInput, "", ⟨1, 8, 8⟩⟩]) := by rfl
  have hinput : Token.scan "Input b" = .ok
      [⟨.keyword .input, "Input", ⟨1, 0, 5⟩⟩, ⟨.identifier, "b", ⟨1, 6, 7⟩⟩,
       ⟨.endOfInput, "", ⟨1, 7, 7⟩⟩] := by rfl
  refine ⟨?_, ?_, ?_, ?_⟩
  · rw [((scan_and_parse_append _ _).1 _ _ _ houtput hinput).2]
    rfl
  · rw [(scan_and_parse_append "Output a" "Input b").2.2.2
      [.output ⟨1, 0, 8⟩ (.named ⟨1, 7, 8⟩ "a")] [.input ⟨1, 0, 7⟩ (.named ⟨1, 6, 7⟩ "b")]
      rfl rfl]
    rfl
  · rw [(scan_and_parse_append "Output a" "b").2.1 _ ⟨.unknownStatement "b", ⟨1, 0, 1⟩⟩ houtput
      rfl]
    rfl
  · have hmissing : Token.scan "Zahl a =" = .error ⟨.inputEnds, ⟨1, 8, 8⟩⟩ := by cbv
    obtain ⟨told, htold, hmessage⟩ := (scan_and_parse_append "Zahl a =" "b").2.2.1 _ hmissing
    exact ⟨told, htold, hmessage.trans (if_pos rfl)⟩

end LineScript
