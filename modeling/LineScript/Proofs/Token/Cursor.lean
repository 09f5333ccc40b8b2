import LineScript.Proofs.Text.Characters

/-!
# One cursor over the source

`Token.scan` cuts a source at its line feeds and scans each line by itself. A `Cursor` goes over the
whole source instead, from its first character to its last: it knows what is behind it and what is
ahead, counts the line feeds that it crosses, and adds a token when it has passed it. Nothing tells
its scanners where a line ends but the characters ahead. Each of them leaves at most what was ahead
of it, and a statement leaves less, so the scan comes to an end.
-/

set_option autoImplicit false

namespace LineScript

open Text

/-- A scan of a source: the characters behind and ahead, where the token that is being built starts,
the number of the line, and the tokens so far. -/
structure Cursor where
  behind : List Char
  ahead : List Char
  start : Nat
  line : Nat
  tokens : List Token

namespace Cursor

/-! ## Moves -/

/-- The offset of the cursor in the source. -/
def offset (cursor : Cursor) : Nat := cursor.behind.length

/-- The characters of the token that is being built. -/
def lexeme (cursor : Cursor) : List Char := cursor.behind.drop cursor.start

/-- The span of the token that is being built. -/
def span (cursor : Cursor) : Span := ⟨cursor.line, cursor.start, cursor.offset⟩

/-- A fault at the token that is being built. -/
def fault (cursor : Cursor) (cause : LexFault) : Located LexFault := ⟨cause, cursor.span⟩

/-- A token starts here. -/
def restart (cursor : Cursor) : Cursor := { cursor with start := cursor.offset }

/-- One character on. -/
def next (cursor : Cursor) : Cursor :=
  { cursor with
    behind := cursor.behind ++ cursor.ahead.take 1
    ahead := cursor.ahead.drop 1 }

/-- On to the first character outside of a class. -/
def skip (cursor : Cursor) (p : Char → Bool) : Cursor :=
  { cursor with
    behind := cursor.behind ++ cursor.ahead.takeWhile p
    ahead := cursor.ahead.dropWhile p }

/-- Adds the token that was being built. -/
def emit (cursor : Cursor) (kind : Token.Kind) : Cursor :=
  { cursor with
    tokens := cursor.tokens ++ [⟨kind, String.ofList cursor.lexeme, cursor.span⟩]
    start := cursor.offset }

/-- Adds the token that was being built, if there are characters of it. -/
def close (cursor : Cursor) (kind : Token.Kind) : Cursor :=
  if cursor.start < cursor.offset then cursor.emit kind else cursor

/-- On to the first character that is not a blank. A token starts there. -/
def skipBlanks (cursor : Cursor) : Cursor := (cursor.skip isBlank).restart

/-- The fault of the characters up to the next white space, from where a token starts. -/
def wordFault (cursor : Cursor) (cause : String → LexFault) : Located LexFault :=
  let word := cursor.skip fun c => !isSpace c
  word.fault (cause (String.ofList word.lexeme))

theorem length_skip_le (cursor : Cursor) (p : Char → Bool) :
    (cursor.skip p).ahead.length ≤ cursor.ahead.length :=
  (List.dropWhile_suffix p).length_le

theorem length_skipBlanks_le (cursor : Cursor) :
    cursor.skipBlanks.ahead.length ≤ cursor.ahead.length :=
  cursor.length_skip_le isBlank

theorem length_next (cursor : Cursor) : cursor.next.ahead.length = cursor.ahead.length - 1 :=
  List.length_drop

theorem ahead_close (cursor : Cursor) (kind : Token.Kind) :
    (cursor.close kind).ahead = cursor.ahead := by
  rw [close]
  split <;> rfl

theorem lexeme_skip_restart (cursor : Cursor) (p : Char → Bool) :
    (cursor.restart.skip p).lexeme = cursor.ahead.takeWhile p := List.drop_left

/-! ## Scanners -/

/-- Scans a reference from its opening dollar sign on. The token is the name alone. -/
def reference (cursor : Cursor) : Except (Located LexFault) Cursor :=
  let name := cursor.next.restart.skip isNameChar
  if name.lexeme.isEmpty then
    let opened := { name with start := cursor.offset }
    if name.ahead.head? = some '$' then .error (opened.next.fault .emptyReference)
    else .error (opened.fault .namelessReference)
  else if name.ahead.head? = some '$' then
    let closed := (name.emit .identifier).next
    if closed.ahead.head? = some '$' then
      .error ({ closed.next with start := closed.offset - 1 }.fault .reopenedReference)
    else .ok closed.restart
  else
    .error ({ name with start := cursor.offset }.fault
      (.unclosedReference (String.ofList name.lexeme)))

theorem length_of_reference {cursor after : Cursor} (hne : cursor.ahead ≠ [])
    (h : cursor.reference = .ok after) : after.ahead.length < cursor.ahead.length := by
  have hpos := List.length_pos_of_ne_nil hne
  have hname := cursor.next.restart.length_skip_le isNameChar
  simp only [reference] at h
  split_ifs at h
  cases h
  simp only [restart, emit, length_next] at hname ⊢
  omega

/-- Scans the words and references of a text up to the end of the line. -/
def text (cursor : Cursor) : Except (Located LexFault) Cursor :=
  match _ : cursor.ahead with
  | [] => .ok (cursor.close .value)
  | c :: rest =>
    if c = '\n' then .ok (cursor.close .value)
    else if _ : isBlank c = true then (cursor.close .value).skipBlanks.text
    else if c = '$' then
      if rest.head? = some '$' then (cursor.next.emit .value).next.restart.text
      else
        match _ : (cursor.close .value).reference with
        | .error fault => .error fault
        | .ok after => after.text
    else cursor.next.text
termination_by cursor.ahead.length
decreasing_by
  · have hle : (rest.dropWhile isBlank).length ≤ rest.length :=
      (List.dropWhile_suffix isBlank).length_le
    simp only [skipBlanks, skip, restart, ahead_close, ‹cursor.ahead = _›, List.length_cons]
    rw [List.dropWhile_cons_of_pos ‹isBlank c = true›]
    omega
  · simp only [next, emit, restart, ‹cursor.ahead = _›, List.length_drop, List.length_cons]
    omega
  · have hne : (cursor.close .value).ahead ≠ [] := by simp [ahead_close, ‹cursor.ahead = _›]
    have := length_of_reference hne ‹(cursor.close .value).reference = _›
    rwa [ahead_close] at this
  · simp only [next, ‹cursor.ahead = _›, List.length_drop, List.length_cons]
    omega

theorem length_of_text {cursor after : Cursor} (h : cursor.text = .ok after) :
    after.ahead.length ≤ cursor.ahead.length := by
  fun_induction text cursor with
  | case1 cursor hahead =>
    cases h
    rw [ahead_close]
  | case2 cursor rest hahead =>
    cases h
    rw [ahead_close]
  | case3 cursor c rest hahead hc hblank ih =>
    have hle := (cursor.close .value).length_skipBlanks_le
    rw [ahead_close] at hle
    exact (ih h).trans hle
  | case4 cursor rest hahead hblank hdollar hhead ih =>
    have hlength := ih h
    simp only [restart, emit, length_next] at hlength
    omega
  | case5 cursor rest hhead fault href hahead hc hblank => cases h
  | case6 cursor rest hhead name href hahead hc hblank ih =>
    have hne : (cursor.close .value).ahead ≠ [] := by simp [ahead_close, hahead]
    have hname := length_of_reference hne href
    rw [ahead_close] at hname
    exact (ih h).trans hname.le
  | case7 cursor c rest hahead hc hblank hdollar ih =>
    exact (ih h).trans (cursor.length_next.trans_le (Nat.sub_le _ 1))

/-- The scanner of texts without the proofs that its recursion needs. -/
theorem text_step (cursor : Cursor) :
    cursor.text =
      (match cursor.ahead with
      | [] => .ok (cursor.close .value)
      | c :: rest =>
        if c = '\n' then .ok (cursor.close .value)
        else if isBlank c then (cursor.close .value).skipBlanks.text
        else if c = '$' then
          if rest.head? = some '$' then (cursor.next.emit .value).next.restart.text
          else (cursor.close .value).reference >>= text
        else cursor.next.text) := by
  rw [text]
  split
  · next hahead => simp only [hahead]
  · next c rest hahead =>
    simp only [hahead]
    split_ifs
    · rfl
    · rfl
    · rfl
    · split <;> next href => rw [href]; rfl
    · rfl

/-- Scans an operand, after the blanks before it. -/
def operand (cursor : Cursor) : Except (Located LexFault) Cursor :=
  let first := cursor.skipBlanks
  match first.ahead with
  | [] => .error (first.fault .inputEnds)
  | c :: _ =>
    if c.isDigit then .ok ((first.skip Char.isDigit).emit .value)
    else if c = '$' then first.reference
    else if c = '\n' then .error (first.fault .lineEnds)
    else .error (first.wordFault .notANumber)

theorem length_of_operand {cursor after : Cursor} (h : cursor.operand = .ok after) :
    after.ahead.length ≤ cursor.ahead.length := by
  refine le_trans ?_ cursor.length_skipBlanks_le
  simp only [operand] at h
  split at h
  · cases h
  · next hahead =>
    split_ifs at h
    · cases h
      exact length_skip_le _ Char.isDigit
    · exact (length_of_reference (by simp [hahead]) h).le

/-- Scans operands with operators between them, up to the end of the line. -/
def number (cursor : Cursor) : Except (Located LexFault) Cursor :=
  match _ : cursor.operand with
  | .error fault => .error fault
  | .ok after =>
    match _ : after.skipBlanks.ahead with
    | [] => .ok after.skipBlanks
    | c :: _ =>
      if c = '\n' then .ok after.skipBlanks
      else
        match Operator.ofChar? c with
        | none => .error (after.skipBlanks.wordFault .missingOperator)
        | some op => (after.skipBlanks.next.emit (.operator op)).number
termination_by cursor.ahead.length
decreasing_by
  have hoperand := length_of_operand ‹cursor.operand = _›
  have hblanks := after.length_skipBlanks_le
  simp only [emit, length_next, ‹after.skipBlanks.ahead = _›, List.length_cons] at hblanks ⊢
  omega

theorem length_of_number {cursor after : Cursor} (h : cursor.number = .ok after) :
    after.ahead.length ≤ cursor.ahead.length := by
  fun_induction number cursor with
  | case1 cursor fault hoperand => cases h
  | case2 cursor next hoperand hahead =>
    cases h
    exact next.length_skipBlanks_le.trans (length_of_operand hoperand)
  | case3 cursor next hoperand rest hahead =>
    cases h
    exact next.length_skipBlanks_le.trans (length_of_operand hoperand)
  | case4 cursor next hoperand c rest hahead hc hop => cases h
  | case5 cursor next hoperand c rest hahead hc op hop ih =>
    have hblanks := next.length_skipBlanks_le.trans (length_of_operand hoperand)
    have hlink : (next.skipBlanks.next.emit (.operator op)).ahead.length ≤
        next.skipBlanks.ahead.length := (length_next _).trans_le (Nat.sub_le _ 1)
    exact (ih h).trans (hlink.trans hblanks)

theorem number_of_error {cursor : Cursor} {fault : Located LexFault}
    (h : cursor.operand = .error fault) : cursor.number = .error fault := by
  rw [number]
  split
  · next heq => rw [← heq, h]
  · next heq => rw [h] at heq; cases heq

/-- The scanner of numbers without the proofs that its recursion needs. -/
theorem number_of_ok {cursor after : Cursor} (h : cursor.operand = .ok after) :
    cursor.number =
      (match after.skipBlanks.ahead with
      | [] => .ok after.skipBlanks
      | c :: _ =>
        if c = '\n' then .ok after.skipBlanks
        else
          match Operator.ofChar? c with
          | none => .error (after.skipBlanks.wordFault .missingOperator)
          | some op => (after.skipBlanks.next.emit (.operator op)).number) := by
  rw [number]
  split
  · next heq => rw [h] at heq; cases heq
  · next heq =>
    rw [h] at heq
    cases heq
    split <;> next hahead => simp only [hahead]

/-- The line is over. -/
def atLineEnd (cursor : Cursor) : Bool :=
  match cursor.ahead.head? with
  | none => true
  | some c => c == '\n'

/-- Scans what follows the name in a statement, from its first character that is not a blank. -/
def tail (cursor : Cursor) (keyword : Keyword) : Except (Located LexFault) Cursor :=
  if cursor.atLineEnd then .ok cursor
  else if keyword.assigns then
    if cursor.ahead.head? = some '=' then
      let value := cursor.next.emit .equal
      if keyword = .text then value.skipBlanks.text else value.number
    else .error (cursor.wordFault fun _ => .missingEquals)
  else .error (cursor.wordFault fun word => .extraWord word keyword)

theorem length_of_tail {cursor after : Cursor} {keyword : Keyword}
    (h : cursor.tail keyword = .ok after) : after.ahead.length ≤ cursor.ahead.length := by
  have hvalue : (cursor.next.emit .equal).ahead.length ≤ cursor.ahead.length :=
    cursor.length_next.trans_le (Nat.sub_le _ 1)
  simp only [tail] at h
  split_ifs at h
  · cases h
    exact le_rfl
  · exact (length_of_text h).trans ((length_skipBlanks_le _).trans hvalue)
  · exact (length_of_number h).trans hvalue

/-- Scans a statement from its first character on. A missing name is not noticed here. -/
def statement (cursor : Cursor) : Except (Located LexFault) Cursor :=
  let word := cursor.restart.skip fun c => !isSpace c
  match Keyword.ofWord? word.lexeme with
  | none => .error (cursor.restart.wordFault .unknownStatement)
  | some keyword =>
    let name := (word.emit (.keyword keyword)).skipBlanks.skip isNameChar
    (name.close .identifier).skipBlanks.tail keyword

/-- On to the next statement. Each line feed on the way is a token. -/
def skipSpace (cursor : Cursor) : Cursor :=
  match _ : cursor.ahead with
  | [] => cursor.restart
  | c :: _ =>
    if isSpace c then
      if c = '\n' then
        { cursor.restart.next.emit .newline with line := cursor.line + 1 }.skipSpace
      else cursor.restart.next.skipSpace
    else cursor.restart
termination_by cursor.ahead.length
decreasing_by
  all_goals
    simp only [next, emit, restart, ‹cursor.ahead = _›, List.length_drop, List.length_cons]
    omega

theorem length_of_statement {cursor after : Cursor} (h : cursor.statement = .ok after) :
    after.ahead.length < cursor.ahead.length := by
  simp only [statement] at h
  split at h
  · cases h
  · next keyword hkeyword =>
    have hword := Keyword.ofWord?_eq_some_iff.1 hkeyword
    rw [lexeme_skip_restart] at hword
    have hlt : (cursor.restart.skip fun c => !isSpace c).ahead.length < cursor.ahead.length := by
      have happ : (cursor.ahead.takeWhile fun c => !isSpace c) ++
          (cursor.ahead.dropWhile fun c => !isSpace c) = cursor.ahead :=
        List.takeWhile_append_dropWhile
      have hlength := congrArg List.length happ
      rw [List.length_append, hword] at hlength
      have hpos := List.length_pos_of_ne_nil keyword.word_ne_nil
      simp only [skip, restart]
      omega
    refine ((length_of_tail h).trans (length_skipBlanks_le _)).trans_lt ?_
    rw [ahead_close]
    exact ((length_skip_le _ isNameChar).trans (length_skipBlanks_le _)).trans_lt hlt

theorem length_skipSpace_le (cursor : Cursor) :
    cursor.skipSpace.ahead.length ≤ cursor.ahead.length := by
  fun_induction skipSpace cursor with
  | case1 cursor hahead => exact le_rfl
  | case2 cursor rest hahead hspace ih =>
    exact ih.trans (cursor.length_next.trans_le (Nat.sub_le _ 1))
  | case3 cursor c rest hahead hspace hc ih =>
    exact ih.trans (cursor.length_next.trans_le (Nat.sub_le _ 1))
  | case4 cursor c rest hahead hspace => exact le_rfl

/-- Scans statements up to the end of the source. -/
def run (cursor : Cursor) : Except (Located LexFault) Cursor :=
  if cursor.skipSpace.ahead.isEmpty then .ok cursor.skipSpace
  else
    match _ : cursor.skipSpace.statement with
    | .error fault => .error fault
    | .ok after => after.run
termination_by cursor.ahead.length
decreasing_by
  have := length_of_statement ‹cursor.skipSpace.statement = _›
  have := cursor.length_skipSpace_le
  omega

/-- A scan of statements without the proofs that its recursion needs. -/
theorem run_step (cursor : Cursor) :
    cursor.run =
      if cursor.skipSpace.ahead.isEmpty then .ok cursor.skipSpace
      else cursor.skipSpace.statement >>= run := by
  rw [run]
  split
  · rfl
  · split <;> next hstatement => rw [hstatement]; rfl

/-- The tokens of a scan that is over, the last of which marks the end of the source. -/
def finished (scan : Except (Located LexFault) Cursor) : Except (Located LexFault) (List Token) :=
  scan.map fun cursor => (cursor.restart.emit .endOfInput).tokens

/-- The tokens of a source. -/
def scan (source : String) : Except (Located LexFault) (List Token) :=
  finished (Cursor.mk [] source.toList 0 1 []).run

end Cursor

end LineScript
