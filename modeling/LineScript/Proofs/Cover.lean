import LineScript.Proofs.Location

/-!
# Tokens cover the source

The scanner skips blanks, takes the dollar signs around a name off it and drops the second of two
dollar signs, and all along it counts columns by hand. `Layout` reads a text and its tokens from the
left, with one rule for each thing that can stand next; the dollar signs that a token leaves out are
listed in `Dollars`. Each part of a line is laid out in this way, whatever follows it, and so is a
source (`layout_of_scan`). What is asked of the tokens then goes by induction over the layout. Main
statement: `covers_of_scan`, the tokens of a source are its stretches in order, and nothing is left
between them but blanks and those dollar signs.
-/

set_option autoImplicit false

namespace LineScript

open Scan Text

/-! ## Layouts -/

/-- A text that is not empty and has no white space. -/
structure Solid (text : List Char) : Prop where
  ne_nil : text ≠ []
  free : ∀ c ∈ text, isSpace c = false

/-- The token with a text that starts at an offset. -/
def tokenAt (kind : Token.Kind) (text : List Char) (line offset : Nat) : Token :=
  ⟨kind, String.ofList text, ⟨line, offset, (offset + text.length : Nat)⟩⟩

/-- What a token leaves out before and after its text: nothing, the dollar signs of a reference, or
the second of two dollar signs if its text ends with the first. -/
inductive Dollars (kind : Token.Kind) (text : List Char) : List Char → List Char → Prop
  | none (hkind : kind.endsLine = false) : Dollars kind text [] []
  | reference (hkind : kind = .identifier) : Dollars kind text ['$'] ['$']
  | doubled (hkind : kind = .value) (hlast : text.getLast? = some '$') : Dollars kind text [] ['$']

/-- The tokens of a text that starts on a line at an offset: its end, or a blank, a line feed or a
token, and then the tokens of what follows. -/
inductive Layout : Nat → Nat → List Char → List Token → Prop
  | stop (line offset : Nat) : Layout line offset [] [tokenAt .endOfInput [] line offset]
  | blank {line offset : Nat} {c : Char} {cs : List Char} {tokens : List Token}
      (hc : isBlank c = true) (hrest : Layout line (offset + 1) cs tokens) :
      Layout line offset (c :: cs) tokens
  | newline {line offset : Nat} {cs : List Char} {tokens : List Token}
      (hrest : Layout (line + 1) (offset + 1) cs tokens) :
      Layout line offset ('\n' :: cs) (tokenAt .newline ['\n'] line offset :: tokens)
  | token {line offset : Nat} {kind : Token.Kind} {lead text trail cs : List Char}
      {tokens : List Token} (hdollars : Dollars kind text lead trail) (htext : Solid text)
      (hrest : Layout line (offset + lead.length + text.length + trail.length) cs tokens) :
      Layout line offset (lead ++ (text ++ (trail ++ cs)))
        (tokenAt kind text line (offset + lead.length) :: tokens)

section Pieces

variable {line offset column : Nat} {cs : List Char} {tokens : List Token}

theorem Dollars.endsLine_eq {kind : Token.Kind} {text lead trail : List Char}
    (h : Dollars kind text lead trail) : kind.endsLine = false := by
  cases h with
  | none hkind => exact hkind
  | reference hkind =>
    rw [hkind]
    rfl
  | doubled hkind hlast =>
    rw [hkind]
    rfl

theorem Dollars.eq_dollar {kind : Token.Kind} {text lead trail : List Char}
    (h : Dollars kind text lead trail) {c : Char} (hc : c ∈ lead ∨ c ∈ trail) : c = '$' := by
  cases h with
  | none hkind => simp at hc
  | reference hkind => simpa using hc
  | doubled hkind hlast => simpa using hc

theorem Layout.cast {a b : Nat} (h : Layout line a cs tokens) (hoffset : a = b) :
    Layout line b cs tokens :=
  hoffset ▸ h

theorem Layout.blanks {lead : List Char} (hlead : Blanks lead)
    (h : Layout line (offset + lead.length) cs tokens) :
    Layout line offset (lead ++ cs) tokens := by
  induction lead generalizing offset with
  | nil => exact h
  | cons c lead ih =>
    apply Layout.blank (hlead c List.mem_cons_self)
    apply ih fun d hd => hlead d (List.mem_cons_of_mem _ hd)
    apply h.cast
    rw [List.length_cons]
    omega

/-! ## Pieces of a line -/

theorem solid_name {name : List Char} (h : IsName name) : Solid name :=
  ⟨h.1, fun c hc => isSpace_of_isNameChar (h.2 c hc)⟩

theorem solid_char {c : Char} (h : isSpace c = false) : Solid [c] :=
  ⟨List.cons_ne_nil _ _, fun _ hd => List.mem_singleton.1 hd ▸ h⟩

/-- On a line, the characters of a word are no white space. -/
theorem isSpace_of_isWord {word : List Char} (hword : IsWord word) (hfree : '\n' ∉ word) :
    ∀ c ∈ word, isSpace c = false := by
  intro c hc
  have hne : c ≠ '\n' := fun e => hfree (e ▸ hc)
  rw [← isBlank_eq_isSpace hne]
  exact (isWordChar_eq_true_iff.1 (hword c hc)).1

/-- Blanks in the middle of a line. -/
theorem Layout.gap {gap : List Char} (hgap : Blanks gap)
    (h : Layout line (offset + (column + gap.length)) cs tokens) :
    Layout line (offset + column) (gap ++ cs) tokens :=
  Layout.blanks hgap (h.cast (Nat.add_assoc offset column gap.length).symm)

/-- A piece that is written as it is. -/
theorem Layout.piece (piece : Piece) (hkind : piece.kind.endsLine = false)
    (htext : Solid piece.text)
    (h : Layout line (offset + (piece.column + piece.text.length)) cs tokens) :
    Layout line (offset + piece.column) (piece.text ++ cs) (piece.place line offset :: tokens) := by
  apply Layout.token (.none hkind) htext
  exact h.cast (Nat.add_assoc offset piece.column piece.text.length).symm

/-- A name between dollar signs, the first of which stands in the given column. -/
theorem Layout.reference {name : List Char} (hname : IsName name)
    (h : Layout line (offset + (column + name.length + 2)) cs tokens) :
    Layout line (offset + column) ('$' :: (name ++ '$' :: cs))
      (Piece.place line offset ⟨.identifier, name, column + 1⟩ :: tokens) := by
  apply Layout.token (.reference rfl) (solid_name hname)
  apply h.cast
  simp only [List.length_singleton]
  omega

/-- A word with two dollar signs after it, the first of which belongs to it. -/
theorem Layout.doubled {word : List Char} (hword : ∀ c ∈ word, isSpace c = false)
    (h : Layout line (offset + (column + word.length + 2)) cs tokens) :
    Layout line (offset + column) (word ++ '$' :: '$' :: cs)
      (Piece.place line offset ⟨.value, word ++ ['$'], column⟩ :: tokens) := by
  have hsolid : Solid (word ++ ['$']) := by
    refine ⟨by simp, ?_⟩
    intro c hc
    rcases List.mem_append.1 hc with hc | hc
    · exact hword c hc
    · rw [List.mem_singleton.1 hc]
      decide
  have hcs : word ++ '$' :: '$' :: cs = [] ++ ((word ++ ['$']) ++ (['$'] ++ cs)) := by simp
  rw [hcs]
  apply Layout.token (.doubled rfl (by simp)) hsolid
  apply h.cast
  simp only [List.length_append, List.length_singleton, List.length_nil]
  omega

theorem Layout.wordPiece {word : List Char} (hword : ∀ c ∈ word, isSpace c = false)
    (h : Layout line (offset + (column + word.length)) cs tokens) :
    Layout line (offset + column) (word ++ cs)
      ((wordPiece column word).map (Piece.place line offset) ++ tokens) := by
  cases word with
  | nil => exact h
  | cons c word =>
    exact Layout.piece ⟨.value, c :: word, column⟩ rfl ⟨List.cons_ne_nil _ _, hword⟩ h

theorem Layout.namePiece {name : List Char} (hname : ∀ c ∈ name, isNameChar c = true)
    (h : Layout line (offset + (column + name.length)) cs tokens) :
    Layout line (offset + column) (name ++ cs)
      ((namePiece column name).map (Piece.place line offset) ++ tokens) := by
  cases name with
  | nil => exact h
  | cons c name =>
    exact Layout.piece ⟨.identifier, c :: name, column⟩ rfl
      (solid_name ⟨List.cons_ne_nil _ _, hname⟩) h

end Pieces

/-! ## Lines -/

section Lines

variable {line offset column : Nat} {cs rest : List Char} {pieces : List Piece}
  {tokens : List Token}

theorem Scan.TextCut.layout (hcut : TextCut column cs pieces) (hfree : '\n' ∉ cs)
    (h : Layout line (offset + (column + cs.length)) rest tokens) :
    Layout line (offset + column) (cs ++ rest)
      (pieces.map (Piece.place line offset) ++ tokens) := by
  -- Each rule takes a part off the front, and what is left starts where that part ends.
  induction hcut with
  | word column hword => exact Layout.wordPiece (isSpace_of_isWord hword hfree) h
  | @dollar column word cs more hword _ ih =>
    simp only [List.mem_append, List.mem_cons, not_or] at hfree
    simp only [List.length_append, List.length_cons] at h
    rw [List.append_assoc]
    apply Layout.doubled (isSpace_of_isWord hword hfree.1)
    exact ih hfree.2.2.2 (h.cast (by omega))
  | @reference column word name cs more hword hname _ _ ih =>
    simp only [List.mem_append, List.mem_cons, not_or] at hfree
    simp only [List.length_append, List.length_cons] at h
    rw [List.append_assoc, List.map_append, List.append_assoc]
    apply Layout.wordPiece (isSpace_of_isWord hword hfree.1)
    rw [List.cons_append, List.append_assoc, List.map_cons, List.cons_append]
    apply Layout.reference hname
    exact ih hfree.2.2.2.2 (h.cast (by omega))
  | @blank column word cs c more hword hc _ ih =>
    simp only [List.mem_append, List.mem_cons, not_or] at hfree
    simp only [List.length_append, List.length_cons] at h
    rw [List.append_assoc, List.map_append, List.append_assoc]
    apply Layout.wordPiece (isSpace_of_isWord hword hfree.1)
    apply Layout.blank hc
    exact ih hfree.2.2 (h.cast (by omega))

theorem Scan.OperandCut.layout {text : List Char} {piece : Piece}
    (hcut : OperandCut column text piece)
    (h : Layout line (offset + (column + text.length)) rest tokens) :
    Layout line (offset + column) (text ++ rest) (piece.place line offset :: tokens) := by
  cases hcut with
  | digits hne hdigits =>
    exact Layout.piece ⟨.value, text, column⟩ rfl
      ⟨hne, fun c hc => isSpace_of_isDigit (hdigits c hc)⟩ h
  | @reference name hname =>
    simp only [List.length_append, List.length_cons, List.length_nil] at h
    rw [List.cons_append, List.append_assoc]
    apply Layout.reference hname
    exact h.cast (by omega)

theorem Scan.NumberCut.layout (hcut : NumberCut column cs pieces)
    (h : Layout line (offset + (column + cs.length)) rest tokens) :
    Layout line (offset + column) (cs ++ rest)
      (pieces.map (Piece.place line offset) ++ tokens) := by
  induction hcut with
  | @last column lead text trail piece hlead hpiece htrail =>
    simp only [List.length_append] at h
    rw [List.append_assoc, List.append_assoc]
    apply Layout.gap hlead
    apply hpiece.layout
    apply Layout.gap htrail
    exact h.cast (by omega)
  | @link column lead text gap cs piece more op hlead hpiece hgap _ ih =>
    simp only [List.length_append, List.length_cons] at h
    rw [List.append_assoc, List.append_assoc, List.append_assoc]
    apply Layout.gap hlead
    apply hpiece.layout
    apply Layout.gap hgap
    have hsolid : Solid [op.char] := by
      apply solid_char
      cases op <;> decide
    apply Layout.piece ⟨.operator op, [op.char], _⟩ rfl hsolid
    exact ih (h.cast (by omega))

theorem Scan.TailCut.layout {keyword : Keyword} (hcut : TailCut column keyword cs pieces)
    (hfree : '\n' ∉ cs)
    (h : Layout line (offset + (column + cs.length)) rest tokens) :
    Layout line (offset + column) (cs ++ rest)
      (pieces.map (Piece.place line offset) ++ tokens) := by
  have hequal : Solid ['='] := solid_char (by decide)
  cases hcut with
  | nothing keyword => exact h
  | @text value more hvalue =>
    apply Layout.piece ⟨.equal, ['='], column⟩ rfl hequal
    apply hvalue.layout fun hmem => hfree (List.mem_cons_of_mem _ hmem)
    apply h.cast
    rw [List.length_cons]
    omega
  | @number value more hvalue =>
    apply Layout.piece ⟨.equal, ['='], column⟩ rfl hequal
    apply hvalue.layout
    apply h.cast
    rw [List.length_cons]
    omega

/-- A line is laid out, whatever follows it. -/
theorem Scan.LineCut.layout (hcut : LineCut cs pieces) (hfree : '\n' ∉ cs)
    (h : Layout line (offset + cs.length) rest tokens) :
    Layout line offset (cs ++ rest) (pieces.map (Piece.place line offset) ++ tokens) := by
  cases hcut with
  | empty hcs => exact Layout.blanks hcs h
  | @statement keyword lead gap name space tail more hlead hgap hname hspace _ _ htail =>
    simp only [List.mem_append, not_or] at hfree
    simp only [List.length_append] at h
    have hword : Solid keyword.word.toList := ⟨keyword.word_ne_nil, keyword.isSpace_word⟩
    simp only [List.append_assoc, List.map_append, List.cons_append, List.map_cons]
    apply Layout.blanks hlead
    apply Layout.piece ⟨.keyword keyword, keyword.word.toList, lead.length⟩ rfl hword
    apply Layout.gap hgap
    apply Layout.namePiece hname
    apply Layout.gap hspace
    apply htail.layout hfree.2.2.2.2.2
    exact h.cast (by omega)

/-- Lines are laid out one after the other. -/
theorem layout_of_sourceCut {number : Nat}
    (h : SourceCut (placeLines number offset (lines cs)) tokens) :
    Layout number offset cs tokens := by
  induction cs using linesInduction generalizing number offset tokens with
  | single line hfree =>
    rw [lines_of_not_mem hfree] at h
    cases h with
    | last hcut =>
      have hlayout := hcut.layout hfree (Layout.stop number (offset + line.length))
      rwa [List.append_nil] at hlayout
    | more hcut hmore => exact absurd rfl hmore.ne_nil
  | more line rest hfree ih =>
    rw [lines_append_newline hfree, placeLines] at h
    generalize hplaced : placeLines (number + 1) (offset + line.length + 1) (lines rest) = placed
      at h
    cases h with
    | last hcut =>
      obtain ⟨first, others, hlines⟩ := List.exists_cons_of_ne_nil (lines_ne_nil rest)
      rw [hlines] at hplaced
      cases hplaced
    | more hcut hmore =>
      rw [← hplaced] at hmore
      exact hcut.layout hfree (Layout.newline (ih hmore))

/-- The tokens of a source are laid out along it. -/
theorem layout_of_scan {source : String}
    (hscan : Token.scan source = .ok tokens) : Layout 1 0 source.toList tokens :=
  layout_of_sourceCut (scan_eq_ok_iff.1 hscan)

end Lines

/-! ## What a layout says about its tokens -/

section Tokens

variable {line offset : Nat} {cs : List Char} {tokens : List Token}

/-- The last token ends the input, where the text ends, and no other does. -/
theorem Layout.exists_end (h : Layout line offset cs tokens) :
    ∃ front number, tokens = front ++ [tokenAt .endOfInput [] number (offset + cs.length)] ∧
      ∀ token ∈ front, token.kind ≠ .endOfInput := by
  induction h with
  | stop line offset => exact ⟨[], line, rfl, List.forall_mem_nil _⟩
  | @blank line offset c cs tokens hc _ ih =>
    obtain ⟨front, number, rfl, hfront⟩ := ih
    refine ⟨front, number, ?_, hfront⟩
    rw [List.length_cons, Nat.add_right_comm, Nat.add_assoc]
  | @newline line offset cs tokens _ ih =>
    obtain ⟨front, number, rfl, hfront⟩ := ih
    refine ⟨tokenAt .newline ['\n'] line offset :: front, number, ?_,
      List.forall_mem_cons.2 ⟨by simp [tokenAt], hfront⟩⟩
    rw [List.length_cons, Nat.add_right_comm, Nat.add_assoc, List.cons_append]
  | @token line offset kind lead text trail cs tokens hdollars htext _ ih =>
    obtain ⟨front, number, rfl, hfront⟩ := ih
    have hkind : kind ≠ .endOfInput := by
      rintro rfl
      cases hdollars.endsLine_eq
    refine ⟨tokenAt kind text line (offset + lead.length) :: front, number, ?_,
      List.forall_mem_cons.2 ⟨hkind, hfront⟩⟩
    simp only [List.length_append, List.cons_append, Nat.add_assoc]

/-- A token ends the input and is empty, or is a line feed, or has a text without white space. -/
theorem Layout.lexeme (h : Layout line offset cs tokens) {token : Token} (htoken : token ∈ tokens) :
    token.kind = .endOfInput ∧ token.lexeme = "" ∨ token.kind = .newline ∧ token.lexeme = "\n" ∨
      token.kind.endsLine = false ∧ Solid token.lexeme.toList := by
  induction h with
  | stop line offset =>
    rw [List.mem_singleton.1 htoken]
    exact Or.inl ⟨rfl, rfl⟩
  | blank hc _ ih => exact ih htoken
  | newline _ ih =>
    rcases List.mem_cons.1 htoken with rfl | htoken
    · exact Or.inr (Or.inl ⟨rfl, rfl⟩)
    · exact ih htoken
  | token hdollars htext _ ih =>
    rcases List.mem_cons.1 htoken with rfl | htoken
    · refine Or.inr (Or.inr ⟨hdollars.endsLine_eq, ?_⟩)
      rw [tokenAt, String.toList_ofList]
      exact htext
    · exact ih htoken

/-- The tokens of what is left start at its offset or later. -/
theorem Layout.le_start (h : Layout line offset cs tokens) {token : Token}
    (htoken : token ∈ tokens) : (offset : Int) ≤ token.span.start := by
  induction h with
  | stop line offset =>
    rw [List.mem_singleton.1 htoken]
    exact Int.le_refl _
  | blank hc _ ih =>
    have hle := ih htoken
    omega
  | newline _ ih =>
    rcases List.mem_cons.1 htoken with rfl | htoken
    · exact Int.le_refl _
    · have hle := ih htoken
      omega
  | token hdollars htext _ ih =>
    rcases List.mem_cons.1 htoken with rfl | htoken
    · simp only [tokenAt]
      omega
    · have hle := ih htoken
      omega

/-- Only the token that ends the input is empty. -/
theorem Layout.wide (h : Layout line offset cs tokens) {token : Token} (htoken : token ∈ tokens)
    (hkind : token.kind ≠ .endOfInput) : token.span.start < token.span.stop := by
  induction h with
  | stop line offset =>
    rw [List.mem_singleton.1 htoken] at hkind
    exact absurd rfl hkind
  | blank hc _ ih => exact ih htoken
  | newline _ ih =>
    rcases List.mem_cons.1 htoken with rfl | htoken
    · simp [tokenAt]
    · exact ih htoken
  | token hdollars htext _ ih =>
    rcases List.mem_cons.1 htoken with rfl | htoken
    · have hlength := List.length_pos_iff.2 htext.ne_nil
      simp only [tokenAt]
      omega
    · exact ih htoken

/-- Only a line feed has white space. -/
theorem Layout.free (h : Layout line offset cs tokens) {token : Token} (htoken : token ∈ tokens)
    (hkind : token.kind ≠ .newline) : ∀ c ∈ token.lexeme.toList, isSpace c = false := by
  rcases h.lexeme htoken with ⟨-, hlexeme⟩ | ⟨hnewline, -⟩ | ⟨-, hsolid⟩
  · simp [hlexeme]
  · exact absurd hnewline hkind
  · exact hsolid.free

/-- No token reaches beyond the start of a later one. -/
theorem Layout.ordered (h : Layout line offset cs tokens) :
    tokens.Pairwise fun a b => a.span.stop ≤ b.span.start := by
  induction h with
  | stop line offset => exact List.pairwise_singleton _ _
  | blank hc _ ih => exact ih
  | newline hrest ih =>
    refine List.pairwise_cons.2 ⟨?_, ih⟩
    intro token htoken
    exact hrest.le_start htoken
  | token hdollars htext hrest ih =>
    refine List.pairwise_cons.2 ⟨?_, ih⟩
    intro token htoken
    have hle := hrest.le_start htoken
    simp only [tokenAt]
    omega

/-- The line feeds among the tokens are those of the text, in order. -/
theorem Layout.feeds (h : Layout line offset cs tokens) :
    (tokens.filter fun token => token.kind = .newline).map
        (fun token => (token.lexeme, token.span.start, token.span.stop)) =
      (cs.idxsOf '\n' offset).map fun i => ("\n", (i : Int), (i : Int) + 1) := by
  induction h with
  | stop line offset => rfl
  | @blank line offset c cs tokens hc _ ih =>
    have hne : c ≠ '\n' := by
      rintro rfl
      cases hc
    rw [ih]
    simp [List.idxsOf_cons, hne]
  | newline _ ih =>
    simp [tokenAt, List.idxsOf_cons, ih]
  | @token line offset kind lead text trail cs tokens hdollars htext _ ih =>
    have hkind : kind ≠ .newline := by
      rintro rfl
      cases hdollars.endsLine_eq
    have hnone : (lead ++ (text ++ trail)).idxsOf '\n' offset = [] := by
      apply List.idxsOf_eq_nil_iff.2
      intro c hc
      apply beq_eq_false_iff_ne.2
      rintro rfl
      simp only [List.mem_append] at hc
      rcases hc with hc | hc | hc
      · cases hdollars.eq_dollar (Or.inl hc)
      · exact absurd (htext.free _ hc) (by decide)
      · cases hdollars.eq_dollar (Or.inr hc)
    have hassoc : lead ++ (text ++ (trail ++ cs)) = (lead ++ (text ++ trail)) ++ cs := by simp
    rw [hassoc, List.idxsOf_append, hnone, List.nil_append, List.filter_cons_of_neg (by simpa), ih]
    simp only [List.length_append, Nat.add_assoc]

end Tokens

/-! ## Between tokens -/

/-- A span that holds the character with an index. -/
def Span.Holds (span : Span) (i : Nat) : Prop := span.start ≤ i ∧ (i : Int) < span.stop

/-- Where the dollar signs stand that no token holds: on both sides of a name, and after a word that
ends with another one. -/
inductive Delimits (source : List Char) (tokens : List Token) (i : Nat) : Prop
  | reference {name : Token} {opening closing : Nat} (hname : name ∈ tokens)
      (hkind : name.kind = .identifier) (hopening : source[opening]? = some '$')
      (hstart : name.span.start = opening + 1) (hclosing : source[closing]? = some '$')
      (hstop : name.span.stop = closing) (hi : i = opening ∨ i = closing)
  | doubled {word : Token} (hword : word ∈ tokens) (hkind : word.kind = .value)
      (hlast : word.lexeme.toList.getLast? = some '$') (hstop : word.span.stop = i)

theorem Delimits.mono {source : List Char} {tokens more : List Token} {i : Nat}
    (h : Delimits source tokens i) (hsubset : tokens ⊆ more) : Delimits source more i := by
  cases h with
  | reference hname hkind hopening hstart hclosing hstop hi =>
    exact .reference (hsubset hname) hkind hopening hstart hclosing hstop hi
  | doubled hword hkind hlast hstop => exact .doubled (hsubset hword) hkind hlast hstop

/-- An index that belongs to a token but is not held by it is that of a dollar sign. -/
theorem Dollars.delimits {kind : Token.Kind} {text lead trail before cs : List Char}
    (h : Dollars kind text lead trail) {source : List Char}
    (hsource : source = before ++ (lead ++ (text ++ (trail ++ cs)))) {tokens : List Token}
    {line i : Nat} (htoken : tokenAt kind text line (before.length + lead.length) ∈ tokens)
    (hi : before.length ≤ i)
    (hstop : i < before.length + lead.length + text.length + trail.length)
    (hgap : ¬(tokenAt kind text line (before.length + lead.length)).span.Holds i) :
    source[i]? = some '$' ∧ Delimits source tokens i := by
  simp only [Span.Holds, tokenAt] at hgap
  cases h with
  | none hkind =>
    simp only [List.length_nil] at hgap hstop
    omega
  | reference hkind =>
    have hopening : source[before.length]? = some '$' := by simp [hsource]
    have hclosing : source[before.length + 1 + text.length]? = some '$' := by
      have hassoc : source = (before ++ '$' :: text) ++ '$' :: cs := by simp [hsource]
      have hlength : (before ++ '$' :: text).length = before.length + 1 + text.length := by
        simp only [List.length_append, List.length_cons]
        omega
      rw [hassoc, ← hlength]
      simp
    simp only [List.length_singleton] at hgap hstop
    have heither : i = before.length ∨ i = before.length + 1 + text.length := by omega
    refine ⟨?_, .reference htoken hkind hopening ?_ hclosing ?_ heither⟩
    · rcases heither with rfl | rfl
      · exact hopening
      · exact hclosing
    · simp [tokenAt]
    · simp [tokenAt]
  | doubled hkind hlast =>
    simp only [List.length_nil, List.length_singleton] at hgap hstop
    obtain rfl : i = before.length + text.length := by omega
    refine ⟨?_, .doubled htoken hkind ?_ ?_⟩
    · have hassoc : source = (before ++ text) ++ '$' :: cs := by simp [hsource]
      rw [hassoc, ← List.length_append]
      simp
    · rw [tokenAt, String.toList_ofList]
      exact hlast
    · simp [tokenAt]

/-- What no token holds is a blank, or one of the dollar signs that tokens leave out. -/
theorem Layout.between {line offset : Nat} {cs : List Char} {tokens : List Token}
    (h : Layout line offset cs tokens) {source before : List Char} (hsource : source = before ++ cs)
    (hoffset : before.length = offset) {i : Nat} {c : Char} (hc : source[i]? = some c)
    (hi : offset ≤ i) (hgap : ∀ token ∈ tokens, ¬token.span.Holds i) :
    isBlank c = true ∨ c = '$' ∧ Delimits source tokens i := by
  -- The text before what is left grows along the layout, and the source stays the same.
  induction h generalizing before with
  | stop line offset =>
    rw [hsource, List.append_nil, List.getElem?_eq_none (by omega)] at hc
    cases hc
  | @blank line offset d cs tokens hd _ ih =>
    by_cases hfirst : i = offset
    · rw [hsource, hfirst, ← hoffset] at hc
      obtain rfl : d = c := by simpa using hc
      exact Or.inl hd
    · exact ih (hsource.trans (List.append_cons before d cs)) (by simp [hoffset]) (by omega) hgap
  | @newline line offset cs tokens _ ih =>
    obtain ⟨hhead, hrest⟩ := List.forall_mem_cons.1 hgap
    have hlater : offset + 1 ≤ i := by
      simp only [Span.Holds, tokenAt, List.length_singleton] at hhead
      omega
    refine (ih (hsource.trans (List.append_cons before '\n' cs)) (by simp [hoffset]) hlater
      hrest).imp_right ?_
    rintro ⟨hdollar, hdelimits⟩
    exact ⟨hdollar, hdelimits.mono (List.subset_cons_self _ _)⟩
  | @token line offset kind lead text trail cs tokens hdollars htext _ ih =>
    subst hoffset
    obtain ⟨hhead, hrest⟩ := List.forall_mem_cons.1 hgap
    by_cases hstop : i < before.length + lead.length + text.length + trail.length
    · obtain ⟨hdollar, hdelimits⟩ :=
        hdollars.delimits hsource List.mem_cons_self hi hstop hhead
      rw [hc] at hdollar
      exact Or.inr ⟨Option.some.inj hdollar, hdelimits⟩
    · have hnext : source = (before ++ (lead ++ (text ++ trail))) ++ cs := by simp [hsource]
      have hlength : (before ++ (lead ++ (text ++ trail))).length =
          before.length + lead.length + text.length + trail.length := by
        simp only [List.length_append]
        omega
      refine (ih hnext hlength (by omega) hrest).imp_right ?_
      rintro ⟨hdollar, hdelimits⟩
      exact ⟨hdollar, hdelimits.mono (List.subset_cons_self _ _)⟩

/-! ## Sources -/

/-- Tokens that are a source cut up: each is a stretch of it that is not empty and stands on its
line, they are in order and end with the end of the source, the line feeds among them are those of
the source, no other token has white space, and all that is left out is blanks and the dollar signs
that belong to names and words. -/
structure Covers (source : String) (tokens : List Token) : Prop where
  -- The last token, and no other, ends the input, where the source ends.
  ends : ∃ (front : List Token) (stop : Token), tokens = front ++ [stop] ∧ stop.kind = .endOfInput ∧
    stop.span.start = source.length ∧ stop.span.stop = source.length ∧
    ∀ token ∈ front, token.kind ≠ .endOfInput
  text : ∀ token ∈ tokens, token.kind ≠ .endOfInput →
    0 ≤ token.span.start ∧ token.span.start < token.span.stop ∧
      token.span.stop ≤ source.length ∧ token.lexeme.toList = token.span.cut source
  ordered : tokens.Pairwise fun a b => a.span.stop ≤ b.span.start
  -- Lines are counted from one, by the line feeds before the token.
  line : ∀ token ∈ tokens,
    token.span.line = 1 + (source.toList.take token.span.start.toNat).count '\n'
  -- One token for each line feed, in their order.
  feeds : (tokens.filter fun token => token.kind = .newline).map
      (fun token => (token.lexeme, token.span.start, token.span.stop)) =
    (source.toList.idxsOf '\n').map fun i => ("\n", (i : Int), (i : Int) + 1)
  free : ∀ token ∈ tokens, token.kind ≠ .newline → ∀ c ∈ token.lexeme.toList, isSpace c = false
  -- A character that no token holds is a blank or a dollar sign, and that belongs to a token.
  between : ∀ i c, source.toList[i]? = some c → (∀ token ∈ tokens, ¬token.span.Holds i) →
    isBlank c = true ∨ c = '$' ∧ Delimits source.toList tokens i

/-- The tokens of a source cover it. -/
theorem covers_of_scan {source : String} {tokens : List Token}
    (hscan : Token.scan source = .ok tokens) : Covers source tokens := by
  have hlayout := layout_of_scan hscan
  refine ⟨?_, ?_, hlayout.ordered, ?_, hlayout.feeds, ?_, ?_⟩
  · obtain ⟨front, number, htokens, hfront⟩ := hlayout.exists_end
    rw [String.length_toList, Nat.zero_add] at htokens
    exact ⟨front, _, htokens, rfl, rfl, rfl, hfront⟩
  · intro token htoken hkind
    have hstands := stands_of_scan hscan htoken
    have hwide := hlayout.wide htoken hkind
    have hcut := hstands.cut_eq
    obtain ⟨before, after, hsource, hspan⟩ := hstands.exists_around
    have hlength : source.length =
        before.length + (token.lexeme.toList.length + after.length) := by
      rw [← String.length_toList, hsource, List.length_append, List.length_append]
    rw [hspan] at hwide ⊢
    refine ⟨Int.natCast_nonneg _, hwide, ?_, ?_⟩
    · simp only
      omega
    · rw [← hspan, hcut]
  · intro token htoken
    obtain ⟨before, after, hsource, hspan⟩ := (stands_of_scan hscan htoken).exists_around
    rw [hspan, Int.toNat_natCast, hsource, List.take_left]
  · intro token htoken hkind
    exact hlayout.free htoken hkind
  · intro i c hc hgap
    exact hlayout.between (List.nil_append _).symm rfl hc (Nat.zero_le i) hgap

/-- The dollar signs of a word and of a name, which no token holds, at the indices 11, 13 and 15. -/
theorem covers_of_scan_dollars :
    let tokens : List Token :=
      [⟨.keyword .text, "Text", ⟨1, 0, 4⟩⟩, ⟨.identifier, "a", ⟨1, 5, 6⟩⟩, ⟨.equal, "=", ⟨1, 7, 8⟩⟩,
       ⟨.value, "5$", ⟨1, 9, 11⟩⟩, ⟨.identifier, "b", ⟨1, 14, 15⟩⟩, ⟨.newline, "\n", ⟨1, 16, 17⟩⟩,
       ⟨.keyword .output, "Output", ⟨2, 17, 23⟩⟩, ⟨.identifier, "a", ⟨2, 24, 25⟩⟩,
       ⟨.endOfInput, "", ⟨2, 25, 25⟩⟩]
    Token.scan "Text a = 5$$ $b$\nOutput a" = .ok tokens ∧
      Covers "Text a = 5$$ $b$\nOutput a" tokens := by
  intro tokens
  have hscan : Token.scan "Text a = 5$$ $b$\nOutput a" = .ok tokens := by cbv
  exact ⟨hscan, covers_of_scan hscan⟩

end LineScript
