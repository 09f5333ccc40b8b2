import LineScript.Proofs.Tree.Program

/-!
# The language

The forms of a line, written as a grammar over its characters: `TextItems` for the value of a text,
`Chain` for the value of a number, `StatementLine` for a statement with its keyword. The grammar
knows nothing of tokens or trees, and a form may be read in more than one way; a blank of a text,
for instance, is also a character that is no dollar sign.

Main statement: `ofSource_accepts_iff`, a source is a program exactly if each of its lines is blank
or has one of the forms, and then the statements are those of the lines that are not blank, in their
order, each of the kind that its keyword names and with the number of its line.
-/

set_option autoImplicit false

namespace LineScript

open Scan Parse Text

namespace Grammar

/-! ## Forms -/

/-- The value of a text: blanks, characters other than the dollar sign, doubled dollar signs, and
references that no dollar sign follows. -/
inductive TextItems : List Char → Prop
  | nil : TextItems []
  | blank {c : Char} {rest : List Char} (hc : isBlank c = true) (hrest : TextItems rest) :
      TextItems (c :: rest)
  | char {c : Char} {rest : List Char} (hdollar : c ≠ '$') (hnewline : c ≠ '\n')
      (hrest : TextItems rest) : TextItems (c :: rest)
  | dollars {rest : List Char} (hrest : TextItems rest) : TextItems ('$' :: '$' :: rest)
  | reference {name rest : List Char} (hname : IsName name) (hnext : rest.head? ≠ some '$')
      (hrest : TextItems rest) : TextItems ('$' :: (name ++ '$' :: rest))

/-- An operand: at most 4300 digits whose value is an integer of 64 bits, or a reference. -/
inductive Operand : List Char → Prop
  | digits {digits : List Char} (hne : digits ≠ []) (hdigits : ∀ c ∈ digits, c.isDigit = true)
      (hlength : digits.length ≤ 4300) (hvalue : Nat.ofDigitChars 10 digits 0 ≤ 2 ^ 63 - 1) :
      Operand digits
  | reference {name : List Char} (hname : IsName name) : Operand ('$' :: (name ++ ['$']))

/-- Operands with operators between them. -/
inductive Chain : List Char → Prop
  | operand {text : List Char} (htext : Operand text) : Chain text
  | link {text before after rest : List Char} {sign : Char} (htext : Operand text)
      (hbefore : Blanks before) (hsign : sign ∈ ['+', '-', '*', '/']) (hafter : Blanks after)
      (hrest : Chain rest) : Chain (text ++ (before ++ sign :: (after ++ rest)))

/-- The front of a statement: a keyword and a name, with blanks around them. -/
inductive Head (keyword : Keyword) : List Char → Prop
  | mk {lead gap name trail : List Char} (hlead : Blanks lead) (hgap : Blanks gap)
      (hne : gap ≠ []) (hname : IsName name) (htrail : Blanks trail) :
      Head keyword (lead ++ (keyword.word.toList ++ (gap ++ (name ++ trail))))

/-- A line with a statement. -/
inductive StatementLine : Keyword → List Char → Prop
  | bare {keyword : Keyword} {cs : List Char} (hhead : Head keyword cs) : StatementLine keyword cs
  | number {head lead chain trail : List Char} (hhead : Head .number head) (hlead : Blanks lead)
      (hchain : Chain chain) (htrail : Blanks trail) :
      StatementLine .number (head ++ '=' :: (lead ++ (chain ++ trail)))
  | text {head value : List Char} (hhead : Head .text head) (hitems : TextItems value)
      (hfull : ∃ c ∈ value, isBlank c = false) : StatementLine .text (head ++ '=' :: value)

/-- The kind of the statements that a keyword starts. -/
def statementKind : Keyword → NodeKind
  | .text => .textAssign
  | .number => .numberAssign
  | .input => .inputStatement
  | .output => .outputStatement

/-! ## Texts -/

theorem textItems_of_isWord {word rest : List Char} (hword : IsWord word) (hfree : '\n' ∉ word)
    (hrest : TextItems rest) : TextItems (word ++ rest) := by
  induction word with
  | nil => exact hrest
  | cons c word ih =>
    obtain ⟨-, hdollar⟩ := isWordChar_eq_true_iff.1 (hword c List.mem_cons_self)
    rw [List.mem_cons, not_or] at hfree
    exact .char hdollar (Ne.symm hfree.1)
      (ih (fun d hd => hword d (List.mem_cons_of_mem _ hd)) hfree.2)

theorem textItems_of_textCut {column : Nat} {cs : List Char} {pieces : List Piece}
    (hfree : '\n' ∉ cs) (h : TextCut column cs pieces) : TextItems cs := by
  induction h with
  | @word column word hword => simpa using textItems_of_isWord hword hfree .nil
  | @dollar column word rest more hword _ ih =>
    simp only [List.mem_append, List.mem_cons, not_or] at hfree
    exact textItems_of_isWord hword hfree.1 (.dollars (ih hfree.2.2.2))
  | @reference column word name rest more hword hname hrest _ ih =>
    simp only [List.mem_append, List.mem_cons, not_or] at hfree
    exact textItems_of_isWord hword hfree.1 (.reference hname hrest (ih hfree.2.2.2.2))
  | @blank column word rest c more hword hc _ ih =>
    simp only [List.mem_append, List.mem_cons, not_or] at hfree
    exact textItems_of_isWord hword hfree.1 (.blank hc (ih hfree.2.2))

/-- A character in front of a text makes the first word of the text longer. -/
theorem exists_textCut_cons {column : Nat} {c : Char} {cs : List Char} {pieces : List Piece}
    (hc : isWordChar c = true) (h : TextCut (column + 1) cs pieces) :
    ∃ longer, TextCut column (c :: cs) longer := by
  have hcons : ∀ word, IsWord word → IsWord (c :: word) := by
    intro word hword d hd
    rcases List.mem_cons.1 hd with rfl | hd
    · exact hc
    · exact hword d hd
  have hcolumn : ∀ word : List Char, column + 1 + word.length = column + (c :: word).length := by
    intro word
    rw [List.length_cons]
    omega
  cases h with
  | word _ hword => exact ⟨_, .word column (hcons cs hword)⟩
  | @dollar _ word rest more hword hmore =>
    rw [hcolumn] at hmore
    exact ⟨_, .dollar (hcons word hword) hmore⟩
  | @reference _ word name rest more hword hname hrest hmore =>
    rw [hcolumn] at hmore
    exact ⟨_, .reference (hcons word hword) hname hrest hmore⟩
  | @blank _ word rest d more hword hd hmore =>
    rw [hcolumn] at hmore
    exact ⟨_, .blank (hcons word hword) hd hmore⟩

theorem exists_textCut {cs : List Char} (h : TextItems cs) (column : Nat) :
    ∃ pieces, TextCut column cs pieces := by
  have hnil : IsWord [] := List.forall_mem_nil _
  -- The grammar goes character by character and the scanner word by word: an item that is no
  -- character of a word comes after the empty word, and one that is makes the next word longer.
  induction h generalizing column with
  | nil => exact ⟨_, .word column hnil⟩
  | blank hc _ ih =>
    obtain ⟨pieces, hpieces⟩ := ih (column + 1)
    exact ⟨_, .blank hnil hc hpieces⟩
  | @char c rest hdollar hnewline _ ih =>
    obtain ⟨pieces, hpieces⟩ := ih (column + 1)
    by_cases hc : isBlank c = true
    · exact ⟨_, .blank hnil hc hpieces⟩
    · exact exists_textCut_cons
        (isWordChar_eq_true_iff.2 ⟨Bool.eq_false_iff.2 hc, hdollar⟩) hpieces
  | dollars _ ih =>
    obtain ⟨pieces, hpieces⟩ := ih (column + 2)
    exact ⟨_, .dollar hnil hpieces⟩
  | @reference name rest hname hnext _ ih =>
    obtain ⟨pieces, hpieces⟩ := ih (column + name.length + 2)
    exact ⟨_, .reference hnil hname hnext hpieces⟩

theorem wordPiece_eq_nil_iff {column : Nat} {word : List Char} :
    wordPiece column word = [] ↔ word = [] := by
  simp [wordPiece]

/-- A word has no blanks in it. -/
theorem eq_nil_of_blanks {word : List Char} (hword : IsWord word) (h : Blanks word) :
    word = [] := by
  apply List.eq_nil_iff_forall_not_mem.2
  intro c hc
  have hblank := h c hc
  rw [(isWordChar_eq_true_iff.1 (hword c hc)).1] at hblank
  exact Bool.false_ne_true hblank

/-- A text has no pieces exactly if it is blanks. -/
theorem pieces_eq_nil_iff {column : Nat} {cs : List Char} {pieces : List Piece}
    (h : TextCut column cs pieces) : pieces = [] ↔ Blanks cs := by
  have hdollar : isBlank '$' = false := by decide
  induction h with
  | @word column word hword =>
    rw [wordPiece_eq_nil_iff]
    constructor
    · rintro rfl
      exact blanks_nil
    · exact eq_nil_of_blanks hword
  | @dollar column word rest more hword _ ih =>
    refine ⟨fun h => absurd h (List.cons_ne_nil _ _), ?_⟩
    intro h
    have hblank := h '$' (by simp)
    rw [hdollar] at hblank
    exact absurd hblank Bool.false_ne_true
  | @reference column word name rest more hword hname hrest _ ih =>
    refine ⟨fun h => absurd h (by simp), ?_⟩
    intro h
    have hblank := h '$' (by simp)
    rw [hdollar] at hblank
    exact absurd hblank Bool.false_ne_true
  | @blank column word rest c more hword hc _ ih =>
    rw [List.append_eq_nil_iff, wordPiece_eq_nil_iff]
    constructor
    · rintro ⟨rfl, hmore⟩ d hd
      rcases List.mem_cons.1 hd with rfl | hd
      · exact hc
      · exact ih.1 hmore d hd
    · intro h
      have hwordBlank : Blanks word := fun d hd => h d (by simp [hd])
      exact ⟨eq_nil_of_blanks hword hwordBlank, ih.2 fun d hd => h d (by simp [hd])⟩

theorem pieces_ne_nil_iff {column : Nat} {cs : List Char} {pieces : List Piece}
    (h : TextCut column cs pieces) : pieces ≠ [] ↔ ∃ c ∈ cs, isBlank c = false := by
  simp [pieces_eq_nil_iff h, Blanks]

theorem kind_of_mem_wordPiece {column : Nat} {word : List Char} {piece : Piece}
    (h : piece ∈ wordPiece column word) : piece.kind = .value := by
  simp only [wordPiece] at h
  split at h
  · simp at h
  · rw [List.mem_singleton.1 h]

/-- The pieces of a text are words and names. -/
theorem kind_of_textCut {column : Nat} {cs : List Char} {pieces : List Piece}
    (h : TextCut column cs pieces) :
    ∀ piece ∈ pieces, piece.kind = .value ∨ piece.kind = .identifier := by
  intro piece hpiece
  induction h with
  | word column hword => exact Or.inl (kind_of_mem_wordPiece hpiece)
  | dollar hword _ ih =>
    rcases List.mem_cons.1 hpiece with rfl | hpiece
    · exact Or.inl rfl
    · exact ih hpiece
  | reference hword hname hrest _ ih =>
    rcases List.mem_append.1 hpiece with hpiece | hpiece
    · exact Or.inl (kind_of_mem_wordPiece hpiece)
    · rcases List.mem_cons.1 hpiece with rfl | hpiece
      · exact Or.inr rfl
      · exact ih hpiece
  | blank hword hc _ ih =>
    rcases List.mem_append.1 hpiece with hpiece | hpiece
    · exact Or.inl (kind_of_mem_wordPiece hpiece)
    · exact ih hpiece

/-! ## Numbers -/

theorem operand_of_numberLeaf {number offset column : Nat} {text : List Char} {piece : Piece}
    {leaf : NumberExpr} (hpiece : OperandCut column text piece)
    (hleaf : NumberLeaf (piece.place number offset) leaf) : Operand text := by
  cases hpiece with
  | digits hne hdigits =>
    cases hleaf with
    | literal hkind hread =>
      obtain ⟨hlength, hvalue, -⟩ := (read_digits_iff hne hdigits).1 hread
      exact .digits hne hdigits hlength hvalue
    | reference hkind => cases hkind
  | reference hname => exact .reference hname

theorem exists_operandCut {text : List Char} (h : Operand text) (column : Nat) :
    ∃ piece, OperandCut column text piece ∧
      ∀ number offset, ∃ leaf, NumberLeaf (piece.place number offset) leaf := by
  cases h with
  | digits hne hdigits hlength hvalue =>
    exact ⟨_, .digits hne hdigits, fun number offset =>
      ⟨_, .literal rfl ((read_digits_iff hne hdigits).2 ⟨hlength, hvalue, rfl⟩)⟩⟩
  | reference hname => exact ⟨_, .reference hname, fun number offset => ⟨_, .reference rfl⟩⟩

theorem char_mem_signs (op : Operator) : op.char ∈ ['+', '-', '*', '/'] := by
  cases op <;> decide

theorem exists_char_eq {sign : Char} (h : sign ∈ ['+', '-', '*', '/']) :
    ∃ op : Operator, op.char = sign := by
  simp only [List.mem_cons, List.not_mem_nil, or_false] at h
  rcases h with rfl | rfl | rfl | rfl
  · exact ⟨.add, rfl⟩
  · exact ⟨.sub, rfl⟩
  · exact ⟨.mul, rfl⟩
  · exact ⟨.div, rfl⟩

/-- The text of a chain whose tokens make up a number. -/
theorem chain_of_numberCut {number offset column : Nat} {cs : List Char} {pieces : List Piece}
    (h : NumberCut column cs pieces) {operand : Token} {rest : List Token}
    {leaf value : NumberExpr} (htokens : pieces.map (Piece.place number offset) = operand :: rest)
    (hleaf : NumberLeaf operand leaf) (hchain : ChainTree leaf rest value) :
    ∃ lead chain trail, cs = lead ++ (chain ++ trail) ∧ Blanks lead ∧ Chain chain ∧
      Blanks trail := by
  induction h generalizing operand rest leaf value with
  | @last column lead text trail piece hlead hpiece htrail =>
    rw [List.map_cons, List.map_nil, List.cons.injEq] at htokens
    obtain ⟨rfl, rfl⟩ := htokens
    exact ⟨lead, text, trail, rfl, hlead, .operand (operand_of_numberLeaf hpiece hleaf), htrail⟩
  | @link column lead text gap tail piece more op hlead hpiece hgap _ ih =>
    simp only [List.map_cons, List.cons.injEq] at htokens
    obtain ⟨rfl, rfl⟩ := htokens
    cases hmore : more.map (Piece.place number offset) with
    | nil =>
      rw [hmore] at hchain
      cases hchain
    | cons next others =>
      rw [hmore] at hchain
      cases hchain with
      | link hsign hnext hothers =>
        -- The chain after this operand has a tree of its own, which folds without it.
        obtain ⟨result, hresult⟩ := exists_chainTree hothers _
        obtain ⟨inner, chain, trail, rfl, hinner, hrest, htrail⟩ := ih hmore hnext hresult
        exact ⟨lead, text ++ (gap ++ op.char :: (inner ++ chain)), trail, by simp, hlead,
          .link (operand_of_numberLeaf hpiece hleaf) hgap (char_mem_signs op) hinner hrest, htrail⟩

theorem exists_numberCut {chain : List Char} (h : Chain chain) (column : Nat)
    {lead trail : List Char} (hlead : Blanks lead) (htrail : Blanks trail) :
    ∃ pieces, NumberCut column (lead ++ (chain ++ trail)) pieces ∧
      ∀ number offset, ∃ operand rest leaf value,
        pieces.map (Piece.place number offset) = operand :: rest ∧ NumberLeaf operand leaf ∧
          ChainTree leaf rest value := by
  induction h generalizing column lead with
  | @operand text htext =>
    obtain ⟨piece, hpiece, hleaf⟩ := exists_operandCut htext (column + lead.length)
    refine ⟨[piece], .last hlead hpiece htrail, ?_⟩
    intro number offset
    obtain ⟨leaf, hleaf⟩ := hleaf number offset
    exact ⟨_, [], leaf, leaf, rfl, hleaf, .done leaf⟩
  | @link text before after rest sign htext hbefore hsign hafter _ ih =>
    obtain ⟨op, rfl⟩ := exists_char_eq hsign
    obtain ⟨piece, hpiece, hleaf⟩ := exists_operandCut htext (column + lead.length)
    obtain ⟨more, hmore, htrees⟩ :=
      ih (column + lead.length + text.length + before.length + 1) hafter
    have happ : lead ++ (text ++ (before ++ op.char :: (after ++ rest)) ++ trail) =
        lead ++ (text ++ (before ++ op.char :: (after ++ (rest ++ trail)))) := by simp
    rw [happ]
    refine ⟨_, .link op hlead hpiece hbefore hmore, ?_⟩
    intro number offset
    obtain ⟨leaf, hleaf⟩ := hleaf number offset
    obtain ⟨operand, tokens, next, value, htokens, hnext, hchain⟩ := htrees number offset
    obtain ⟨result, hresult⟩ := exists_chainTree hchain
      (.binary (leaf.span.upTo next.span) op.symbol leaf next)
    refine ⟨_, _, leaf, result, List.map_cons, hleaf, ?_⟩
    rw [List.map_cons, htokens]
    exact .link rfl hnext hresult

/-! ## Lines -/

/-- The first token of a line tells what its statement is. -/
theorem kind_of_lineTree {first : Token} {rest : List Token} {parsed : Statement}
    (h : LineTree (first :: rest) parsed) {keyword : Keyword}
    (hfirst : first.kind = .keyword keyword) : parsed.kind = statementKind keyword := by
  cases h with
  | emptyText hkind hname =>
    cases hkind.symm.trans hfirst
    rfl
  | text hkind hname hequal hvalue =>
    cases hkind.symm.trans hfirst
    rfl
  | zeroNumber hkind hname =>
    cases hkind.symm.trans hfirst
    rfl
  | number hkind hname hequal hleaf hchain =>
    cases hkind.symm.trans hfirst
    rfl
  | input hkind hname =>
    cases hkind.symm.trans hfirst
    rfl
  | output hkind hname =>
    cases hkind.symm.trans hfirst
    rfl

/-- The second token of a line is a name. -/
theorem exists_name_of_lineTree {first : Token} {rest : List Token} {parsed : Statement}
    (h : LineTree (first :: rest) parsed) :
    ∃ name more, rest = name :: more ∧ name.kind = .identifier := by
  cases h with
  | emptyText hkind hname => exact ⟨_, _, rfl, hname⟩
  | text hkind hname hequal hvalue => exact ⟨_, _, rfl, hname⟩
  | zeroNumber hkind hname => exact ⟨_, _, rfl, hname⟩
  | number hkind hname hequal hleaf hchain => exact ⟨_, _, rfl, hname⟩
  | input hkind hname => exact ⟨_, _, rfl, hname⟩
  | output hkind hname => exact ⟨_, _, rfl, hname⟩

theorem namePiece_of_ne_nil (column : Nat) {name : List Char} (h : name ≠ []) :
    namePiece column name = [⟨.identifier, name, column⟩] := by
  simp [namePiece, h]

/-- What follows a name does not start with another name. -/
theorem kind_of_tailCut {column : Nat} {keyword : Keyword} {cs : List Char} {piece : Piece}
    {more : List Piece} (h : TailCut column keyword cs (piece :: more)) :
    piece.kind = .equal := by
  cases h <;> rfl

/-- The scanner lets a name be missing, but no statement comes of that. -/
theorem name_ne_nil_of_lineTree {number offset column tailColumn : Nat} {keyword : Keyword}
    {name tail : List Char} {head : Piece} {more : List Piece} {parsed : Statement}
    (htail : TailCut tailColumn keyword tail more)
    (htree : LineTree ((head :: namePiece column name ++ more).map (Piece.place number offset))
      parsed) : name ≠ [] := by
  rintro rfl
  obtain ⟨second, others, hsecond, hkind⟩ := exists_name_of_lineTree htree
  cases more with
  | nil => simp [namePiece] at hsecond
  | cons piece more =>
    obtain ⟨rfl, -⟩ := List.cons.inj hsecond
    cases (kind_of_tailCut htail).symm.trans hkind

/-- A line that holds a statement has the form of one, with the keyword of the statement. -/
theorem statementLine_of_lineTree {number offset : Nat} {cs : List Char} {pieces : List Piece}
    {parsed : Statement} (hfree : '\n' ∉ cs) (hcut : LineCut cs pieces)
    (htree : LineTree (pieces.map (Piece.place number offset)) parsed) :
    ∃ keyword, StatementLine keyword cs ∧ parsed.kind = statementKind keyword := by
  cases hcut with
  | empty hcs => exact absurd rfl htree.ne_nil
  | @statement keyword lead gap name space tail more hlead hgap hname hspace hword hbare htail =>
    refine ⟨keyword, ?_, kind_of_lineTree htree rfl⟩
    have hne := name_ne_nil_of_lineTree htail htree
    have hgapne : gap ≠ [] := fun h => hne (List.append_eq_nil_iff.1 (hword h)).1
    have hhead : Head keyword (lead ++ (keyword.word.toList ++ (gap ++ (name ++ space)))) :=
      .mk hlead hgap hgapne ⟨hne, hname⟩ hspace
    have happ : lead ++ (keyword.word.toList ++ (gap ++ (name ++ (space ++ tail)))) =
        (lead ++ (keyword.word.toList ++ (gap ++ (name ++ space)))) ++ tail := by simp
    have hfreeTail : '\n' ∉ tail := fun h => hfree (by simp [h])
    rw [happ]
    rw [namePiece_of_ne_nil _ hne] at htree
    cases htail with
    | nothing keyword =>
      rw [List.append_nil]
      exact .bare hhead
    | @text value pieces hvalue =>
      simp only [List.cons_append, List.nil_append, List.map_cons] at htree
      generalize htokens : pieces.map (Piece.place number offset) = tokens at htree
      cases htree with
      | text hfirst hkind hequal htext =>
        have hpieces : pieces ≠ [] := by
          rintro rfl
          exact htext.ne_nil htokens.symm
        have hitems := textItems_of_textCut (fun h => hfreeTail (by simp [h])) hvalue
        exact .text hhead hitems ((pieces_ne_nil_iff hvalue).1 hpieces)
      | number hfirst hkind hequal hleaf hchain => cases hfirst
    | @number value pieces hvalue =>
      simp only [List.cons_append, List.nil_append, List.map_cons] at htree
      generalize htokens : pieces.map (Piece.place number offset) = tokens at htree
      cases htree with
      | text hfirst hkind hequal htext => cases hfirst
      | number hfirst hkind hequal hleaf hchain =>
        obtain ⟨front, chain, trail, rfl, hfront, hchain, htrail⟩ :=
          chain_of_numberCut hvalue htokens hleaf hchain
        exact .number hhead hfront hchain htrail

/-- A name that is there, after a keyword, in a line with any rest. -/
theorem lineCut_of_head {keyword : Keyword} {lead gap name space tail : List Char}
    {pieces : List Piece} (hlead : Blanks lead) (hgap : Blanks gap) (hne : gap ≠ [])
    (hname : IsName name) (hspace : Blanks space)
    (htail : TailCut (lead.length + keyword.word.toList.length + gap.length + name.length
      + space.length) keyword tail pieces) :
    LineCut (lead ++ (keyword.word.toList ++ (gap ++ (name ++ space))) ++ tail)
      (⟨.keyword keyword, keyword.word.toList, lead.length⟩ ::
        ⟨.identifier, name, lead.length + keyword.word.toList.length + gap.length⟩ :: pieces) := by
  have hcut : LineCut _ _ := .statement hlead hgap hname.2 hspace (fun h => absurd h hne)
    (fun h => absurd h hname.1) htail
  rw [namePiece_of_ne_nil _ hname.1] at hcut
  simpa using hcut

/-- A line with the form of a statement is cut into pieces that make up a statement, wherever the
line stands. -/
theorem exists_lineTree_of_statementLine {keyword : Keyword} {cs : List Char}
    (h : StatementLine keyword cs) :
    ∃ pieces, LineCut cs pieces ∧
      ∀ number offset, ∃ parsed, LineTree (pieces.map (Piece.place number offset)) parsed := by
  cases h with
  | bare hhead =>
    cases hhead with
    | mk hlead hgap hne hname htrail =>
      have hcut := lineCut_of_head hlead hgap hne hname htrail (.nothing keyword)
      rw [List.append_nil] at hcut
      refine ⟨_, hcut, ?_⟩
      intro number offset
      cases keyword with
      | text => exact ⟨_, .emptyText rfl rfl⟩
      | number => exact ⟨_, .zeroNumber rfl rfl⟩
      | input => exact ⟨_, .input rfl rfl⟩
      | output => exact ⟨_, .output rfl rfl⟩
  | number hhead hlead hchain htrail =>
    cases hhead with
    | mk hfront hgap hne hname hspace =>
      obtain ⟨pieces, hvalue, htrees⟩ := exists_numberCut hchain _ hlead htrail
      refine ⟨_, lineCut_of_head hfront hgap hne hname hspace (.number hvalue), ?_⟩
      intro number offset
      obtain ⟨operand, rest, leaf, value, htokens, hleaf, hchain⟩ := htrees number offset
      simp only [List.map_cons, htokens]
      exact ⟨_, .number rfl rfl rfl hleaf hchain⟩
  | @text head value hhead hitems hfull =>
    cases hhead with
    | mk hfront hgap hne hname hspace =>
      obtain ⟨pieces, hvalue⟩ := exists_textCut hitems _
      refine ⟨_, lineCut_of_head hfront hgap hne hname hspace (.text hvalue), ?_⟩
      intro number offset
      have hpieces := (pieces_ne_nil_iff hvalue).2 hfull
      have hkinds : ∀ token ∈ pieces.map (Piece.place number offset),
          token.kind = .value ∨ token.kind = .identifier := by
        intro token htoken
        obtain ⟨piece, hpiece, rfl⟩ := List.mem_map.1 htoken
        exact kind_of_textCut hvalue piece hpiece
      obtain ⟨tree, htree⟩ := exists_textTree (by simpa using hpieces) hkinds
      exact ⟨_, .text rfl rfl rfl htree⟩

/-! ## Keywords -/

/-- A statement starts, after blanks, with the word of its keyword. -/
theorem nextWord_of_statementLine {keyword : Keyword} {cs : List Char}
    (h : StatementLine keyword cs) : nextWord (skipBlanks cs) = keyword.word.toList := by
  have hword : ∀ {head : List Char}, Head keyword head → ∀ tail,
      nextWord (skipBlanks (head ++ tail)) = keyword.word.toList := by
    intro head hhead tail
    cases hhead with
    | @mk lead gap name trail hlead hgap hne hname htrail =>
      simp only [List.append_assoc]
      rw [skipBlanks_append hlead (leaves_word keyword _)]
      refine takeWhile_run (fun c hc => by simp [keyword.isSpace_word c hc]) ?_
      cases gap with
      | nil => exact absurd rfl hne
      | cons c gap =>
        exact leaves_cons_iff.2 (by simp [isSpace_of_isBlank (hgap c List.mem_cons_self)])
  cases h with
  | bare hhead =>
    have hcs := hword hhead []
    rwa [List.append_nil] at hcs
  | number hhead hlead hchain htrail => exact hword hhead _
  | text hhead hitems hfull => exact hword hhead _

/-- A line has the form of statements with one keyword only. -/
theorem StatementLine.keyword_unique {first second : Keyword} {cs : List Char}
    (hfirst : StatementLine first cs) (hsecond : StatementLine second cs) : first = second := by
  -- The scanner's first word is the keyword, and two keywords are never written the same.
  have hword := (nextWord_of_statementLine hfirst).symm.trans (nextWord_of_statementLine hsecond)
  have hkeyword := Keyword.ofWord?_eq_some_iff.2 hword
  rw [Keyword.ofWord?_eq_some_iff.2 rfl] at hkeyword
  exact Option.some.inj hkeyword

theorem StatementLine.not_blank {keyword : Keyword} {cs : List Char}
    (h : StatementLine keyword cs) : ¬ Blanks cs := by
  intro hcs
  have hword := nextWord_of_statementLine h
  rw [skipBlanks_of_blanks hcs] at hword
  exact keyword.word_ne_nil hword.symm

/-! ## Programs -/

/-- On a line, white space is blanks. -/
theorem forall_isSpace_iff {cs : List Char} (hfree : '\n' ∉ cs) :
    (∀ c ∈ cs, isSpace c = true) ↔ Blanks cs := by
  apply forall₂_congr
  intro c hc
  rw [isBlank_eq_isSpace fun h => hfree (h ▸ hc)]

/-- What a statement tells of its line. -/
structure FromLine (statement : Statement) (text : List Char) (number : Nat) : Prop where
  line_eq : statement.span.line = number
  form : ∃ keyword, StatementLine keyword text
  kind_eq : ∀ keyword, StatementLine keyword text → statement.kind = statementKind keyword

theorem blanks_of_lineHolds {line : PlacedLine} {pieces : List Piece}
    (hcut : LineCut line.text pieces) (hfound : LineHolds (line.tokens pieces) none) :
    Blanks line.text := by
  have hpieces : pieces = [] := List.map_eq_nil_iff.1 hfound
  subst hpieces
  generalize line.text = text at hcut
  cases hcut with
  | empty hcs => exact hcs

/-- A line gives a statement of its own exactly if it is not blank. -/
theorem fromLine_of_lineHolds {line : PlacedLine} {pieces : List Piece} {found : Option Statement}
    (hfree : '\n' ∉ line.text) (hcut : LineCut line.text pieces)
    (hfound : LineHolds (line.tokens pieces) found) :
    List.Forall₂ (fun statement line => FromLine statement line.text line.number) found.toList
      ([line].filter fun line => !line.text.all isSpace) := by
  cases found with
  | none =>
    have hall : line.text.all isSpace = true :=
      List.all_eq_true.2 ((forall_isSpace_iff hfree).2 (blanks_of_lineHolds hcut hfound))
    simp [hall]
  | some parsed =>
    have htree : LineTree (line.tokens pieces) parsed := hfound
    obtain ⟨keyword, hform, hkind⟩ := statementLine_of_lineTree hfree hcut htree
    have hall : ¬ line.text.all isSpace = true := fun h =>
      hform.not_blank ((forall_isSpace_iff hfree).1 (List.all_eq_true.1 h))
    have hline := line_of_lineHolds hfound (List.mem_singleton.2 rfl)
    simp only [List.filter_cons, hall, Bool.not_false, List.filter_nil, if_true,
      Option.toList_some]
    refine .cons ⟨hline, ⟨keyword, hform⟩, ?_⟩ .nil
    intro other hother
    rw [hkind, hform.keyword_unique hother]

theorem forall₂_fromLine {lines : List PlacedLine} {tokens : List Token}
    {statements : List Statement} (h : SourceTree lines tokens statements)
    (hfree : ∀ line ∈ lines, '\n' ∉ line.text) :
    List.Forall₂ (fun statement line => FromLine statement line.text line.number) statements
      (lines.filter fun line => !line.text.all isSpace) := by
  induction h with
  | last hcut hfound => exact fromLine_of_lineHolds (hfree _ List.mem_cons_self) hcut hfound
  | @more line lines pieces found tokens statements hcut hfound _ ih =>
    rw [← List.singleton_append, List.filter_append]
    refine List.rel_append (fromLine_of_lineHolds (hfree _ List.mem_cons_self) hcut hfound) ?_
    exact ih fun other hother => hfree other (List.mem_cons_of_mem _ hother)

/-- Lines that are blank or have the form of a statement make up a program. -/
theorem exists_sourceTree {lines : List PlacedLine} (hne : lines ≠ [])
    (hfree : ∀ line ∈ lines, '\n' ∉ line.text)
    (h : ∀ line ∈ lines, (∀ c ∈ line.text, isSpace c = true) ∨
      ∃ keyword, StatementLine keyword line.text) :
    ∃ tokens statements, SourceTree lines tokens statements := by
  induction lines with
  | nil => exact absurd rfl hne
  | cons line lines ih =>
    obtain ⟨pieces, found, hcut, hfound⟩ : ∃ pieces found, LineCut line.text pieces ∧
        LineHolds (line.tokens pieces) found := by
      rcases h line List.mem_cons_self with hblank | ⟨keyword, hform⟩
      · exact ⟨[], none, .empty ((forall_isSpace_iff (hfree _ List.mem_cons_self)).1 hblank), rfl⟩
      · obtain ⟨pieces, hcut, htrees⟩ := exists_lineTree_of_statementLine hform
        obtain ⟨parsed, htree⟩ := htrees line.number line.offset
        exact ⟨pieces, some parsed, hcut, htree⟩
    cases lines with
    | nil => exact ⟨_, _, .last hcut hfound⟩
    | cons next others =>
      obtain ⟨tokens, statements, hmore⟩ := ih (List.cons_ne_nil _ _)
        (fun other hother => hfree other (List.mem_cons_of_mem _ hother))
        fun other hother => h other (List.mem_cons_of_mem _ hother)
      exact ⟨_, _, .more hcut hfound hmore⟩

/-- A source is a program exactly if each of its lines is white space or has the form of a
statement, and then each line that is not white space gives one statement, in order, with the number
of the line and of the kind that the keyword of the line names. -/
theorem ofSource_accepts_iff (source : String) :
    ((∃ statements, Statement.ofSource source = .ok statements) ↔
      ∀ line ∈ lines source.toList, (∀ c ∈ line, isSpace c = true) ∨
        ∃ keyword, StatementLine keyword line) ∧
    ∀ statements, Statement.ofSource source = .ok statements →
      List.Forall₂ (fun statement (line : List Char × Nat) => FromLine statement line.1 line.2)
        statements
        (((lines source.toList).zipIdx 1).filter fun line => !line.1.all isSpace) := by
  have hfree : ∀ line ∈ placeLines 1 0 (lines source.toList), '\n' ∉ line.text :=
    fun line hline => newline_not_mem_of_mem_placeLines hline
  refine ⟨⟨?_, ?_⟩, ?_⟩
  · rintro ⟨statements, h⟩ text htext
    obtain ⟨tokens, htree⟩ := ofSource_eq_ok_iff.1 h
    rw [← map_text_placeLines 1 0 (lines source.toList)] at htext
    obtain ⟨line, hline, rfl⟩ := List.mem_map.1 htext
    obtain ⟨pieces, found, hcut, hfound⟩ := htree.exists_pieces hline
    cases found with
    | none =>
      exact Or.inl ((forall_isSpace_iff (hfree line hline)).2 (blanks_of_lineHolds hcut hfound))
    | some parsed =>
      obtain ⟨keyword, hform, -⟩ := statementLine_of_lineTree (hfree line hline) hcut hfound
      exact Or.inr ⟨keyword, hform⟩
  · intro h
    have hne : placeLines 1 0 (lines source.toList) ≠ [] := by
      intro hnil
      have htexts := map_text_placeLines 1 0 (lines source.toList)
      rw [hnil] at htexts
      exact lines_ne_nil source.toList htexts.symm
    obtain ⟨tokens, statements, htree⟩ := exists_sourceTree hne hfree fun line hline => by
      refine h line.text ?_
      rw [← map_text_placeLines 1 0 (lines source.toList)]
      exact List.mem_map_of_mem hline
    exact ⟨statements, ofSource_eq_ok_iff.2 ⟨tokens, htree⟩⟩
  · intro statements h
    obtain ⟨tokens, htree⟩ := ofSource_eq_ok_iff.1 h
    rw [← map_placeLines_eq_zipIdx 1 0, List.filter_map, List.forall₂_map_right_iff]
    exact forall₂_fromLine htree hfree

end Grammar

end LineScript
