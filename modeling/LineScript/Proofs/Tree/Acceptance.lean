import LineScript.Proofs.Integer

/-!
# Which tokens are a program

The parser takes any list of tokens, also one that no source has. `StatementForm` lists the forms
that the tokens of a line can have, by their kinds alone, and `IsProgram` asks that the tokens have
an end and that each stretch between line feeds before it is empty or has one of the forms. Neither
mentions the trees that the parser makes, or the order in which it looks at tokens. Main statement:
`parse_iff_isProgram`, the parser accepts exactly these lists, blames a token that it reached for
any other, and never looks at what follows the first end.
-/

set_option autoImplicit false

namespace LineScript.Parse

/-! ## Forms -/

/-- An operand by its kind: a name, or a value that is an integer of 64 bits. -/
inductive OperandForm (token : Token) : Prop
  | name (hkind : token.kind = .identifier)
  | integer {n : Int} (hkind : token.kind = .value)
      (hread : Integer.read token.lexeme = .integer n)

/-- Operands with operators between them. -/
inductive ChainForm : List Token → Prop
  | operand {operand : Token} (hoperand : OperandForm operand) : ChainForm [operand]
  | link {operand sign : Token} {op : Operator} {rest : List Token}
      (hoperand : OperandForm operand) (hsign : sign.kind = .operator op)
      (hrest : ChainForm rest) : ChainForm (operand :: sign :: rest)

/-- The forms of a statement: a keyword and a name, and for texts and numbers also an equals sign
and a value after these. -/
inductive StatementForm : List Token → Prop
  | bare {first name : Token} {keyword : Keyword} (hfirst : first.kind = .keyword keyword)
      (hname : name.kind = .identifier) : StatementForm [first, name]
  | text {first name equal : Token} {value : List Token} (hfirst : first.kind = .keyword .text)
      (hname : name.kind = .identifier) (hequal : equal.kind = .equal) (hne : value ≠ [])
      (hvalue : ∀ token ∈ value, token.kind = .value ∨ token.kind = .identifier) :
      StatementForm (first :: name :: equal :: value)
  | number {first name equal : Token} {value : List Token}
      (hfirst : first.kind = .keyword .number) (hname : name.kind = .identifier)
      (hequal : equal.kind = .equal) (hvalue : ChainForm value) :
      StatementForm (first :: name :: equal :: value)

/-- Whether a token ends the input. -/
def isEnd (token : Token) : Bool := token.kind = .endOfInput

/-- Whether a token is a line feed. -/
def isFeed (token : Token) : Bool := token.kind = .newline

/-- The stretches between the line feeds, up to the first end of the input. -/
def stretches (tokens : List Token) : List (List Token) :=
  (tokens.takeWhile fun token => !isEnd token).splitOnP isFeed

/-- The tokens have an end, and each stretch before it is empty or has the form of a statement. -/
structure IsProgram (tokens : List Token) : Prop where
  ends : ∃ stop ∈ tokens, stop.kind = .endOfInput
  lines : ∀ line ∈ stretches tokens, line = [] ∨ StatementForm line

/-! ## Lines -/

theorem operandForm_iff {token : Token} :
    OperandForm token ↔ ∃ leaf, NumberLeaf token leaf := by
  constructor
  · intro h
    cases h with
    | name hkind => exact ⟨_, .reference hkind⟩
    | integer hkind hread => exact ⟨_, .literal hkind hread⟩
  · rintro ⟨leaf, hleaf⟩
    cases hleaf with
    | literal hkind hread => exact .integer hkind hread
    | reference hkind => exact .name hkind

/-- An operand and what goes on its chain have the form of a chain. -/
theorem chainForm_of_chainTree {operand : Token} {leaf left value : NumberExpr} {rest : List Token}
    (hleaf : NumberLeaf operand leaf) (h : ChainTree left rest value) :
    ChainForm (operand :: rest) := by
  -- The tree on the left grows from link to link, but only the last operand is still in the form.
  induction h generalizing operand leaf with
  | done left => exact .operand (operandForm_iff.2 ⟨leaf, hleaf⟩)
  | link hsign hnext _ ih => exact .link (operandForm_iff.2 ⟨leaf, hleaf⟩) hsign (ih hnext)

theorem exists_chainTree_of_chainForm {tokens : List Token} (h : ChainForm tokens) :
    ∃ operand rest leaf value, tokens = operand :: rest ∧ NumberLeaf operand leaf ∧
      ChainTree leaf rest value := by
  induction h with
  | operand hoperand =>
    obtain ⟨leaf, hleaf⟩ := operandForm_iff.1 hoperand
    exact ⟨_, _, leaf, leaf, rfl, hleaf, .done leaf⟩
  | link hoperand hsign _ ih =>
    obtain ⟨leaf, hleaf⟩ := operandForm_iff.1 hoperand
    obtain ⟨next, others, nextLeaf, value, rfl, hnext, hchain⟩ := ih
    -- The rest was parsed with its own first leaf on the left, where this chain has an operation.
    obtain ⟨result, hresult⟩ := exists_chainTree hchain
      (.binary (leaf.span.upTo nextLeaf.span) _ leaf nextLeaf)
    exact ⟨_, _, leaf, result, rfl, hleaf, .link hsign hnext hresult⟩

/-- Tokens make up a statement exactly if they have the form of one. -/
theorem statementForm_iff {tokens : List Token} :
    StatementForm tokens ↔ ∃ parsed, LineTree tokens parsed := by
  constructor
  · intro h
    cases h with
    | @bare first name keyword hfirst hname =>
      cases keyword with
      | text => exact ⟨_, .emptyText hfirst hname⟩
      | number => exact ⟨_, .zeroNumber hfirst hname⟩
      | input => exact ⟨_, .input hfirst hname⟩
      | output => exact ⟨_, .output hfirst hname⟩
    | text hfirst hname hequal hne hvalue =>
      obtain ⟨value, htree⟩ := exists_textTree hne hvalue
      exact ⟨_, .text hfirst hname hequal htree⟩
    | number hfirst hname hequal hvalue =>
      obtain ⟨operand, rest, leaf, value, rfl, hleaf, hchain⟩ :=
        exists_chainTree_of_chainForm hvalue
      exact ⟨_, .number hfirst hname hequal hleaf hchain⟩
  · rintro ⟨parsed, htree⟩
    cases htree with
    | emptyText hfirst hname => exact .bare hfirst hname
    | text hfirst hname hequal hvalue =>
      exact .text hfirst hname hequal hvalue.ne_nil fun _ => kind_of_mem_textTree hvalue
    | zeroNumber hfirst hname => exact .bare hfirst hname
    | number hfirst hname hequal hleaf hchain =>
      exact .number hfirst hname hequal (chainForm_of_chainTree hleaf hchain)
    | input hfirst hname => exact .bare hfirst hname
    | output hfirst hname => exact .bare hfirst hname

/-- A line that ends at a token parses exactly if it is empty or has the form of a statement. -/
theorem exists_parse_iff {line : Line} {stop : Token} (hstop : line.stop = .found stop) :
    (∃ found, line.parse = .ok found) ↔ line.tokens = [] ∨ StatementForm line.tokens := by
  obtain ⟨tokens, finish⟩ := line
  obtain rfl : finish = .found stop := hstop
  simp only [parse_eq_ok_iff, statementForm_iff]
  constructor
  · rintro ⟨found, hfound⟩
    cases found with
    | none => exact Or.inl hfound
    | some parsed => exact Or.inr ⟨parsed, hfound⟩
  · rintro (hnil | ⟨parsed, hparsed⟩)
    · exact ⟨none, hnil⟩
    · exact ⟨some parsed, hparsed⟩

theorem finish_ne_ok {line : Line} {last : Span} (hstop : line.stop = .missing last) :
    line.finish ≠ .ok () := by
  intro h
  simp only [Line.finish] at h
  split at h
  · next hfound =>
    rw [hstop] at hfound
    cases hfound
  · cases h

/-- A line without an end does not parse. -/
theorem parse_ne_ok {line : Line} {last : Span} (hstop : line.stop = .missing last)
    (found : Option Statement) : line.parse ≠ .ok found := by
  intro h
  simp only [Line.parse] at h
  split at h
  · next hfound =>
    rw [hstop] at hfound
    cases hfound
  · cases h
  · next first rest htokens =>
    obtain ⟨parsed, hparsed, -⟩ := bind_eq_ok_iff.1 h
    -- Each kind of statement is finished where its line ends, and this line ends nowhere.
    have hfinish : ∀ {after : Line} {u : Unit}, Line.Rest { line with tokens := rest } after →
        after.finish ≠ .ok u := by
      intro after u hrest
      exact finish_ne_ok (hrest.stop_eq.trans hstop)
    simp only [statement] at hparsed
    split at hparsed
    · obtain ⟨⟨target, value, after⟩, hassign, hparsed⟩ := bind_eq_ok_iff.1 hparsed
      obtain ⟨u, hu, -⟩ := bind_eq_ok_iff.1 hparsed
      exact hfinish (rest_of_assignment rest_of_textValue hassign) hu
    · obtain ⟨⟨target, value, after⟩, hassign, hparsed⟩ := bind_eq_ok_iff.1 hparsed
      obtain ⟨u, hu, -⟩ := bind_eq_ok_iff.1 hparsed
      exact hfinish (rest_of_assignment rest_of_numberValue hassign) hu
    · obtain ⟨⟨target, after⟩, hname, hparsed⟩ := bind_eq_ok_iff.1 hparsed
      obtain ⟨u, hu, -⟩ := bind_eq_ok_iff.1 hparsed
      exact hfinish (rest_of_identifier hname) hu
    · obtain ⟨⟨target, after⟩, hname, hparsed⟩ := bind_eq_ok_iff.1 hparsed
      obtain ⟨u, hu, -⟩ := bind_eq_ok_iff.1 hparsed
      exact hfinish (rest_of_identifier hname) hu
    · cases hparsed

/-! ## Cutting tokens into lines -/

theorem cutLines_ne_nil (last : Span) (tokens : List Token) : cutLines last tokens ≠ [] := by
  induction tokens with
  | nil => simp [cutLines]
  | cons token tokens ih =>
    rw [cutLines]
    split
    · simp
    · simp
    · cases hcut : cutLines last tokens with
      | nil => exact absurd hcut ih
      | cons line lines => simp

/-- The lines that tokens are cut into are the stretches between their line feeds. -/
theorem map_tokens_cutLines (last : Span) (tokens : List Token) :
    (cutLines last tokens).map Line.tokens = stretches tokens := by
  induction tokens with
  | nil => rfl
  | cons token tokens ih =>
    simp only [stretches] at ih ⊢
    cases hkind : token.kind with
    | endOfInput => simp [cutLines, hkind, isEnd]
    | newline =>
      have hend : isEnd token = false := by simp [isEnd, hkind]
      have hfeed : isFeed token = true := by simp [isFeed, hkind]
      simp [cutLines, hkind, hend, hfeed, List.splitOnP_cons_eq_if_modifyHead, ih]
    | keyword keyword | identifier | value | equal | operator op =>
      have hend : isEnd token = false := by simp [isEnd, hkind]
      have hfeed : isFeed token = false := by simp [isFeed, hkind]
      obtain ⟨line, lines, hcut⟩ := List.exists_cons_of_ne_nil (cutLines_ne_nil last tokens)
      rw [hcut, List.map_cons] at ih
      simp [cutLines, hkind, hend, hfeed, List.splitOnP_cons_eq_if_modifyHead, hcut, ← ih]

/-- Tokens with an end are cut into lines that all end at a token. -/
theorem exists_stop_of_mem_cutLines {last : Span} {tokens : List Token}
    (hends : ∃ stop ∈ tokens, stop.kind = .endOfInput) {line : Line}
    (h : line ∈ cutLines last tokens) : ∃ stop, line.stop = .found stop := by
  induction tokens generalizing line with
  | nil =>
    obtain ⟨stop, hmem, -⟩ := hends
    cases hmem
  | cons token tokens ih =>
    have hrest : token.kind ≠ .endOfInput → ∃ stop ∈ tokens, stop.kind = .endOfInput := by
      intro hne
      obtain ⟨stop, hmem, hstop⟩ := hends
      rcases List.mem_cons.1 hmem with rfl | hmem
      · exact absurd hstop hne
      · exact ⟨stop, hmem, hstop⟩
    rw [cutLines] at h
    split at h
    · obtain rfl := List.mem_singleton.1 h
      exact ⟨token, rfl⟩
    · next hkind =>
      rcases List.mem_cons.1 h with rfl | h
      · exact ⟨token, rfl⟩
      · exact ih (hrest (by simp [hkind])) h
    · next hend _ =>
      split at h
      · cases h
      · next first others hcut =>
        rw [hcut] at ih
        rcases List.mem_cons.1 h with rfl | h
        · have hfirst : ∃ stop, first.stop = .found stop := ih (hrest hend) List.mem_cons_self
          exact hfirst
        · exact ih (hrest hend) (List.mem_cons_of_mem _ h)

/-- Tokens without an end are cut into lines of which one ends nowhere. -/
theorem exists_missing_of_cutLines (last : Span) {tokens : List Token}
    (hends : ∀ token ∈ tokens, token.kind ≠ .endOfInput) :
    ∃ line ∈ cutLines last tokens, line.stop = .missing last := by
  induction tokens with
  | nil => exact ⟨_, List.mem_cons_self, rfl⟩
  | cons token tokens ih =>
    obtain ⟨hfirst, hrest⟩ := List.forall_mem_cons.1 hends
    obtain ⟨line, hline, hmissing⟩ := ih hrest
    rw [cutLines]
    split
    · next hkind => exact absurd hkind hfirst
    · exact ⟨line, List.mem_cons_of_mem _ hline, hmissing⟩
    · split
      · next hcut =>
        rw [hcut] at hline
        cases hline
      · next first others hcut =>
        rw [hcut] at hline
        rcases List.mem_cons.1 hline with rfl | hline
        · exact ⟨_, List.mem_cons_self, hmissing⟩
        · exact ⟨line, List.mem_cons_of_mem _ hline, hmissing⟩

/-- What follows the first end of the input is not cut into lines. -/
theorem cutLines_append_end (last other : Span) (front rest : List Token) {stop : Token}
    (hstop : stop.kind = .endOfInput) :
    cutLines last (front ++ stop :: rest) = cutLines other (front ++ [stop]) := by
  induction front with
  | nil => simp [cutLines, hstop]
  | cons token front ih => simp only [List.cons_append, cutLines, ih]

/-! ## Programs -/

theorem exists_parseLines_iff {lines : List Line} :
    (∃ statements, parseLines lines = .ok statements) ↔
      ∀ line ∈ lines, ∃ found, line.parse = .ok found := by
  induction lines with
  | nil => simp [parseLines]
  | cons line lines ih =>
    simp only [parseLines, bind_eq_ok_iff, List.forall_mem_cons, ← ih]
    constructor
    · rintro ⟨statements, found, hfound, more, hmore, -⟩
      exact ⟨⟨found, hfound⟩, more, hmore⟩
    · rintro ⟨⟨found, hfound⟩, more, hmore⟩
      exact ⟨_, found, hfound, more, hmore, rfl⟩

/-- The parser accepts exactly the tokens that are a program. -/
theorem exists_statements_iff {tokens : List Token} :
    (∃ statements, Statement.parse tokens = .ok statements) ↔ IsProgram tokens := by
  rw [Statement.parse, exists_parseLines_iff]
  constructor
  · intro h
    have hends : ∃ stop ∈ tokens, stop.kind = .endOfInput := by
      by_contra hnone
      obtain ⟨line, hline, hmissing⟩ := exists_missing_of_cutLines (lastSpan tokens)
        fun token htoken hkind => hnone ⟨token, htoken, hkind⟩
      obtain ⟨found, hfound⟩ := h line hline
      exact parse_ne_ok hmissing found hfound
    refine ⟨hends, ?_⟩
    intro stretch hstretch
    rw [← map_tokens_cutLines (lastSpan tokens)] at hstretch
    obtain ⟨line, hline, rfl⟩ := List.mem_map.1 hstretch
    obtain ⟨stop, hstop⟩ := exists_stop_of_mem_cutLines hends hline
    exact (exists_parse_iff hstop).1 (h line hline)
  · rintro ⟨hends, hlines⟩ line hline
    obtain ⟨stop, hstop⟩ := exists_stop_of_mem_cutLines hends hline
    apply (exists_parse_iff hstop).2
    apply hlines
    rw [← map_tokens_cutLines (lastSpan tokens)]
    exact List.mem_map_of_mem hline

/-- What follows the first end of the input has no effect on the parser. -/
theorem parse_append_end (front rest : List Token) {stop : Token}
    (hstop : stop.kind = .endOfInput) :
    Statement.parse (front ++ stop :: rest) = Statement.parse (front ++ [stop]) := by
  rw [Statement.parse, Statement.parse, cutLines_append_end _ _ front rest hstop]

/-- A token before which the input does not end. -/
def Reached (tokens : List Token) (token : Token) : Prop :=
  ∃ before after, tokens = before ++ token :: after ∧
    ∀ earlier ∈ before, earlier.kind ≠ .endOfInput

/-- Any tokens, cut before the first end of the input, if there is one. -/
theorem exists_before_end (tokens : List Token) :
    ∃ front rest, tokens = front ++ rest ∧ (∀ token ∈ front, token.kind ≠ .endOfInput) ∧
      ∀ stop ∈ rest.head?, stop.kind = .endOfInput := by
  refine ⟨tokens.takeWhile fun token => !isEnd token, tokens.dropWhile fun token => !isEnd token,
    List.takeWhile_append_dropWhile.symm, ?_, ?_⟩
  · intro token htoken
    have hkind := List.mem_takeWhile_imp htoken
    simpa [isEnd] using hkind
  · intro stop hstop
    have hkind := List.head?_dropWhile_not (fun token => !isEnd token) tokens
    rw [Option.mem_def.1 hstop] at hkind
    simpa [isEnd] using hkind

/-- Tokens that are no program are blamed on one that the parser reached. -/
theorem exists_reached_of_parse {tokens : List Token} {fault : Located ParseFault}
    (hne : tokens ≠ []) (h : Statement.parse tokens = .error (.fault fault)) :
    ∃ token, Reached tokens token ∧ fault.span = token.span := by
  obtain ⟨front, rest, rfl, hfront, hrest⟩ := exists_before_end tokens
  have hreached : ∀ token ∈ front ++ rest.head?.toList, Reached (front ++ rest) token := by
    intro token htoken
    rcases List.mem_append.1 htoken with htoken | htoken
    · obtain ⟨before, after, rfl⟩ := List.append_of_mem htoken
      exact ⟨before, after ++ rest, by simp, fun earlier hearlier =>
        hfront earlier (List.mem_append_left _ hearlier)⟩
    · cases rest with
      | nil => cases htoken
      | cons stop rest =>
        obtain rfl := List.mem_singleton.1 htoken
        exact ⟨front, rest, rfl, hfront⟩
  have hparse : Statement.parse (front ++ rest.head?.toList) = .error (.fault fault) := by
    cases rest with
    | nil => exact h
    | cons stop rest =>
      rw [parse_append_end front rest (hrest stop rfl)] at h
      exact h
  have hsome : front ++ rest.head?.toList ≠ [] := by
    cases rest with
    | nil => exact hne
    | cons stop rest => simp
  obtain ⟨token, htoken, hspan⟩ := exists_token_of_parse hsome hparse
  exact ⟨token, hreached token htoken, hspan⟩

/-- Whatever the tokens, as long as no value among them is a sign or none and more than 4300 digits:
they parse exactly if they are a program, and if not, the parser fails with a fault. It is blamed on
a token that no end of the input stands before, or on nothing at all if there are no tokens. What
follows an end of the input has no effect. -/
theorem parse_iff_isProgram (tokens : List Token)
    (hdigits : ∀ token ∈ tokens, token.kind = .value →
      ∀ count, ¬Integer.Overlong token.lexeme count) :
    ((∃ statements, Statement.parse tokens = .ok statements) ↔ IsProgram tokens) ∧
      (¬IsProgram tokens → ∃ fault, Statement.parse tokens = .error (.fault fault) ∧
        (tokens = [] → fault.span = .zero) ∧
        (tokens ≠ [] → ∃ token, Reached tokens token ∧ fault.span = token.span)) ∧
      ∀ (front rest : List Token) (stop : Token), stop.kind = .endOfInput →
        Statement.parse (front ++ stop :: rest) = Statement.parse (front ++ [stop]) := by
  refine ⟨exists_statements_iff, ?_, fun front rest stop => parse_append_end front rest⟩
  intro hnone
  cases hparse : Statement.parse tokens with
  | ok statements => exact absurd (exists_statements_iff.1 ⟨statements, hparse⟩) hnone
  | error failure =>
    cases failure with
    | fault fault =>
      refine ⟨fault, rfl, ?_, fun hne => exists_reached_of_parse hne hparse⟩
      rintro rfl
      cases hparse
      rfl
    | tooManyDigits count =>
      obtain ⟨token, htoken, hkind, hread⟩ := exists_overlong_of_parse hparse
      exact absurd (Integer.read_eq_tooManyDigits_iff.1 hread) (hdigits token htoken hkind count)

/-- Tokens built by hand: an output and what follows its end is a program, and without the end it is
blamed on the last token. -/
theorem parse_iff_isProgram_output :
    let front : List Token :=
      [⟨.keyword .output, "Output", ⟨1, 0, 6⟩⟩, ⟨.identifier, "x", ⟨1, 7, 8⟩⟩]
    let tokens := front ++ [⟨.endOfInput, "", ⟨1, 8, 8⟩⟩, ⟨.value, "12", ⟨7, 3, 5⟩⟩]
    (∀ token ∈ tokens, token.kind = .value → ∀ count, ¬Integer.Overlong token.lexeme count) ∧
      IsProgram tokens ∧ ¬IsProgram front ∧
      ∃ fault, Statement.parse front = .error (.fault fault) ∧
        ∃ token, Reached front token ∧ fault.span = token.span := by
  intro front tokens
  have hdigits : ∀ token ∈ tokens, token.kind = .value →
      ∀ count, ¬Integer.Overlong token.lexeme count := by
    intro token htoken hkind count hmany
    obtain rfl : token = ⟨.value, "12", ⟨7, 3, 5⟩⟩ := by
      simp only [tokens, front, List.cons_append, List.nil_append, List.mem_cons,
        List.not_mem_nil, or_false] at htoken
      rcases htoken with rfl | rfl | rfl | htoken
      · cases hkind
      · cases hkind
      · cases hkind
      · exact htoken
    have hread : Integer.read "12" = .integer 12 := by cbv
    rw [Integer.read_eq_tooManyDigits_iff.2 hmany] at hread
    cases hread
  have hfront : ¬∃ statements, Statement.parse front = .ok statements := by
    rintro ⟨statements, hparse⟩
    cases hparse
  have htheorem := parse_iff_isProgram front fun token htoken =>
    hdigits token (List.mem_append_left _ htoken)
  have hnone : ¬IsProgram front := fun hprogram => hfront (htheorem.1.2 hprogram)
  obtain ⟨fault, hparse, -, hreached⟩ := htheorem.2.1 hnone
  exact ⟨hdigits, (parse_iff_isProgram tokens hdigits).1.1 ⟨_, rfl⟩, hnone, fault, hparse,
    hreached (List.cons_ne_nil _ _)⟩

end LineScript.Parse
