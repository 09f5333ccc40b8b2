import LineScript.Proofs.Grammar
import LineScript.Proofs.Session.Outcome

/-!
# What is left for the parser to find

The scanner lets three things pass that are no program: a name that is missing, a text without
words, and an operand that is greater than any integer of 64 bits. `LineRejected` has a rule for
each way a line can be at fault, and names the token that is blamed. All else that the parser checks
holds of the tokens of every source. A line that was cut into pieces holds what it should, or has an
operand of too many digits, or is rejected by one of the rules (`Scan.LineCut.cases`), and the
parser does as that says. Main statement: `parse_eq_fault_iff`, the tokens of a source have a fault
exactly if their first line that holds no statement is rejected, and the fault is one of these three
kinds.
-/

set_option autoImplicit false

namespace LineScript

open Parse Scan Text

/-! ## Faults that tokens of a source can have -/

/-- Digits whose value is greater than any integer of 64 bits, though they are few enough to be
read. -/
structure Token.TooGreat (token : Token) : Prop where
  kind_eq : token.kind = .value
  ne_nil : token.lexeme.toList ≠ []
  digits : ∀ c ∈ token.lexeme.toList, c.isDigit = true
  length_le : token.lexeme.toList.length ≤ 4300
  lt_value : 2 ^ 63 - 1 < Nat.ofDigitChars 10 token.lexeme.toList 0

/-- A chain whose operands are all fine up to one that is too great. -/
inductive ChainTooGreat : List Token → Token → Prop
  | here {operand : Token} (rest : List Token) (hgreat : operand.TooGreat) :
      ChainTooGreat (operand :: rest) operand
  | later {operand sign great : Token} {leaf : NumberExpr} {op : Operator} {rest : List Token}
      (hleaf : NumberLeaf operand leaf) (hsign : sign.kind = .operator op)
      (hrest : ChainTooGreat rest great) : ChainTooGreat (operand :: sign :: rest) great

/-- What is at fault with the tokens of a line, given the token that ends it. The name is missing
after a keyword, at the end of the line or at an equals sign; a text ends at its equals sign; or an
operand is too great. -/
inductive LineRejected (stop : Token) : List Token → Located ParseFault → Prop
  | nameless {first : Token} {keyword : Keyword} (hfirst : first.kind = .keyword keyword) :
      LineRejected stop [first] ⟨.missingName keyword stop, stop.span⟩
  | unnamed {first equal : Token} {keyword : Keyword} (rest : List Token)
      (hfirst : first.kind = .keyword keyword) (hassigns : keyword.assigns = true)
      (hequal : equal.kind = .equal) :
      LineRejected stop (first :: equal :: rest) ⟨.missingName keyword equal, equal.span⟩
  | wordless {first name equal : Token} (hfirst : first.kind = .keyword .text)
      (hname : name.kind = .identifier) (hequal : equal.kind = .equal) :
      LineRejected stop [first, name, equal] ⟨.missingText stop, stop.span⟩
  | tooGreat {first name equal great : Token} {chain : List Token}
      (hfirst : first.kind = .keyword .number) (hname : name.kind = .identifier)
      (hequal : equal.kind = .equal) (hchain : ChainTooGreat chain great) :
      LineRejected stop (first :: name :: equal :: chain)
        ⟨.notAnInteger great.lexeme, great.span⟩

/-- Lines of tokens that hold what they should up to one that is rejected. -/
inductive TokensRejected : List Token → Located ParseFault → Prop
  | here {line : List Token} {stop : Token} {fault : Located ParseFault} (rest : List Token)
      (hinner : ∀ token ∈ line, token.kind.endsLine = false) (hstop : stop.kind.endsLine = true)
      (hline : LineRejected stop line fault) : TokensRejected (line ++ stop :: rest) fault
  | later {line rest : List Token} {stop : Token} {found : Option Statement}
      {fault : Located ParseFault} (hinner : ∀ token ∈ line, token.kind.endsLine = false)
      (hstop : stop.kind = .newline) (hline : LineHolds line found)
      (hrest : TokensRejected rest fault) : TokensRejected (line ++ stop :: rest) fault

/-- The faults that are left to the parser: a name that is missing where the line ends or, in an
assignment, at the equals sign; a text that is missing where the line ends; and digits that are
greater than any integer of 64 bits. -/
def ParseFault.LeftToParser : ParseFault → Prop
  | missingName keyword found =>
    found.kind = .newline ∨ found.kind = .endOfInput ∨
      (found.kind = .equal ∧ (keyword = .text ∨ keyword = .number))
  | missingText found => found.kind = .newline ∨ found.kind = .endOfInput
  | notAnInteger lexeme =>
    lexeme.toList ≠ [] ∧ (∀ c ∈ lexeme.toList, c.isDigit = true) ∧
      2 ^ 63 - 1 < Nat.ofDigitChars 10 lexeme.toList 0
  | _ => False

theorem endsLine_eq_true_iff {kind : Token.Kind} :
    kind.endsLine = true ↔ kind = .newline ∨ kind = .endOfInput := by
  cases kind <;> simp [Token.Kind.endsLine]

theorem tooGreat_of_chainTooGreat {tokens : List Token} {great : Token}
    (h : ChainTooGreat tokens great) : great.TooGreat := by
  induction h with
  | here rest hgreat => exact hgreat
  | later _ _ _ ih => exact ih

/-- A line is rejected with a fault that is left to the parser. -/
theorem LineRejected.leftToParser {stop : Token} (hstop : stop.kind.endsLine = true)
    {tokens : List Token} {fault : Located ParseFault} (h : LineRejected stop tokens fault) :
    fault.item.LeftToParser := by
  cases h with
  | nameless hfirst =>
    rcases endsLine_eq_true_iff.1 hstop with hnewline | hend
    · exact Or.inl hnewline
    · exact Or.inr (Or.inl hend)
  | @unnamed first equal keyword rest hfirst hassigns hequal =>
    refine Or.inr (Or.inr ⟨hequal, ?_⟩)
    cases keyword with
    | text => exact Or.inl rfl
    | number => exact Or.inr rfl
    | input => cases hassigns
    | output => cases hassigns
  | wordless hfirst hname hequal => exact endsLine_eq_true_iff.1 hstop
  | tooGreat hfirst hname hequal hchain =>
    have hgreat := tooGreat_of_chainTooGreat hchain
    exact ⟨hgreat.ne_nil, hgreat.digits, hgreat.lt_value⟩

theorem TokensRejected.leftToParser {tokens : List Token} {fault : Located ParseFault}
    (h : TokensRejected tokens fault) : fault.item.LeftToParser := by
  induction h with
  | here rest hinner hstop hline => exact hline.leftToParser hstop
  | later hinner hstop hline _ ih => exact ih

/-! ## The parser on tokens that are rejected -/

theorem numberLeaf_of_tooGreat {operand : Token} (h : operand.TooGreat) :
    numberLeaf operand = .error (.fault ⟨.notAnInteger operand.lexeme, operand.span⟩) := by
  have hread : Integer.read operand.lexeme = .notAnInteger := by
    cases hread : Integer.read operand.lexeme with
    | integer n =>
      rw [← String.ofList_toList (s := operand.lexeme), read_digits_iff h.ne_nil h.digits] at hread
      exact absurd hread.2.1 (Nat.not_le_of_lt h.lt_value)
    | notAnInteger => rfl
    | tooManyDigits count =>
      obtain ⟨negative, digits, hsplit, -, hmany, -⟩ :=
        Integer.read_eq_tooManyDigits_iff_splitSign.1 hread
      rw [splitSign_digits h.digits] at hsplit
      cases hsplit
      exact absurd h.length_le (Nat.not_le_of_lt hmany)
  simp only [numberLeaf, h.kind_eq, hread]

theorem foldChain_of_chainTooGreat {tokens : List Token} {great : Token}
    (h : ChainTooGreat tokens great) {sign : Token} {op : Operator}
    (hsign : sign.kind = .operator op) (stop : LineEnd) (left : NumberExpr) :
    foldChain stop left (sign :: tokens) =
      .error (.fault ⟨.notAnInteger great.lexeme, great.span⟩) := by
  -- As for too many digits, the operator and the part on its left change from link to link.
  induction h generalizing sign op left with
  | here rest hgreat =>
    rw [foldChain_link stop left hsign, numberLeaf_of_tooGreat hgreat]
    rfl
  | later hleaf hnext _ ih =>
    rw [foldChain_link stop left hsign, numberLeaf_eq_ok_iff.2 hleaf]
    exact ih hnext _

theorem numberValue_of_chainTooGreat {tokens : List Token} {great : Token}
    (h : ChainTooGreat tokens great) (stop : LineEnd) :
    Line.numberValue ⟨tokens, stop⟩ =
      .error (.fault ⟨.notAnInteger great.lexeme, great.span⟩) := by
  cases h with
  | here rest hgreat =>
    simp only [Line.numberValue, numberLeaf_of_tooGreat hgreat]
    rfl
  | later hleaf hsign hrest =>
    simp only [Line.numberValue, numberLeaf_eq_ok_iff.2 hleaf, bind, Except.bind,
      foldChain_of_chainTooGreat hrest hsign stop]

/-- A name is looked for right after the keyword, whatever the keyword is. -/
theorem statement_of_identifier {first : Token} {keyword : Keyword}
    (hfirst : first.kind = .keyword keyword) {line : Line} {failure : ParseFailure}
    (h : line.identifier keyword = .error failure) : statement first line = .error failure := by
  cases keyword <;>
    simp only [statement, hfirst, Line.assignment, h, bind, Except.bind]

/-- A line that is rejected fails with its fault. -/
theorem parse_of_lineRejected {stop : Token} {tokens : List Token} {fault : Located ParseFault}
    (h : LineRejected stop tokens fault) :
    Line.parse ⟨tokens, .found stop⟩ = .error (.fault fault) := by
  cases h with
  | @nameless first keyword hfirst =>
    have hname : Line.identifier ⟨[], .found stop⟩ keyword =
        .error (.fault ⟨.missingName keyword stop, stop.span⟩) := rfl
    simp only [Line.parse, statement_of_identifier hfirst hname]
    rfl
  | @unnamed first equal keyword rest hfirst hassigns hequal =>
    obtain ⟨kind, lexeme, span⟩ := equal
    obtain rfl : kind = .equal := hequal
    have hname : Line.identifier ⟨⟨.equal, lexeme, span⟩ :: rest, .found stop⟩ keyword =
        .error (.fault ⟨.missingName keyword ⟨.equal, lexeme, span⟩, span⟩) := rfl
    simp only [Line.parse, statement_of_identifier hfirst hname]
    rfl
  | @wordless first name equal hfirst hname hequal =>
    obtain ⟨kind, lexeme, span⟩ := name
    obtain ⟨sign, text, place⟩ := equal
    obtain rfl : kind = .identifier := hname
    obtain rfl : sign = .equal := hequal
    simp only [Line.parse, statement, hfirst, Line.assignment, Line.identifier, bind, Except.bind,
      Line.textValue, takeLeaves, Line.reject]
  | @tooGreat first name equal great chain hfirst hname hequal hchain =>
    obtain ⟨kind, lexeme, span⟩ := name
    obtain ⟨sign, text, place⟩ := equal
    obtain rfl : kind = .identifier := hname
    obtain rfl : sign = .equal := hequal
    simp only [Line.parse, statement, hfirst, Line.assignment, Line.identifier, bind, Except.bind,
      numberValue_of_chainTooGreat hchain]

/-- Tokens that are rejected fail with their fault. -/
theorem parseLines_of_tokensRejected {tokens : List Token} {fault : Located ParseFault}
    (h : TokensRejected tokens fault) (span : Span) :
    parseLines (cutLines span tokens) = .error (.fault fault) := by
  induction h with
  | here rest hinner hstop hline =>
    rw [cutLines_append span hinner hstop, parseLines, parse_of_lineRejected hline]
    rfl
  | @later line rest stop found fault hinner hstop hline _ ih =>
    have hends : stop.kind.endsLine = true := by
      rw [hstop]
      rfl
    rw [cutLines_append span hinner hends, if_pos hstop, parseLines, parse_eq_ok_iff.2 hline, ih]
    rfl

/-! ## Tokens of a source -/

namespace Scan

/-- An operand is the leaf of a number, or its digits are too many or too great. -/
theorem OperandCut.cases {column : Nat} {text : List Char} {piece : Piece}
    (h : OperandCut column text piece) (line offset : Nat) :
    (∃ leaf, NumberLeaf (piece.place line offset) leaf) ∨
      (∃ count, ∀ rest, ChainOverlong (piece.place line offset :: rest) count) ∨
      (piece.place line offset).TooGreat := by
  cases h with
  | digits hne hdigits =>
    have hlist : (String.ofList text).toList = text := String.toList_ofList
    by_cases hmany : 4300 < text.length
    · refine Or.inr (Or.inl ⟨(String.ofList text).toList.length, fun rest => ?_⟩)
      exact .here rest rfl (hlist.symm ▸ hdigits) (hlist.symm ▸ hmany)
    · by_cases hgreat : 2 ^ 63 - 1 < Nat.ofDigitChars 10 text 0
      · refine Or.inr (Or.inr ⟨rfl, ?_, ?_, ?_, ?_⟩)
        · exact hlist.symm ▸ hne
        · exact hlist.symm ▸ hdigits
        · exact hlist.symm ▸ Nat.le_of_not_lt hmany
        · exact hlist.symm ▸ hgreat
      · refine Or.inl ⟨_, .literal rfl ((read_digits_iff hne hdigits).2 ⟨?_, ?_, rfl⟩)⟩
        · exact Nat.le_of_not_lt hmany
        · exact Nat.le_of_not_lt hgreat
  | reference hname => exact Or.inl ⟨_, .reference rfl⟩

/-- The tokens of a chain make up a number, or one of its operands has too many digits or is too
great. -/
theorem NumberCut.cases {column : Nat} {cs : List Char} {pieces : List Piece}
    (h : NumberCut column cs pieces) (line offset : Nat) :
    (∃ operand rest leaf value, pieces.map (Piece.place line offset) = operand :: rest ∧
        NumberLeaf operand leaf ∧ ChainTree leaf rest value) ∨
      (∃ count, ChainOverlong (pieces.map (Piece.place line offset)) count) ∨
      ∃ great, ChainTooGreat (pieces.map (Piece.place line offset)) great := by
  induction h with
  | last hlead hpiece htrail =>
    rcases hpiece.cases line offset with ⟨leaf, hleaf⟩ | ⟨count, hmany⟩ | hgreat
    · exact Or.inl ⟨_, [], leaf, leaf, rfl, hleaf, .done leaf⟩
    · exact Or.inr (Or.inl ⟨count, hmany []⟩)
    · exact Or.inr (Or.inr ⟨_, .here [] hgreat⟩)
  | link op hlead hpiece hgap _ ih =>
    rcases hpiece.cases line offset with ⟨leaf, hleaf⟩ | ⟨count, hmany⟩ | hgreat
    · rcases ih with ⟨operand, rest, next, value, hrest, hnext, hchain⟩ | ⟨count, hmany⟩ |
        ⟨great, hgreat⟩
      · obtain ⟨result, hresult⟩ := exists_chainTree hchain
          (.binary (leaf.span.upTo next.span) op.symbol leaf next)
        refine Or.inl ⟨_, _, leaf, result, rfl, hleaf, ?_⟩
        rw [List.map_cons, hrest]
        exact .link rfl hnext hresult
      · exact Or.inr (Or.inl ⟨count, .later hleaf rfl hmany⟩)
      · exact Or.inr (Or.inr ⟨great, .later hleaf rfl hgreat⟩)
    · exact Or.inr (Or.inl ⟨count, hmany _⟩)
    · exact Or.inr (Or.inr ⟨_, .here _ hgreat⟩)

/-- A line that is cut into pieces holds what it should, or has an operand of too many digits, or is
rejected, whatever token ends it. -/
theorem LineCut.cases {line : PlacedLine} {pieces : List Piece} (h : LineCut line.text pieces)
    (stop : Token) :
    (∃ found, LineHolds (line.tokens pieces) found) ∨
      (∃ count, LineOverlong (line.tokens pieces) count) ∨
      ∃ fault, LineRejected stop (line.tokens pieces) fault := by
  obtain ⟨number, offset, text⟩ := line
  simp only [PlacedLine.tokens] at h ⊢
  cases h with
  | empty hcs => exact Or.inl ⟨none, rfl⟩
  | @statement keyword lead gap name space tail more hlead hgap hname hspace hword hbare htail =>
    by_cases hne : name = []
    · subst hne
      refine Or.inr (Or.inr ?_)
      cases htail with
      | nothing keyword => exact ⟨_, .nameless rfl⟩
      | text hvalue => exact ⟨_, .unnamed _ rfl rfl rfl⟩
      | number hvalue => exact ⟨_, .unnamed _ rfl rfl rfl⟩
    · rw [Grammar.namePiece_of_ne_nil _ hne]
      cases htail with
      | nothing keyword =>
        refine Or.inl ?_
        cases keyword with
        | text => exact ⟨some _, .emptyText rfl rfl⟩
        | number => exact ⟨some _, .zeroNumber rfl rfl⟩
        | input => exact ⟨some _, .input rfl rfl⟩
        | output => exact ⟨some _, .output rfl rfl⟩
      | @text value pieces hvalue =>
        by_cases hpieces : pieces = []
        · subst hpieces
          exact Or.inr (Or.inr ⟨_, .wordless rfl rfl rfl⟩)
        · have hkinds : ∀ token ∈ pieces.map (Piece.place number offset),
              token.kind = .value ∨ token.kind = .identifier := by
            intro token htoken
            obtain ⟨piece, hpiece, rfl⟩ := List.mem_map.1 htoken
            exact Grammar.kind_of_textCut hvalue piece hpiece
          obtain ⟨tree, htree⟩ := exists_textTree (by simpa using hpieces) hkinds
          exact Or.inl ⟨some _, .text rfl rfl rfl htree⟩
      | number hvalue =>
        rcases hvalue.cases number offset with ⟨operand, rest, leaf, value, hrest, hleaf, hchain⟩ |
          ⟨count, hmany⟩ | ⟨great, hgreat⟩
        · simp only [List.cons_append, List.nil_append, List.map_cons, hrest]
          exact Or.inl ⟨some _, .number rfl rfl rfl hleaf hchain⟩
        · exact Or.inr (Or.inl ⟨count, .number rfl rfl rfl hmany⟩)
        · exact Or.inr (Or.inr ⟨_, .tooGreat rfl rfl rfl hgreat⟩)

end Scan

/-- The tokens of a source are those of a program, or an operand of too many digits is the first
thing wrong with them, or they are rejected. -/
theorem SourceCut.cases {lines : List PlacedLine} {tokens : List Token}
    (h : SourceCut lines tokens) :
    (∃ statements, SourceTree lines tokens statements) ∨
      (∃ count, TokensOverlong tokens count) ∨ ∃ fault, TokensRejected tokens fault := by
  induction h with
  | @last line pieces hcut =>
    have hinner : ∀ token ∈ line.tokens pieces, token.kind.endsLine = false :=
      fun _ htoken => PlacedLine.endsLine_of_mem_tokens hcut htoken
    rcases hcut.cases (line.stop true) with ⟨found, hfound⟩ | ⟨count, hmany⟩ | ⟨fault, hfault⟩
    · exact Or.inl ⟨_, .last hcut hfound⟩
    · exact Or.inr (Or.inl ⟨count, .here hinner (line.endsLine_stop true) hmany⟩)
    · exact Or.inr (Or.inr ⟨fault, .here [] hinner (line.endsLine_stop true) hfault⟩)
  | @more line lines pieces tokens hcut _ ih =>
    have hinner : ∀ token ∈ line.tokens pieces, token.kind.endsLine = false :=
      fun _ htoken => PlacedLine.endsLine_of_mem_tokens hcut htoken
    rcases hcut.cases (line.stop false) with ⟨found, hfound⟩ | ⟨count, hmany⟩ | ⟨fault, hfault⟩
    · rcases ih with ⟨statements, hmore⟩ | ⟨count, hmany⟩ | ⟨fault, hfault⟩
      · exact Or.inl ⟨_, .more hcut hfound hmore⟩
      · exact Or.inr (Or.inl ⟨count, .later hinner rfl hfound hmany⟩)
      · exact Or.inr (Or.inr ⟨fault, .later hinner rfl hfound hfault⟩)
    · exact Or.inr (Or.inl ⟨count, .here hinner (line.endsLine_stop false) hmany⟩)
    · exact Or.inr (Or.inr ⟨fault, .here tokens hinner (line.endsLine_stop false) hfault⟩)

/-- The tokens of a source have a fault exactly if they are rejected. The fault is a missing name,
at the end of the line or at the equals sign of an assignment; a missing text, at the end of the
line; or digits that are greater than any integer of 64 bits. The parser finds nothing else. -/
theorem parse_eq_fault_iff {source : String} {tokens : List Token}
    (hscan : Token.scan source = .ok tokens) (fault : Located ParseFault) :
    (Statement.parse tokens = .error (.fault fault) ↔ TokensRejected tokens fault) ∧
      (Statement.parse tokens = .error (.fault fault) → fault.item.LeftToParser) := by
  have hiff : Statement.parse tokens = .error (.fault fault) ↔ TokensRejected tokens fault := by
    constructor
    · intro h
      rcases (scan_eq_ok_iff.1 hscan).cases with ⟨statements, htree⟩ | ⟨count, hmany⟩ |
        ⟨other, hrejected⟩
      · rw [Statement.parse, htree.parseLines_eq] at h
        cases h
      · rw [Statement.parse, parseLines_of_tokensOverlong hmany] at h
        cases h
      · rw [Statement.parse, parseLines_of_tokensRejected hrejected] at h
        cases h
        exact hrejected
    · intro h
      exact parseLines_of_tokensRejected h _
  exact ⟨hiff, fun h => (hiff.1 h).leftToParser⟩

/-- The three kinds of faults: a name is missing at an equals sign, a text at the end of a line, and
a number is one too great. -/
theorem parse_eq_fault_iff_kinds :
    (∃ tokens fault, Token.scan "Text = a" = .ok tokens ∧
      Statement.parse tokens = .error (.fault fault) ∧ TokensRejected tokens fault ∧
      fault.item = .missingName .text ⟨.equal, "=", ⟨1, 5, 6⟩⟩) ∧
    (∃ tokens fault, Token.scan "Text x =\n" = .ok tokens ∧
      Statement.parse tokens = .error (.fault fault) ∧ TokensRejected tokens fault ∧
      fault.item = .missingText ⟨.newline, "\n", ⟨1, 8, 9⟩⟩) ∧
    ∃ tokens fault, Token.scan "Zahl x = 1 + 9223372036854775808" = .ok tokens ∧
      Statement.parse tokens = .error (.fault fault) ∧ TokensRejected tokens fault ∧
      fault.item = .notAnInteger "9223372036854775808" := by
  have hrejected : ∀ {source : String} {tokens : List Token} {fault : Located ParseFault},
      Token.scan source = .ok tokens → Statement.parse tokens = .error (.fault fault) →
        TokensRejected tokens fault :=
    fun hscan hparse => (parse_eq_fault_iff hscan _).1.1 hparse
  have hname : Token.scan "Text = a" = .ok
      [⟨.keyword .text, "Text", ⟨1, 0, 4⟩⟩, ⟨.equal, "=", ⟨1, 5, 6⟩⟩,
       ⟨.value, "a", ⟨1, 7, 8⟩⟩, ⟨.endOfInput, "", ⟨1, 8, 8⟩⟩] := by cbv
  have htext : Token.scan "Text x =\n" = .ok
      [⟨.keyword .text, "Text", ⟨1, 0, 4⟩⟩, ⟨.identifier, "x", ⟨1, 5, 6⟩⟩,
       ⟨.equal, "=", ⟨1, 7, 8⟩⟩, ⟨.newline, "\n", ⟨1, 8, 9⟩⟩,
       ⟨.endOfInput, "", ⟨2, 9, 9⟩⟩] := by cbv
  have hnumber : Token.scan "Zahl x = 1 + 9223372036854775808" = .ok
      [⟨.keyword .number, "Zahl", ⟨1, 0, 4⟩⟩, ⟨.identifier, "x", ⟨1, 5, 6⟩⟩,
       ⟨.equal, "=", ⟨1, 7, 8⟩⟩, ⟨.value, "1", ⟨1, 9, 10⟩⟩, ⟨.operator .add, "+", ⟨1, 11, 12⟩⟩,
       ⟨.value, "9223372036854775808", ⟨1, 13, 32⟩⟩, ⟨.endOfInput, "", ⟨1, 32, 32⟩⟩] := by cbv
  refine ⟨⟨_, ⟨_, ⟨1, 5, 6⟩⟩, hname, ?_, hrejected hname ?_, rfl⟩,
    ⟨_, ⟨_, ⟨1, 8, 9⟩⟩, htext, ?_, hrejected htext ?_, rfl⟩,
    ⟨_, ⟨_, ⟨1, 13, 32⟩⟩, hnumber, ?_, hrejected hnumber ?_, rfl⟩⟩ <;> cbv

end LineScript
