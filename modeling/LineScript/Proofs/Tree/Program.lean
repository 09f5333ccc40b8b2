import LineScript.Failure
import LineScript.Proofs.Text.Lines
import LineScript.Proofs.Token.Places
import LineScript.Proofs.Tree.Parsing

/-!
# Programs line by line

A source is scanned and parsed as a whole, but what stands on a line decides alone what the line
gives. `SourceTree` puts a source together from its lines: the pieces that each line is cut into,
the token that ends it, and the statement that it holds, if it holds one. Main statements:
`sourceTree_iff`, a source has tokens and statements exactly as the rules say, and
`SourceTree.onLine`, the statement with a given line number comes from the tokens with that line
number.
-/

set_option autoImplicit false

namespace LineScript

open Scan Parse

namespace Text.PlacedLine

/-- The tokens that the pieces of a line are. -/
def tokens (line : PlacedLine) (pieces : List Piece) : List Token :=
  pieces.map (Piece.place line.number line.offset)

/-- The token that ends a line: the end of the source after the last one, and else a line feed. -/
def stop (line : PlacedLine) (last : Bool) : Token :=
  if last then ⟨.endOfInput, "", place line.number line.offset line.text.length 0⟩
  else ⟨.newline, "\n", place line.number line.offset line.text.length 1⟩

theorem endsLine_stop (line : PlacedLine) (last : Bool) :
    (line.stop last).kind.endsLine = true := by
  cases last <;> rfl

theorem line_stop (line : PlacedLine) (last : Bool) :
    (line.stop last).span.line = line.number := by
  cases last <;> rfl

theorem line_of_mem_tokens {line : PlacedLine} {pieces : List Piece} {token : Token}
    (h : token ∈ line.tokens pieces) : token.span.line = line.number := by
  obtain ⟨piece, -, rfl⟩ := List.mem_map.1 h
  rfl

theorem endsLine_of_mem_tokens {line : PlacedLine} {pieces : List Piece}
    (hcut : LineCut line.text pieces) {token : Token} (h : token ∈ line.tokens pieces) :
    token.kind.endsLine = false := by
  obtain ⟨piece, hpiece, rfl⟩ := List.mem_map.1 h
  exact (hcut.on piece hpiece).inner

end Text.PlacedLine

open Text

/-! ## Tokens of a source -/

/-- The tokens of consecutive lines: those of each line and the token that ends it. -/
inductive SourceCut : List PlacedLine → List Token → Prop
  | last {line : PlacedLine} {pieces : List Piece} (hcut : LineCut line.text pieces) :
      SourceCut [line] (line.tokens pieces ++ [line.stop true])
  | more {line : PlacedLine} {lines : List PlacedLine} {pieces : List Piece} {tokens : List Token}
      (hcut : LineCut line.text pieces) (hmore : SourceCut lines tokens) :
      SourceCut (line :: lines) (line.tokens pieces ++ line.stop false :: tokens)

theorem SourceCut.ne_nil {lines : List PlacedLine} {tokens : List Token}
    (h : SourceCut lines tokens) : lines ≠ [] := by
  cases h <;> exact List.cons_ne_nil _ _

theorem lineTokens_eq_ok_iff {last : Bool} {number offset : Nat} {cs : List Char}
    {tokens : List Token} (hfree : '\n' ∉ cs) :
    lineTokens last number offset cs = .ok tokens ↔
      ∃ pieces, LineCut cs pieces ∧ tokens = PlacedLine.tokens ⟨number, offset, cs⟩ pieces := by
  simp only [lineTokens]
  constructor
  · intro h
    split at h
    · cases h
    · next pieces hpieces =>
      cases h
      exact ⟨pieces, (linePieces_eq_ok_iff hfree).1 hpieces, rfl⟩
  · rintro ⟨pieces, hcut, rfl⟩
    rw [(linePieces_eq_ok_iff hfree).2 hcut]
    rfl

theorem linesTokens_eq_ok_iff {number offset : Nat} {ls : List (List Char)} {tokens : List Token}
    (hne : ls ≠ []) (hfree : ∀ l ∈ ls, '\n' ∉ l) :
    linesTokens number offset ls = .ok tokens ↔
      SourceCut (placeLines number offset ls) tokens := by
  induction ls generalizing number offset tokens with
  | nil => exact absurd rfl hne
  | cons l ls ih =>
    have hl : '\n' ∉ l := hfree l List.mem_cons_self
    have hls : ∀ l ∈ ls, '\n' ∉ l := fun l hl => hfree l (List.mem_cons_of_mem _ hl)
    cases ls with
    | nil =>
      simp only [linesTokens, bind_eq_ok_iff, lineTokens_eq_ok_iff hl, placeLines]
      constructor
      · rintro ⟨_, ⟨pieces, hcut, rfl⟩, h⟩
        cases h
        exact .last hcut
      · intro h
        cases h with
        | last hcut => exact ⟨_, ⟨_, hcut, rfl⟩, rfl⟩
        | more hcut hmore => exact absurd rfl hmore.ne_nil
    | cons l' ls =>
      rw [linesTokens, placeLines]
      · simp only [bind_eq_ok_iff, lineTokens_eq_ok_iff hl,
          ih (List.cons_ne_nil l' ls) hls]
        constructor
        · rintro ⟨_, ⟨pieces, hcut, rfl⟩, others, hmore, h⟩
          cases h
          exact .more hcut hmore
        · intro h
          cases h with
          | more hcut hmore => exact ⟨_, ⟨_, hcut, rfl⟩, _, hmore, rfl⟩
      · simp

/-- A source is scanned into the tokens of its lines. -/
theorem scan_eq_ok_iff {source : String} {tokens : List Token} :
    Token.scan source = .ok tokens ↔
      SourceCut (placeLines 1 0 (lines source.toList)) tokens :=
  linesTokens_eq_ok_iff (lines_ne_nil _) fun _ h => newline_not_mem_of_mem_lines h

/-! ## Statements of a source -/

/-- The tokens and the statements of consecutive lines. -/
inductive SourceTree : List PlacedLine → List Token → List Statement → Prop
  | last {line : PlacedLine} {pieces : List Piece} {found : Option Statement}
      (hcut : LineCut line.text pieces) (hfound : LineHolds (line.tokens pieces) found) :
      SourceTree [line] (line.tokens pieces ++ [line.stop true]) found.toList
  | more {line : PlacedLine} {lines : List PlacedLine} {pieces : List Piece}
      {found : Option Statement} {tokens : List Token} {statements : List Statement}
      (hcut : LineCut line.text pieces) (hfound : LineHolds (line.tokens pieces) found)
      (hmore : SourceTree lines tokens statements) :
      SourceTree (line :: lines) (line.tokens pieces ++ line.stop false :: tokens)
        (found.toList ++ statements)

/-- A line of tokens is cut off at the first token that ends a line. -/
theorem cutLines_append (span : Span) {front : List Token}
    (hfront : ∀ token ∈ front, token.kind.endsLine = false) {stop : Token}
    (hstop : stop.kind.endsLine = true) (rest : List Token) :
    cutLines span (front ++ stop :: rest) =
      ⟨front, .found stop⟩ ::
        (if stop.kind = .newline then cutLines span rest else []) := by
  induction front with
  | nil =>
    rw [List.nil_append, cutLines]
    cases hkind : stop.kind <;> simp [hkind, Token.Kind.endsLine] at hstop ⊢
  | cons token front ih =>
    have htoken := hfront token List.mem_cons_self
    have hrest := ih fun other h => hfront other (List.mem_cons_of_mem _ h)
    rw [List.cons_append, cutLines, hrest]
    cases hkind : token.kind <;> simp [hkind, Token.Kind.endsLine] at htoken ⊢

theorem cutLines_last (span : Span) {line : PlacedLine} {pieces : List Piece}
    (hcut : LineCut line.text pieces) :
    cutLines span (line.tokens pieces ++ [line.stop true]) =
      [⟨line.tokens pieces, .found (line.stop true)⟩] := by
  rw [cutLines_append span (fun _ h => PlacedLine.endsLine_of_mem_tokens hcut h)
    (line.endsLine_stop true)]
  rfl

theorem cutLines_more (span : Span) {line : PlacedLine} {pieces : List Piece}
    (hcut : LineCut line.text pieces) (tokens : List Token) :
    cutLines span (line.tokens pieces ++ line.stop false :: tokens) =
      ⟨line.tokens pieces, .found (line.stop false)⟩ :: cutLines span tokens := by
  rw [cutLines_append span (fun _ h => PlacedLine.endsLine_of_mem_tokens hcut h)
    (line.endsLine_stop false)]
  rfl

theorem sourceTree_of_parseLines {lines : List PlacedLine} {tokens : List Token}
    {statements : List Statement} {span : Span} (hcut : SourceCut lines tokens)
    (h : parseLines (cutLines span tokens) = .ok statements) :
    SourceTree lines tokens statements := by
  induction hcut generalizing statements with
  | last hcut =>
    rw [cutLines_last span hcut] at h
    simp only [parseLines, bind_eq_ok_iff] at h
    obtain ⟨found, hfound, more, hmore, h⟩ := h
    cases hmore
    cases h
    rw [List.append_nil]
    exact .last hcut (parse_eq_ok_iff.1 hfound)
  | more hcut _ ih =>
    rw [cutLines_more span hcut] at h
    simp only [parseLines, bind_eq_ok_iff] at h
    obtain ⟨found, hfound, more, hmore, h⟩ := h
    cases h
    exact .more hcut (parse_eq_ok_iff.1 hfound) (ih hmore)

theorem SourceTree.sourceCut {lines : List PlacedLine} {tokens : List Token}
    {statements : List Statement} (h : SourceTree lines tokens statements) :
    SourceCut lines tokens := by
  induction h with
  | last hcut hfound => exact .last hcut
  | more hcut hfound _ ih => exact .more hcut ih

theorem SourceTree.parseLines_eq {lines : List PlacedLine} {tokens : List Token}
    {statements : List Statement} (h : SourceTree lines tokens statements) (span : Span) :
    parseLines (cutLines span tokens) = .ok statements := by
  induction h with
  | last hcut hfound =>
    rw [cutLines_last span hcut]
    simp only [parseLines, bind_eq_ok_iff]
    exact ⟨_, parse_eq_ok_iff.2 hfound, [], rfl, by rw [List.append_nil]⟩
  | more hcut hfound _ ih =>
    rw [cutLines_more span hcut]
    simp only [parseLines, bind_eq_ok_iff]
    exact ⟨_, parse_eq_ok_iff.2 hfound, _, ih, rfl⟩

/-- A source is scanned and parsed into the tokens and the statements of its lines. -/
theorem sourceTree_iff {source : String} {tokens : List Token} {statements : List Statement} :
    (Token.scan source = .ok tokens ∧ Statement.parse tokens = .ok statements) ↔
      SourceTree (placeLines 1 0 (lines source.toList)) tokens statements := by
  constructor
  · rintro ⟨hscan, hparse⟩
    exact sourceTree_of_parseLines (scan_eq_ok_iff.1 hscan) hparse
  · intro h
    exact ⟨scan_eq_ok_iff.2 h.sourceCut, h.parseLines_eq _⟩

theorem ofSource_eq_ok_iff {source : String} {statements : List Statement} :
    Statement.ofSource source = .ok statements ↔
      ∃ tokens, SourceTree (placeLines 1 0 (lines source.toList)) tokens statements := by
  simp only [← sourceTree_iff, Statement.ofSource]
  constructor
  · intro h
    split at h
    · cases h
    · next tokens hscan =>
      split at h
      · cases h
      · next hparse =>
        cases h
        exact ⟨tokens, hscan, hparse⟩
  · rintro ⟨tokens, hscan, hparse⟩
    simp only [hscan, hparse]

/-- A source of one line whose tokens make up a statement is the program of that statement. -/
theorem ofSource_of_lineTree {source : String} (hfree : '\n' ∉ source.toList)
    {pieces : List Piece} (hcut : LineCut source.toList pieces) {parsed : Statement}
    (htree : LineTree (pieces.map (Piece.place 1 0)) parsed) :
    Statement.ofSource source = .ok [parsed] := by
  have hsource := @SourceTree.last ⟨1, 0, source.toList⟩ pieces (some parsed) hcut htree
  rw [ofSource_eq_ok_iff, lines_of_not_mem hfree]
  exact ⟨_, hsource⟩

/-- Each line of a program is cut into pieces and holds what they make up. -/
theorem SourceTree.exists_pieces {lines : List PlacedLine} {tokens : List Token}
    {statements : List Statement} (h : SourceTree lines tokens statements) {line : PlacedLine}
    (hmem : line ∈ lines) :
    ∃ pieces found, LineCut line.text pieces ∧ LineHolds (line.tokens pieces) found := by
  induction h with
  | last hcut hfound =>
    rw [List.mem_singleton.1 hmem]
    exact ⟨_, _, hcut, hfound⟩
  | more hcut hfound _ ih =>
    rcases List.mem_cons.1 hmem with rfl | hmem
    · exact ⟨_, _, hcut, hfound⟩
    · exact ih hmem

/-- Each statement of a program is made up by the tokens of a line. -/
theorem SourceTree.exists_lineTree {lines : List PlacedLine} {tokens : List Token}
    {statements : List Statement} (h : SourceTree lines tokens statements)
    {statement : Statement} (hmem : statement ∈ statements) :
    ∃ line ∈ lines, ∃ pieces, LineCut line.text pieces ∧
      LineTree (line.tokens pieces) statement ∧ line.tokens pieces ⊆ tokens := by
  induction h with
  | @last line pieces found hcut hfound =>
    obtain rfl := Option.mem_toList.1 hmem
    exact ⟨line, List.mem_cons_self, pieces, hcut, hfound, List.subset_append_left _ _⟩
  | @more line lines pieces found tokens statements hcut hfound _ ih =>
    rcases List.mem_append.1 hmem with hmem | hmem
    · obtain rfl := Option.mem_toList.1 hmem
      exact ⟨line, List.mem_cons_self, pieces, hcut, hfound, List.subset_append_left _ _⟩
    · obtain ⟨other, hother, pieces, hcut, htree, hsubset⟩ := ih hmem
      exact ⟨other, List.mem_cons_of_mem _ hother, pieces, hcut, htree, fun token htoken =>
        List.mem_append_right _ (List.mem_cons_of_mem _ (hsubset htoken))⟩

/-! ## Tokens and statements of one line -/

/-- The tokens with the given line number, without the one that ends the line. -/
def onLine (tokens : List Token) (number : Int) : List Token :=
  tokens.filter fun token => token.span.line = number && !token.kind.endsLine

/-- The statements with the given line number. -/
def statementsOn (statements : List Statement) (number : Int) : List Statement :=
  statements.filter fun statement => statement.span.line = number

/-- A statement stands on the line of its first token. -/
theorem Parse.LineTree.line_eq {first : Token} {rest : List Token} {parsed : Statement}
    (h : LineTree (first :: rest) parsed) : parsed.span.line = first.span.line := by
  cases h <;> rfl

theorem line_of_lineHolds {line : PlacedLine} {pieces : List Piece} {found : Option Statement}
    (h : LineHolds (line.tokens pieces) found) {statement : Statement}
    (hmem : statement ∈ found.toList) : statement.span.line = line.number := by
  rw [Option.mem_toList] at hmem
  subst hmem
  cases htokens : line.tokens pieces with
  | nil =>
    rw [LineHolds, htokens] at h
    exact absurd rfl h.ne_nil
  | cons first rest =>
    rw [LineHolds, htokens] at h
    have hfirst : first ∈ line.tokens pieces := by
      rw [htokens]
      exact List.mem_cons_self
    rw [h.line_eq, PlacedLine.line_of_mem_tokens hfirst]

theorem SourceTree.line_of_mem_tokens {lines : List PlacedLine} {tokens : List Token}
    {statements : List Statement} (h : SourceTree lines tokens statements) {token : Token}
    (hmem : token ∈ tokens) : ∃ line ∈ lines, token.span.line = line.number := by
  induction h with
  | @last line pieces found hcut hfound =>
    refine ⟨line, List.mem_cons_self, ?_⟩
    rcases List.mem_append.1 hmem with hmem | hmem
    · exact PlacedLine.line_of_mem_tokens hmem
    · rw [List.mem_singleton.1 hmem, PlacedLine.line_stop]
  | @more line lines pieces found tokens statements hcut hfound _ ih =>
    rcases List.mem_append.1 hmem with hmem | hmem
    · exact ⟨line, List.mem_cons_self, PlacedLine.line_of_mem_tokens hmem⟩
    · rcases List.mem_cons.1 hmem with rfl | hmem
      · exact ⟨line, List.mem_cons_self, line.line_stop false⟩
      · obtain ⟨other, hother, hline⟩ := ih hmem
        exact ⟨other, List.mem_cons_of_mem _ hother, hline⟩

theorem SourceTree.line_of_mem_statements {lines : List PlacedLine} {tokens : List Token}
    {statements : List Statement} (h : SourceTree lines tokens statements)
    {statement : Statement} (hmem : statement ∈ statements) :
    ∃ line ∈ lines, statement.span.line = line.number := by
  induction h with
  | @last line pieces found hcut hfound =>
    exact ⟨line, List.mem_cons_self, line_of_lineHolds hfound hmem⟩
  | @more line lines pieces found tokens statements hcut hfound _ ih =>
    rcases List.mem_append.1 hmem with hmem | hmem
    · exact ⟨line, List.mem_cons_self, line_of_lineHolds hfound hmem⟩
    · obtain ⟨other, hother, hline⟩ := ih hmem
      exact ⟨other, List.mem_cons_of_mem _ hother, hline⟩

theorem onLine_append (front back : List Token) (number : Int) :
    onLine (front ++ back) number = onLine front number ++ onLine back number :=
  List.filter_append front back

theorem statementsOn_append (front back : List Statement) (number : Int) :
    statementsOn (front ++ back) number = statementsOn front number ++ statementsOn back number :=
  List.filter_append front back

theorem onLine_eq_nil {tokens : List Token} {number : Int}
    (h : ∀ token ∈ tokens, token.span.line ≠ number) : onLine tokens number = [] := by
  apply List.filter_eq_nil_iff.2
  intro token htoken
  simp [h token htoken]

theorem statementsOn_eq_nil {statements : List Statement} {number : Int}
    (h : ∀ statement ∈ statements, statement.span.line ≠ number) :
    statementsOn statements number = [] := by
  apply List.filter_eq_nil_iff.2
  intro statement hstatement
  simp [h statement hstatement]

theorem onLine_stop (line : PlacedLine) (last : Bool) (number : Int) :
    onLine [line.stop last] number = [] := by
  simp [onLine, line.endsLine_stop last]

/-- On the number of a line, the line gives all of its own tokens. -/
theorem onLine_tokens {line : PlacedLine} {pieces : List Piece}
    (hcut : LineCut line.text pieces) :
    onLine (line.tokens pieces) line.number = line.tokens pieces := by
  apply List.filter_eq_self.2
  intro token htoken
  simp [PlacedLine.line_of_mem_tokens htoken, PlacedLine.endsLine_of_mem_tokens hcut htoken]

theorem statementsOn_found {line : PlacedLine} {pieces : List Piece} {found : Option Statement}
    (hfound : LineHolds (line.tokens pieces) found) :
    statementsOn found.toList line.number = found.toList := by
  apply List.filter_eq_self.2
  intro statement hstatement
  simp [line_of_lineHolds hfound hstatement]

/-- One line number picks out what one line gives, or nothing at all. -/
theorem onLine_of_lineHolds {line : PlacedLine} {pieces : List Piece} {found : Option Statement}
    (hcut : LineCut line.text pieces) (hfound : LineHolds (line.tokens pieces) found)
    (last : Bool) (number : Int) :
    (number = line.number ∧
      onLine (line.tokens pieces ++ [line.stop last]) number = line.tokens pieces ∧
      statementsOn found.toList number = found.toList) ∨
    (number ≠ line.number ∧ onLine (line.tokens pieces ++ [line.stop last]) number = [] ∧
      statementsOn found.toList number = []) := by
  rw [onLine_append, onLine_stop, List.append_nil]
  by_cases hnumber : number = line.number
  · subst hnumber
    exact Or.inl ⟨rfl, onLine_tokens hcut, statementsOn_found hfound⟩
  · refine Or.inr ⟨hnumber, ?_, ?_⟩
    · apply onLine_eq_nil
      intro token htoken
      rw [PlacedLine.line_of_mem_tokens htoken]
      exact Ne.symm hnumber
    · apply statementsOn_eq_nil
      intro statement hstatement
      rw [line_of_lineHolds hfound hstatement]
      exact Ne.symm hnumber

/-- Tokens make up the one statement that a line holds if there are any. -/
theorem Parse.LineHolds.exists_lineTree {tokens : List Token} {found : Option Statement}
    (h : LineHolds tokens found) (hne : tokens ≠ []) :
    ∃ parsed, LineTree tokens parsed ∧ found.toList = [parsed] := by
  cases found with
  | none => exact absurd h hne
  | some parsed => exact ⟨parsed, h, rfl⟩

/-- The tokens with a line number are those of one line, and they make up the statement with that
number. -/
theorem SourceTree.onLine {lines : List PlacedLine} {tokens : List Token}
    {statements : List Statement} (h : SourceTree lines tokens statements)
    (hsorted : lines.Pairwise fun a b => a.number < b.number) {number : Int}
    (hne : LineScript.onLine tokens number ≠ []) :
    ∃ line ∈ lines, ∃ pieces parsed, LineCut line.text pieces ∧
      LineScript.onLine tokens number = line.tokens pieces ∧
      LineTree (line.tokens pieces) parsed ∧ statementsOn statements number = [parsed] := by
  induction h with
  | @last line pieces found hcut hfound =>
    rcases onLine_of_lineHolds hcut hfound true number with ⟨-, htokens, hstatements⟩ |
      ⟨-, htokens, -⟩
    · obtain ⟨parsed, htree, hlist⟩ := hfound.exists_lineTree (htokens ▸ hne)
      exact ⟨line, List.mem_cons_self, pieces, parsed, hcut, htokens, htree,
        hstatements.trans hlist⟩
    · exact absurd htokens hne
  | @more line lines pieces found tokens statements hcut hfound hmore ih =>
    obtain ⟨hfirst, hrest⟩ := List.pairwise_cons.1 hsorted
    have hsplit : line.tokens pieces ++ line.stop false :: tokens =
        (line.tokens pieces ++ [line.stop false]) ++ tokens := by simp
    rw [hsplit, onLine_append] at hne ⊢
    rw [statementsOn_append]
    rcases onLine_of_lineHolds hcut hfound false number with ⟨rfl, htokens, hstatements⟩ |
      ⟨-, htokens, hstatements⟩
    · have hno : LineScript.onLine tokens line.number = [] := by
        apply onLine_eq_nil
        intro token htoken
        obtain ⟨other, hother, hline⟩ := hmore.line_of_mem_tokens htoken
        have hlt := hfirst other hother
        omega
      have hnone : statementsOn statements line.number = [] := by
        apply statementsOn_eq_nil
        intro statement hstatement
        obtain ⟨other, hother, hline⟩ := hmore.line_of_mem_statements hstatement
        have hlt := hfirst other hother
        omega
      rw [htokens, hno, List.append_nil] at hne
      rw [htokens, hstatements, hno, hnone, List.append_nil, List.append_nil]
      obtain ⟨parsed, htree, hlist⟩ := hfound.exists_lineTree hne
      exact ⟨line, List.mem_cons_self, pieces, parsed, hcut, rfl, htree, hlist⟩
    · rw [htokens, List.nil_append] at hne
      rw [htokens, hstatements, List.nil_append, List.nil_append]
      obtain ⟨other, hother, hfacts⟩ := ih hrest hne
      exact ⟨other, List.mem_cons_of_mem _ hother, hfacts⟩

/-- In a program, the tokens with a line number make up the statement with that number. -/
theorem onLine_of_parse {source : String} {tokens : List Token} {statements : List Statement}
    (hscan : Token.scan source = .ok tokens) (hparse : Statement.parse tokens = .ok statements)
    {number : Int} (hne : onLine tokens number ≠ []) :
    ∃ line ∈ placeLines 1 0 (lines source.toList), ∃ pieces parsed, LineCut line.text pieces ∧
      onLine tokens number = line.tokens pieces ∧ LineTree (line.tokens pieces) parsed ∧
      statementsOn statements number = [parsed] :=
  (sourceTree_iff.1 ⟨hscan, hparse⟩).onLine (pairwise_placeLines 1 0 _) hne

end LineScript
