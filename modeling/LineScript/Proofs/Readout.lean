import LineScript.Proofs.Cover
import LineScript.Proofs.Session.Accumulator

/-!
# Reading the tokens back off the trees

A statement is read as its keyword, its target and the leaves of its value from left to right, with
the operators between them; a value that is not written is left out (`Statement.items`).
`Item.Matches` says which token an item was made from. Texts fold to the right and numbers to the
left, so one induction is over the tokens that are left and the other carries along those that are
already in the tree. Main statement: `readBack_of_parse`, the statements of a source are read as its
tokens, in their order, and have the shapes and the spans that this order asks for.
-/

set_option autoImplicit false

namespace LineScript

open Parse Scan Text

/-! ## Items -/

/-- What a tree keeps of a token. -/
inductive Item where
  | keyword (span : Span) (keyword : Keyword)
  | name (span : Span) (name : String)
  | text (span : Span) (text : String)
  | number (span : Span) (value : Int)
  | operator (symbol : String)
  | misplaced (kind : NodeKind)
  deriving DecidableEq, Repr

/-- The span of an item; an operator has none of its own. -/
def Item.span? : Item → Option Span
  | keyword span _ => some span
  | name span _ => some span
  | text span _ => some span
  | number span _ => some span
  | operator _ => none
  | misplaced _ => none

/-- The token that an item was made from. A number has the value of its digits. -/
inductive Item.Matches : Item → Token → Prop
  | keyword {token : Token} {keyword : Keyword} (hkind : token.kind = .keyword keyword)
      (hlexeme : token.lexeme = keyword.word) : Matches (.keyword token.span keyword) token
  | name {token : Token} (hkind : token.kind = .identifier) :
      Matches (.name token.span token.lexeme) token
  | text {token : Token} (hkind : token.kind = .value) :
      Matches (.text token.span token.lexeme) token
  | number {token : Token} (hkind : token.kind = .value) (hne : token.lexeme.toList ≠ [])
      (hdigits : ∀ c ∈ token.lexeme.toList, c.isDigit = true) :
      Matches (.number token.span (Nat.ofDigitChars 10 token.lexeme.toList 0)) token
  | operator {token : Token} {op : Operator} (hkind : token.kind = .operator op)
      (hlexeme : token.lexeme = op.symbol) : Matches (.operator op.symbol) token

/-- Whether trees keep a token: line ends and equals signs are left out of them. -/
def Token.isKept (token : Token) : Bool :=
  match token.kind with
  | .equal => false
  | .newline => false
  | .endOfInput => false
  | _ => true

theorem Item.Matches.isKept {item : Item} {token : Token} (h : item.Matches token) :
    token.isKept = true := by
  cases h <;> simp_all [Token.isKept]

def Target.item : Target → Item
  | named span name => .name span name
  | misplaced _ kind => .misplaced kind

/-- The leaves of a text from left to right. -/
def TextExpr.items : TextExpr → List Item
  | literal span value => [.text span value]
  | reference span name => [.name span name]
  | concat _ left right => left.items ++ right.items
  | misplaced _ kind => [.misplaced kind]

/-- The leaves of a number from left to right, with the operators between them. -/
def NumberExpr.items : NumberExpr → List Item
  | literal span value => [.number span value]
  | reference span name => [.name span name]
  | binary _ symbol left right => left.items ++ .operator symbol :: right.items
  | misplaced _ kind => [.misplaced kind]

/-- Where the keyword of a statement stands. -/
def Keyword.spanIn (keyword : Keyword) (statement : Span) : Span :=
  ⟨statement.line, statement.start, statement.start + keyword.word.length⟩

/-- A statement in the order in which it is written. A value is left out if it is the one that a
statement has without one: nothing, in the place of the keyword. -/
def Statement.items : Statement → List Item
  | text span target value =>
    .keyword (Keyword.text.spanIn span) .text :: target.item ::
      if value = .literal (Keyword.text.spanIn span) "" then [] else value.items
  | number span target value =>
    .keyword (Keyword.number.spanIn span) .number :: target.item ::
      if value = .literal (Keyword.number.spanIn span) 0 then [] else value.items
  | input span target => [.keyword (Keyword.input.spanIn span) .input, target.item]
  | output span target => [.keyword (Keyword.output.spanIn span) .output, target.item]
  | misplaced _ kind => [.misplaced kind]

/-! ## Shapes -/

def TextExpr.isLeaf : TextExpr → Bool
  | concat _ _ _ => false
  | _ => true

/-- The rightmost part of a text that is no concatenation. -/
def TextExpr.lastLeaf : TextExpr → TextExpr
  | concat _ _ right => right.lastLeaf
  | leaf => leaf

def NumberExpr.isLeaf : NumberExpr → Bool
  | binary _ _ _ _ => false
  | _ => true

/-- The leftmost part of a number that is no operation. -/
def NumberExpr.firstLeaf : NumberExpr → NumberExpr
  | binary _ _ left _ => left.firstLeaf
  | leaf => leaf

/-- The rightmost part of a number that is no operation. -/
def NumberExpr.lastLeaf : NumberExpr → NumberExpr
  | binary _ _ _ right => right.lastLeaf
  | leaf => leaf

/-- A text on a line that folds to the right: what stands to the left in a concatenation is a leaf,
and a concatenation spans from its first leaf to its last. -/
inductive TextExpr.Folded (line : Int) : TextExpr → Prop
  | literal {span : Span} (value : String) (hline : span.line = line) :
      Folded line (.literal span value)
  | reference {span : Span} (name : String) (hline : span.line = line) :
      Folded line (.reference span name)
  | concat {left right : TextExpr} (hleft : Folded line left) (hleaf : left.isLeaf = true)
      (hright : Folded line right) :
      Folded line
        (.concat ⟨line, left.firstLeaf.span.start, right.lastLeaf.span.stop⟩ left right)

/-- A number on a line that folds to the left: what stands to the right of an operator is a leaf,
and an operation spans from its first leaf to its last. -/
inductive NumberExpr.Folded (line : Int) : NumberExpr → Prop
  | literal {span : Span} (value : Int) (hline : span.line = line) :
      Folded line (.literal span value)
  | reference {span : Span} (name : String) (hline : span.line = line) :
      Folded line (.reference span name)
  | binary {left right : NumberExpr} (symbol : String) (hleft : Folded line left)
      (hright : Folded line right) (hleaf : right.isLeaf = true) :
      Folded line
        (.binary ⟨line, left.firstLeaf.span.start, right.lastLeaf.span.stop⟩ symbol left right)

/-- All parts of a statement stand on its line, and its value is folded. -/
inductive Statement.OnOneLine : Statement → Prop
  | text {span : Span} {target : Target} {value : TextExpr}
      (htarget : target.span.line = span.line) (hvalue : value.Folded span.line) :
      OnOneLine (.text span target value)
  | number {span : Span} {target : Target} {value : NumberExpr}
      (htarget : target.span.line = span.line) (hvalue : value.Folded span.line) :
      OnOneLine (.number span target value)
  | input {span : Span} {target : Target} (htarget : target.span.line = span.line) :
      OnOneLine (.input span target)
  | output {span : Span} {target : Target} (htarget : target.span.line = span.line) :
      OnOneLine (.output span target)

/-- A statement on one line that ends where the last thing in it does. -/
structure Statement.Shaped (statement : Statement) : Prop where
  onOneLine : statement.OnOneLine
  stop : ∃ item ∈ statement.items.getLast?, ∃ span ∈ item.span?, span.stop = statement.span.stop

theorem TextExpr.Folded.span_eq {line : Int} {value : TextExpr} (h : value.Folded line) :
    value.span = ⟨line, value.firstLeaf.span.start, value.lastLeaf.span.stop⟩ := by
  cases h with
  | literal value hline =>
    rw [← hline]
    rfl
  | reference name hline =>
    rw [← hline]
    rfl
  | concat hleft hleaf hright => rfl

theorem NumberExpr.Folded.span_eq {line : Int} {value : NumberExpr} (h : value.Folded line) :
    value.span = ⟨line, value.firstLeaf.span.start, value.lastLeaf.span.stop⟩ := by
  cases h with
  | literal value hline =>
    rw [← hline]
    rfl
  | reference name hline =>
    rw [← hline]
    rfl
  | binary symbol hleft hright hleaf => rfl

/-- The last thing read off a text stands where the text ends. -/
theorem TextExpr.Folded.getLast? {line : Int} {value : TextExpr} (h : value.Folded line) :
    ∃ item ∈ value.items.getLast?, item.span? = some value.lastLeaf.span := by
  induction h with
  | literal value hline => exact ⟨_, rfl, rfl⟩
  | reference name hline => exact ⟨_, rfl, rfl⟩
  | concat hleft hleaf hright _ ih =>
    obtain ⟨item, hitem, hspan⟩ := ih
    refine ⟨item, ?_, hspan⟩
    rw [items, List.getLast?_append, Option.mem_def.1 hitem]
    rfl

theorem NumberExpr.Folded.getLast? {line : Int} {value : NumberExpr} (h : value.Folded line) :
    ∃ item ∈ value.items.getLast?, item.span? = some value.lastLeaf.span := by
  induction h with
  | literal value hline => exact ⟨_, rfl, rfl⟩
  | reference name hline => exact ⟨_, rfl, rfl⟩
  | binary symbol hleft hright hleaf _ ih =>
    obtain ⟨item, hitem, hspan⟩ := ih
    refine ⟨item, ?_, hspan⟩
    rw [items, List.getLast?_append, List.getLast?_cons, Option.mem_def.1 hitem]
    rfl

/-! ## Values -/

theorem matches_textLeaf {token : Token} {leaf : TextExpr} (h : textLeaf? token = some leaf) :
    List.Forall₂ Item.Matches leaf.items [token] := by
  rcases textLeaf?_eq_some_iff.1 h with ⟨hkind, rfl⟩ | ⟨hkind, rfl⟩
  · exact .cons (.text hkind) .nil
  · exact .cons (.name hkind) .nil

theorem folded_textLeaf {token : Token} {leaf : TextExpr} (h : textLeaf? token = some leaf) :
    leaf.Folded token.span.line ∧ leaf.isLeaf = true := by
  rcases textLeaf?_eq_some_iff.1 h with ⟨-, rfl⟩ | ⟨-, rfl⟩
  · exact ⟨.literal _ rfl, rfl⟩
  · exact ⟨.reference _ rfl, rfl⟩

theorem Parse.TextTree.matches {tokens : List Token} {value : TextExpr}
    (h : TextTree tokens value) : List.Forall₂ Item.Matches value.items tokens := by
  induction h with
  | leaf hleaf => exact matches_textLeaf hleaf
  | concat hleaf _ ih => exact List.rel_append (matches_textLeaf hleaf) ih

theorem Parse.TextTree.folded {tokens : List Token} {value : TextExpr} {line : Int}
    (h : TextTree tokens value) (hline : ∀ token ∈ tokens, token.span.line = line) :
    value.Folded line := by
  induction h with
  | @leaf token leaf hleaf =>
    rw [← hline token List.mem_cons_self]
    exact (folded_textLeaf hleaf).1
  | @concat token leaf rest value hleaf _ ih =>
    obtain ⟨hfirst, hrest⟩ := List.forall_mem_cons.1 hline
    obtain ⟨hfolded, hisLeaf⟩ := folded_textLeaf hleaf
    have hvalue := ih hrest
    rw [hfirst] at hfolded
    rw [hfolded.span_eq, hvalue.span_eq]
    exact .concat hfolded hisLeaf hvalue

theorem Parse.TextTree.exists_span {tokens : List Token} {value : TextExpr}
    (h : TextTree tokens value) :
    ∃ first ∈ tokens, ∃ last ∈ tokens, value.span = first.span.upTo last.span := by
  have hleafSpan : ∀ {token : Token} {leaf : TextExpr}, textLeaf? token = some leaf →
      leaf.span = token.span := by
    intro token leaf hleaf
    rcases textLeaf?_eq_some_iff.1 hleaf with ⟨-, rfl⟩ | ⟨-, rfl⟩ <;> rfl
  induction h with
  | @leaf token leaf hleaf =>
    exact ⟨token, List.mem_cons_self, token, List.mem_cons_self, hleafSpan hleaf⟩
  | @concat token leaf rest value hleaf _ ih =>
    obtain ⟨first, -, last, hlast, hspan⟩ := ih
    refine ⟨token, List.mem_cons_self, last, List.mem_cons_of_mem _ hlast, ?_⟩
    rw [TextExpr.span, hleafSpan hleaf, hspan]
    rfl

/-- A token whose text is that of its keyword or of its operator, if it has one. -/
structure Token.Spelled (token : Token) : Prop where
  keyword : ∀ keyword, token.kind = .keyword keyword →
    token.lexeme = keyword.word ∧ token.span.stop = token.span.start + keyword.word.length
  operator : ∀ op, token.kind = .operator op → token.lexeme = op.symbol

theorem matches_numberLeaf {token : Token} {leaf : NumberExpr} (h : NumberLeaf token leaf)
    (hdigits : Accumulator.DigitsIfValue token) :
    List.Forall₂ Item.Matches leaf.items [token] := by
  cases h with
  | @literal n hkind hread =>
    obtain ⟨hne, hall⟩ := hdigits hkind
    rw [← String.ofList_toList (s := token.lexeme)] at hread
    obtain ⟨-, -, rfl⟩ := (read_digits_iff hne hall).1 hread
    exact .cons (.number hkind hne hall) .nil
  | reference hkind => exact .cons (.name hkind) .nil

theorem folded_numberLeaf {token : Token} {leaf : NumberExpr} (h : NumberLeaf token leaf) :
    leaf.Folded token.span.line ∧ leaf.isLeaf = true := by
  cases h with
  | literal hkind hread => exact ⟨.literal _ rfl, rfl⟩
  | reference hkind => exact ⟨.reference _ rfl, rfl⟩

/-- What is read off the tree on the left is followed by what the chain adds to it. -/
theorem Parse.ChainTree.matches {left value : NumberExpr} {front tokens : List Token}
    (h : ChainTree left tokens value) (hleft : List.Forall₂ Item.Matches left.items front)
    (hspelled : ∀ token ∈ tokens, token.Spelled)
    (hdigits : ∀ token ∈ tokens, Accumulator.DigitsIfValue token) :
    List.Forall₂ Item.Matches value.items (front ++ tokens) := by
  -- Each link moves its two tokens from what is left to what is in the tree.
  induction h generalizing front with
  | done left => rwa [List.append_nil]
  | @link left leaf value sign operand rest op hsign hleaf _ ih =>
    obtain ⟨hspelledSign, hspelledRest⟩ := List.forall_mem_cons.1 hspelled
    obtain ⟨-, hdigitsRest⟩ := List.forall_mem_cons.1 hdigits
    obtain ⟨hoperand, hdigitsMore⟩ := List.forall_mem_cons.1 hdigitsRest
    have hlink : List.Forall₂ Item.Matches (.operator op.symbol :: leaf.items) [sign, operand] :=
      .cons (.operator hsign (hspelledSign.operator op hsign)) (matches_numberLeaf hleaf hoperand)
    rw [List.append_cons, List.append_cons, List.append_assoc front [sign] [operand]]
    exact ih (List.rel_append hleft hlink) (List.forall_mem_cons.1 hspelledRest).2 hdigitsMore

theorem Parse.ChainTree.folded {left value : NumberExpr} {tokens : List Token} {line : Int}
    (h : ChainTree left tokens value) (hleft : left.Folded line)
    (hline : ∀ token ∈ tokens, token.span.line = line) : value.Folded line := by
  induction h with
  | done left => exact hleft
  | @link left leaf value sign operand rest op _ hleaf _ ih =>
    obtain ⟨-, hrest⟩ := List.forall_mem_cons.1 hline
    obtain ⟨hoperand, hmore⟩ := List.forall_mem_cons.1 hrest
    obtain ⟨hfolded, hisLeaf⟩ := folded_numberLeaf hleaf
    rw [hoperand] at hfolded
    apply ih _ hmore
    rw [hleft.span_eq, hfolded.span_eq]
    exact .binary _ hleft hfolded hisLeaf

theorem Parse.ChainTree.exists_span {left value : NumberExpr} {front tokens : List Token}
    (h : ChainTree left tokens value)
    (hleft : ∃ first ∈ front, ∃ last ∈ front, left.span = first.span.upTo last.span) :
    ∃ first ∈ front ++ tokens, ∃ last ∈ front ++ tokens,
      value.span = first.span.upTo last.span := by
  induction h generalizing front with
  | done left => rwa [List.append_nil]
  | @link left leaf value sign operand rest op _ hleaf _ ih =>
    obtain ⟨first, hfirst, last, -, hspan⟩ := hleft
    rw [List.append_cons, List.append_cons]
    apply ih
    refine ⟨first, by simp [hfirst], operand, by simp, ?_⟩
    rw [NumberExpr.span, hleaf.span_eq, hspan]
    rfl

/-! ## Statements -/

/-- The tokens of a line: on it, in order, none of them empty, and spelled as they should be. -/
structure Arranged (line : Int) (tokens : List Token) : Prop where
  line_eq : ∀ token ∈ tokens, token.span.line = line
  wide : ∀ token ∈ tokens, token.span.start < token.span.stop
  ordered : tokens.Pairwise fun a b => a.span.stop ≤ b.span.start
  spelled : ∀ token ∈ tokens, token.Spelled

theorem Arranged.tail {line : Int} {first : Token} {tokens : List Token}
    (h : Arranged line (first :: tokens)) : Arranged line tokens where
  line_eq := (List.forall_mem_cons.1 h.line_eq).2
  wide := (List.forall_mem_cons.1 h.wide).2
  ordered := (List.pairwise_cons.1 h.ordered).2
  spelled := (List.forall_mem_cons.1 h.spelled).2

/-- A token that follows another one starts and ends after it. -/
theorem Arranged.lt {line : Int} {first token : Token} {tokens : List Token}
    (h : Arranged line (first :: tokens)) (htoken : token ∈ tokens) :
    first.span.start < token.span.start ∧ first.span.stop < token.span.stop := by
  have hfirst := h.wide first List.mem_cons_self
  have hwide := h.wide token (List.mem_cons_of_mem _ htoken)
  have hle := (List.pairwise_cons.1 h.ordered).1 token htoken
  omega

theorem Arranged.same_line {line : Int} {first token : Token} {tokens : List Token}
    (h : Arranged line (first :: tokens)) (htoken : token ∈ tokens) :
    token.span.line = first.span.line := by
  rw [h.line_eq first List.mem_cons_self, h.line_eq token (List.mem_cons_of_mem _ htoken)]

theorem Token.Spelled.spanIn_eq {first : Token} (h : first.Spelled) {keyword : Keyword}
    (hfirst : first.kind = .keyword keyword) (last : Span) :
    keyword.spanIn (first.span.upTo last) = first.span := by
  obtain ⟨-, hstop⟩ := h.keyword keyword hfirst
  rw [Keyword.spanIn, Span.upTo, ← hstop]

theorem filter_isKept {items : List Item} {tokens : List Token}
    (h : List.Forall₂ Item.Matches items tokens) :
    tokens.filter Token.isKept = tokens := by
  induction h with
  | nil => rfl
  | cons hmatches _ ih => rw [List.filter_cons_of_pos hmatches.isKept, ih]

/-- The keyword and the target of a statement are read as its first two tokens. -/
theorem matches_start {first name : Token} {keyword : Keyword} (hspelled : first.Spelled)
    (hfirst : first.kind = .keyword keyword) (hname : name.kind = .identifier)
    {items : List Item} {tokens : List Token}
    (h : List.Forall₂ Item.Matches items (tokens.filter Token.isKept)) :
    List.Forall₂ Item.Matches (.keyword first.span keyword :: (target name).item :: items)
      ((first :: name :: tokens).filter Token.isKept) := by
  have hkeyword : Item.Matches (.keyword first.span keyword) first :=
    .keyword hfirst (hspelled.keyword keyword hfirst).1
  have htarget : (target name).item.Matches name := .name hname
  rw [List.filter_cons_of_pos hkeyword.isKept, List.filter_cons_of_pos htarget.isKept]
  exact .cons hkeyword (.cons htarget h)

/-- What is shown of the statement of a line: it is read as the tokens of the line, it has its
shape, and it spans from one of them to another. -/
structure ReadsAs (statement : Statement) (tokens : List Token) : Prop where
  items : List.Forall₂ Item.Matches statement.items (tokens.filter Token.isKept)
  shaped : statement.Shaped
  span : ∃ first ∈ tokens, ∃ last ∈ tokens, statement.span = first.span.upTo last.span

theorem further_eq_left {a b : Span} (h : b.stop < a.stop) : a.further b = a :=
  if_neg (Int.not_lt.2 (Int.le_of_lt h))

theorem further_eq_right {a b : Span} (h : a.stop < b.stop) : a.further b = b :=
  if_pos h

/-- A statement without a value: only its keyword and its target are read. -/
theorem readsAs_bare {first name : Token} {keyword : Keyword} {line : Int}
    (harranged : Arranged line [first, name]) (hfirst : first.kind = .keyword keyword)
    (hname : name.kind = .identifier) {statement : Statement}
    (hspan : statement.span = first.span.upTo name.span)
    (hitems : keyword.spanIn statement.span = first.span →
      statement.items = [.keyword (keyword.spanIn statement.span) keyword, (target name).item])
    (honOneLine : statement.OnOneLine) : ReadsAs statement [first, name] := by
  have hspelled := harranged.spelled first List.mem_cons_self
  have hkeyword : keyword.spanIn statement.span = first.span := by
    rw [hspan, hspelled.spanIn_eq hfirst]
  have hread := hitems hkeyword
  rw [hkeyword] at hread
  refine ⟨?_, ⟨honOneLine, ?_⟩, ?_⟩
  · rw [hread]
    exact matches_start hspelled hfirst hname .nil
  · rw [hread, hspan]
    exact ⟨(target name).item, rfl, name.span, rfl, rfl⟩
  · exact ⟨first, by simp, name, by simp, hspan⟩

/-- A statement with a value: it is read after the keyword and the target, and as it stands after
both, the statement ends where it does. -/
theorem readsAs_assignment {first name equal : Token} {rest : List Token} {keyword : Keyword}
    {line : Int} (harranged : Arranged line (first :: name :: equal :: rest))
    (hfirst : first.kind = .keyword keyword) (hname : name.kind = .identifier)
    (hequal : equal.kind = .equal) {items : List Item} {value : Span}
    (hmatches : List.Forall₂ Item.Matches items rest)
    (hvalue : ∃ start ∈ rest, ∃ last ∈ rest, value = start.span.upTo last.span)
    (hlast : ∃ item ∈ items.getLast?, ∃ span ∈ item.span?, span.stop = value.stop)
    {statement : Statement}
    (hspan : statement.span = first.span.upTo (name.span.further value))
    (hitems : value ≠ keyword.spanIn statement.span → statement.items =
      .keyword (keyword.spanIn statement.span) keyword :: (target name).item :: items)
    (honOneLine : statement.OnOneLine) :
    ReadsAs statement (first :: name :: equal :: rest) := by
  obtain ⟨start, hstart, last, hend, rfl⟩ := hvalue
  have hspelled := harranged.spelled first List.mem_cons_self
  have hkeyword : keyword.spanIn statement.span = first.span := by
    rw [hspan, hspelled.spanIn_eq hfirst]
  have hstop : name.span.stop < (start.span.upTo last.span).stop :=
    (harranged.tail.lt (List.mem_cons_of_mem equal hend)).2
  have hlater := (harranged.lt (List.mem_cons_of_mem name (List.mem_cons_of_mem equal hstart))).1
  have hwritten : start.span.upTo last.span ≠ first.span := by
    intro heq
    have hsame : (start.span.upTo last.span).start = first.span.start := congrArg Span.start heq
    simp only [Span.upTo] at hsame
    omega
  have hread := hitems (by rwa [hkeyword])
  have hreach : statement.span = first.span.upTo last.span := by
    rw [hspan, further_eq_right hstop]
    rfl
  have hkept : equal.isKept = false := by simp [Token.isKept, hequal]
  rw [hkeyword] at hread
  refine ⟨?_, ⟨honOneLine, ?_⟩, ?_⟩
  · rw [hread]
    apply matches_start hspelled hfirst hname
    rw [List.filter_cons_of_neg (by simp [hkept]), filter_isKept hmatches]
    exact hmatches
  · obtain ⟨item, hitem, hitemStop⟩ := hlast
    rw [hread, hreach]
    refine ⟨item, ?_, hitemStop⟩
    simp [List.getLast?_cons, Option.mem_def.1 hitem]
  · exact ⟨first, by simp, last, by simp [hend], hreach⟩

/-- The statement of a line is read as the tokens of the line. -/
theorem readsAs_of_lineTree {tokens : List Token} {parsed : Statement} {line : Int}
    (h : LineTree tokens parsed) (harranged : Arranged line tokens)
    (hdigits : ∀ first rest, tokens = first :: rest → first.kind = .keyword .number →
      ∀ token ∈ rest, Accumulator.DigitsIfValue token) : ReadsAs parsed tokens := by
  cases h with
  | @emptyText first name hfirst hname =>
    rw [further_eq_left (harranged.lt (by simp)).2]
    apply readsAs_bare harranged hfirst hname rfl
    · intro hkeyword
      simp only [Statement.items, Statement.span] at hkeyword ⊢
      rw [hkeyword, if_pos rfl]
    · exact .text (harranged.same_line (by simp)) (.literal _ rfl)
  | @text first name equal rest value hfirst hname hequal hvalue =>
    have hfolded := hvalue.folded fun token htoken =>
      harranged.same_line (by simp [htoken])
    obtain ⟨item, hitem, hspan⟩ := hfolded.getLast?
    apply readsAs_assignment harranged hfirst hname hequal hvalue.matches hvalue.exists_span
      ⟨item, hitem, _, hspan, by rw [hfolded.span_eq]⟩ rfl
    · intro hne
      simp only [Statement.items, Statement.span] at hne ⊢
      rw [if_neg fun heq => hne (congrArg TextExpr.span heq)]
    · exact .text (harranged.same_line (by simp)) hfolded
  | @zeroNumber first name hfirst hname =>
    rw [further_eq_left (harranged.lt (by simp)).2]
    apply readsAs_bare harranged hfirst hname rfl
    · intro hkeyword
      simp only [Statement.items, Statement.span] at hkeyword ⊢
      rw [hkeyword, if_pos rfl]
    · exact .number (harranged.same_line (by simp)) (.literal _ rfl)
  | @number first name equal operand rest leaf value hfirst hname hequal hleaf hchain =>
    have hvalues := hdigits first _ rfl hfirst
    have hoperand : operand.span.line = first.span.line := harranged.same_line (by simp)
    have hfolded := hchain.folded (hoperand ▸ (folded_numberLeaf hleaf).1) fun token htoken =>
      harranged.same_line (by simp [htoken])
    have hmatches := hchain.matches (matches_numberLeaf hleaf (hvalues operand (by simp)))
      harranged.tail.tail.tail.tail.spelled fun token htoken => hvalues token (by simp [htoken])
    have hsingle : ∃ first ∈ [operand], ∃ last ∈ [operand],
        leaf.span = first.span.upTo last.span :=
      ⟨operand, by simp, operand, by simp, hleaf.span_eq⟩
    obtain ⟨item, hitem, hitemSpan⟩ := hfolded.getLast?
    apply readsAs_assignment harranged hfirst hname hequal hmatches (hchain.exists_span hsingle)
      ⟨item, hitem, _, hitemSpan, by rw [hfolded.span_eq]⟩ rfl
    · intro hne
      simp only [Statement.items, Statement.span] at hne ⊢
      rw [if_neg fun heq => hne (congrArg NumberExpr.span heq)]
    · exact .number (harranged.same_line (by simp)) hfolded
  | @input first name hfirst hname =>
    apply readsAs_bare harranged hfirst hname rfl fun _ => rfl
    exact .input (harranged.same_line (by simp))
  | @output first name hfirst hname =>
    apply readsAs_bare harranged hfirst hname rfl fun _ => rfl
    exact .output (harranged.same_line (by simp))

/-! ## Spelling -/

/-- A piece whose text is that of its keyword or of its operator, if it has one. -/
structure Scan.Piece.Spelled (piece : Piece) : Prop where
  keyword : ∀ keyword, piece.kind = .keyword keyword → piece.text = keyword.word.toList
  operator : ∀ op, piece.kind = .operator op → piece.text = [op.char]

theorem Scan.Piece.Spelled.token {piece : Piece} (h : piece.Spelled) (line offset : Nat) :
    (piece.place line offset).Spelled := by
  refine ⟨?_, ?_⟩
  · intro keyword hkind
    have htext := h.keyword keyword hkind
    simp only [Piece.place, Scan.place, htext, String.ofList_toList, String.length_toList, true_and]
    omega
  · intro op hkind
    have htext := h.operator op hkind
    simp only [Piece.place, htext]
    rfl

theorem spelled_wordPiece {column : Nat} {word : List Char} :
    ∀ piece ∈ wordPiece column word, piece.Spelled := by
  intro piece hpiece
  simp only [wordPiece] at hpiece
  split at hpiece
  · cases hpiece
  · rw [List.mem_singleton.1 hpiece]
    exact ⟨by simp, by simp⟩

theorem Scan.TextCut.spelled {column : Nat} {cs : List Char} {pieces : List Piece}
    (h : TextCut column cs pieces) : ∀ piece ∈ pieces, piece.Spelled := by
  induction h with
  | word column hword => exact spelled_wordPiece
  | dollar hword _ ih => exact List.forall_mem_cons.2 ⟨⟨by simp, by simp⟩, ih⟩
  | reference hword hname hrest _ ih =>
    have hname : ∀ {name : List Char} {column : Nat}, Piece.Spelled ⟨.identifier, name, column⟩ :=
      ⟨by simp, by simp⟩
    exact List.forall_mem_append.2
      ⟨spelled_wordPiece, List.forall_mem_cons.2 ⟨hname, ih⟩⟩
  | blank hword hc _ ih => exact List.forall_mem_append.2 ⟨spelled_wordPiece, ih⟩

theorem Scan.OperandCut.spelled {column : Nat} {text : List Char} {piece : Piece}
    (h : OperandCut column text piece) : piece.Spelled := by
  cases h with
  | digits hne hdigits => exact ⟨by simp, by simp⟩
  | reference hname => exact ⟨by simp, by simp⟩

theorem Scan.NumberCut.spelled {column : Nat} {cs : List Char} {pieces : List Piece}
    (h : NumberCut column cs pieces) : ∀ piece ∈ pieces, piece.Spelled := by
  induction h with
  | last hlead hpiece htrail => exact List.forall_mem_singleton.2 hpiece.spelled
  | link op hlead hpiece hgap _ ih =>
    have hsign : ∀ {column : Nat}, Piece.Spelled ⟨.operator op, [op.char], column⟩ :=
      ⟨by simp, by simp⟩
    exact List.forall_mem_cons.2 ⟨hpiece.spelled, List.forall_mem_cons.2 ⟨hsign, ih⟩⟩

/-- Keywords and operators are written as what they are. -/
theorem Scan.LineCut.spelled {cs : List Char} {pieces : List Piece} (h : LineCut cs pieces) :
    ∀ piece ∈ pieces, piece.Spelled := by
  cases h with
  | empty hcs => exact List.forall_mem_nil _
  | @statement keyword lead gap name space tail more _ _ _ _ _ _ htail =>
    have hword : Piece.Spelled ⟨.keyword keyword, keyword.word.toList, lead.length⟩ :=
      ⟨by simp, by simp⟩
    have hname : ∀ column, ∀ piece ∈ namePiece column name, piece.Spelled := by
      intro column piece hpiece
      simp only [namePiece] at hpiece
      split at hpiece
      · cases hpiece
      · rw [List.mem_singleton.1 hpiece]
        exact ⟨by simp, by simp⟩
    have hequal : ∀ column, Piece.Spelled ⟨.equal, ['='], column⟩ := by
      intro column
      exact ⟨by simp, by simp⟩
    refine List.forall_mem_append.2 ⟨List.forall_mem_cons.2 ⟨hword, hname _⟩, ?_⟩
    cases htail with
    | nothing keyword => exact List.forall_mem_nil _
    | text hvalue => exact List.forall_mem_cons.2 ⟨hequal _, hvalue.spelled⟩
    | number hvalue => exact List.forall_mem_cons.2 ⟨hequal _, hvalue.spelled⟩

/-! ## Programs -/

/-- Statements that are read, one after the other, as the tokens that trees keep. They have their
shapes and span from token to token, each on a line of its own and after the one before. -/
structure ReadBack (statements : List Statement) (tokens : List Token) : Prop where
  -- Nothing is lost, added or moved.
  items : List.Forall₂ Item.Matches (statements.flatMap Statement.items)
    (tokens.filter Token.isKept)
  shaped : ∀ statement ∈ statements, statement.Shaped
  spans : ∀ statement ∈ statements, ∃ first ∈ tokens, ∃ last ∈ tokens,
    statement.span = first.span.upTo last.span
  ordered : statements.Pairwise fun a b =>
    a.span.line < b.span.line ∧ a.span.stop ≤ b.span.start

theorem ReadsAs.readBack {statement : Statement} {tokens : List Token}
    (h : ReadsAs statement tokens) : ReadBack [statement] tokens where
  items := by simpa using h.items
  shaped := List.forall_mem_singleton.2 h.shaped
  spans := List.forall_mem_singleton.2 h.span
  ordered := List.pairwise_singleton _ _

/-- Nothing is read as tokens that trees do not keep. -/
theorem readBack_nil {tokens : List Token} (h : ∀ token ∈ tokens, token.isKept = false) :
    ReadBack [] tokens where
  items := by
    rw [List.filter_eq_nil_iff.2 fun token htoken => by simp [h token htoken]]
    exact .nil
  shaped := List.forall_mem_nil _
  spans := List.forall_mem_nil _
  ordered := .nil

theorem ReadBack.append {statements more : List Statement} {tokens others : List Token}
    (h : ReadBack statements tokens) (hmore : ReadBack more others)
    (hlines : ∀ a ∈ statements, ∀ b ∈ more, a.span.line < b.span.line)
    (hordered : ∀ a ∈ tokens, ∀ b ∈ others, a.span.stop ≤ b.span.start) :
    ReadBack (statements ++ more) (tokens ++ others) where
  items := by
    rw [List.flatMap_append, List.filter_append]
    exact List.rel_append h.items hmore.items
  shaped := List.forall_mem_append.2 ⟨h.shaped, hmore.shaped⟩
  spans := by
    intro statement hstatement
    rcases List.mem_append.1 hstatement with hstatement | hstatement
    · obtain ⟨first, hfirst, last, hlast, hspan⟩ := h.spans statement hstatement
      exact ⟨first, List.mem_append_left _ hfirst, last, List.mem_append_left _ hlast, hspan⟩
    · obtain ⟨first, hfirst, last, hlast, hspan⟩ := hmore.spans statement hstatement
      exact ⟨first, List.mem_append_right _ hfirst, last, List.mem_append_right _ hlast, hspan⟩
  ordered := by
    refine List.pairwise_append.2 ⟨h.ordered, hmore.ordered, ?_⟩
    intro a ha b hb
    refine ⟨hlines a ha b hb, ?_⟩
    obtain ⟨_, _, last, hlast, hspan⟩ := h.spans a ha
    obtain ⟨first, hfirst, _, _, hother⟩ := hmore.spans b hb
    rw [hspan, hother]
    exact hordered last hlast first hfirst

theorem readBack_of_lineHolds {line : PlacedLine} {pieces : List Piece}
    {found : Option Statement} (hcut : LineCut line.text pieces)
    (hfound : LineHolds (line.tokens pieces) found)
    (hwide : ∀ token ∈ line.tokens pieces, token.span.start < token.span.stop)
    (hordered : (line.tokens pieces).Pairwise fun a b => a.span.stop ≤ b.span.start) :
    ReadBack found.toList (line.tokens pieces) := by
  cases found with
  | none =>
    have hnil : line.tokens pieces = [] := hfound
    rw [hnil]
    exact readBack_nil (List.forall_mem_nil _)
  | some parsed =>
    have harranged : Arranged line.number (line.tokens pieces) := by
      refine ⟨fun token => PlacedLine.line_of_mem_tokens, hwide, hordered, ?_⟩
      intro token htoken
      obtain ⟨piece, hpiece, rfl⟩ := List.mem_map.1 htoken
      exact (hcut.spelled piece hpiece).token _ _
    exact (readsAs_of_lineTree hfound harranged fun first rest htokens =>
      Accumulator.digitsIfValue_of_lineCut hcut htokens).readBack

theorem isKept_stop (line : PlacedLine) (last : Bool) : (line.stop last).isKept = false := by
  cases last <;> rfl

/-- The statements of consecutive lines are read as the tokens of the lines. -/
theorem SourceTree.readBack {lines : List PlacedLine} {tokens : List Token}
    {statements : List Statement} (h : SourceTree lines tokens statements)
    (hsorted : lines.Pairwise fun a b => a.number < b.number)
    (hwide : ∀ token ∈ tokens, token.kind.endsLine = false → token.span.start < token.span.stop)
    (hordered : tokens.Pairwise fun a b => a.span.stop ≤ b.span.start) :
    ReadBack statements tokens := by
  induction h with
  | @last line pieces found hcut hfound =>
    obtain ⟨hfirst, -, hstop⟩ := List.pairwise_append.1 hordered
    have hline := readBack_of_lineHolds hcut hfound
      (fun token htoken => hwide token (List.mem_append_left _ htoken)
        (PlacedLine.endsLine_of_mem_tokens hcut htoken)) hfirst
    have hend : ReadBack [] [line.stop true] :=
      readBack_nil (List.forall_mem_singleton.2 (isKept_stop line true))
    rw [← List.append_nil found.toList]
    exact hline.append hend (by simp) hstop
  | @more line lines pieces found tokens statements hcut hfound hmore ih =>
    obtain ⟨hnumber, hnumbers⟩ := List.pairwise_cons.1 hsorted
    obtain ⟨hfirst, hrest, hstop⟩ := List.pairwise_append.1 hordered
    obtain ⟨hfeed, hothers⟩ := List.pairwise_cons.1 hrest
    have hline := readBack_of_lineHolds hcut hfound
      (fun token htoken => hwide token (List.mem_append_left _ htoken)
        (PlacedLine.endsLine_of_mem_tokens hcut htoken)) hfirst
    have hend : ReadBack [] [line.stop false] :=
      readBack_nil (List.forall_mem_singleton.2 (isKept_stop line false))
    have hafter := ih hnumbers (fun token htoken => hwide token (by simp [htoken])) hothers
    have hnext := hend.append hafter (by simp) (by simpa using hfeed)
    refine hline.append hnext ?_ hstop
    intro a ha b hb
    obtain ⟨other, hother, hb⟩ := hmore.line_of_mem_statements hb
    have hlt := hnumber other hother
    rw [line_of_lineHolds hfound ha, hb]
    omega

/-- The statements of a source are read as its tokens. -/
theorem readBack_of_parse {source : String} {tokens : List Token} {statements : List Statement}
    (hscan : Token.scan source = .ok tokens) (hparse : Statement.parse tokens = .ok statements) :
    ReadBack statements tokens := by
  have hlayout := layout_of_scan hscan
  apply (sourceTree_iff.1 ⟨hscan, hparse⟩).readBack (pairwise_placeLines 1 0 _) _ hlayout.ordered
  intro token htoken hinner
  apply hlayout.wide htoken
  intro hkind
  rw [hkind] at hinner
  cases hinner

/-- A chain and a text without a value, which is not among what is read. -/
theorem readBack_of_parse_default :
    let tokens : List Token :=
      [⟨.keyword .number, "Zahl", ⟨1, 0, 4⟩⟩, ⟨.identifier, "x", ⟨1, 5, 6⟩⟩,
       ⟨.equal, "=", ⟨1, 7, 8⟩⟩, ⟨.value, "07", ⟨1, 9, 11⟩⟩, ⟨.operator .add, "+", ⟨1, 12, 13⟩⟩,
       ⟨.identifier, "n", ⟨1, 15, 16⟩⟩, ⟨.newline, "\n", ⟨1, 17, 18⟩⟩,
       ⟨.keyword .text, "Text", ⟨2, 18, 22⟩⟩, ⟨.identifier, "t", ⟨2, 23, 24⟩⟩,
       ⟨.endOfInput, "", ⟨2, 24, 24⟩⟩]
    let statements : List Statement :=
      [.number ⟨1, 0, 16⟩ (.named ⟨1, 5, 6⟩ "x")
        (.binary ⟨1, 9, 16⟩ "+" (.literal ⟨1, 9, 11⟩ 7) (.reference ⟨1, 15, 16⟩ "n")),
       .text ⟨2, 18, 24⟩ (.named ⟨2, 23, 24⟩ "t") (.literal ⟨2, 18, 22⟩ "")]
    Token.scan "Zahl x = 07 + $n$\nText t" = .ok tokens ∧
      Statement.parse tokens = .ok statements ∧
      statements.flatMap Statement.items =
        [.keyword ⟨1, 0, 4⟩ .number, .name ⟨1, 5, 6⟩ "x", .number ⟨1, 9, 11⟩ 7, .operator "+",
         .name ⟨1, 15, 16⟩ "n", .keyword ⟨2, 18, 22⟩ .text, .name ⟨2, 23, 24⟩ "t"] ∧
      ReadBack statements tokens := by
  intro tokens statements
  have hscan : Token.scan "Zahl x = 07 + $n$\nText t" = .ok tokens := by cbv
  have hparse : Statement.parse tokens = .ok statements := by cbv
  exact ⟨hscan, hparse, by cbv, readBack_of_parse hscan hparse⟩

end LineScript
