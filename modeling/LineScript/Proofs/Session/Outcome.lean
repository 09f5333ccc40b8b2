import LineScript.Proofs.Session.Accumulator
import LineScript.Proofs.Session.Streams
import LineScript.Proofs.Session.TextJoin
import LineScript.Proofs.Session.Written

/-!
# How a source can end

A source is scanned, parsed and run, and each stage has failures of its own. Two failures belong to
none of them. A text with more than 4300 digits is not converted to a number, and this can happen
while the operands of a chain are parsed or while a variable is read as a number; and a part of an
expression for whose evaluation there is no room is not evaluated. The relations `TokensOverlong`
and `RunStuck` say when this is the first thing that goes wrong. Main statement:
`interpret_outcome`, as long as its streams fail like streams do, a source ends exactly as the rules
of `Outcome` say, never with a failure that is reserved for trees and tokens made by hand
(`Failure.Internal`), and its numbers keep to 64 bits.
-/

set_option autoImplicit false

namespace LineScript

open Parse Scan Text

/-! ## Parsing up to a run of too many digits -/

/-- A chain whose operands are all fine up to one of more than 4300 digits. -/
inductive ChainOverlong : List Token → Nat → Prop
  | here {operand : Token} (rest : List Token) (hkind : operand.kind = .value)
      (hdigits : ∀ c ∈ operand.lexeme.toList, c.isDigit = true)
      (hmany : 4300 < operand.lexeme.toList.length) :
      ChainOverlong (operand :: rest) operand.lexeme.toList.length
  | later {operand sign : Token} {leaf : NumberExpr} {op : Operator} {rest : List Token}
      {count : Nat} (hleaf : NumberLeaf operand leaf) (hsign : sign.kind = .operator op)
      (hrest : ChainOverlong rest count) : ChainOverlong (operand :: sign :: rest) count

/-- A number assignment that is fine up to an operand of more than 4300 digits. -/
inductive LineOverlong : List Token → Nat → Prop
  | number {first name equal : Token} {chain : List Token} {count : Nat}
      (hfirst : first.kind = .keyword .number) (hname : name.kind = .identifier)
      (hequal : equal.kind = .equal) (hchain : ChainOverlong chain count) :
      LineOverlong (first :: name :: equal :: chain) count

/-- Lines of tokens that are fine up to an operand of more than 4300 digits. -/
inductive TokensOverlong : List Token → Nat → Prop
  | here {line rest : List Token} {stop : Token} {count : Nat}
      (hinner : ∀ token ∈ line, token.kind.endsLine = false) (hstop : stop.kind.endsLine = true)
      (hline : LineOverlong line count) : TokensOverlong (line ++ stop :: rest) count
  | later {line rest : List Token} {stop : Token} {found : Option Statement} {count : Nat}
      (hinner : ∀ token ∈ line, token.kind.endsLine = false) (hstop : stop.kind = .newline)
      (hline : LineHolds line found) (hrest : TokensOverlong rest count) :
      TokensOverlong (line ++ stop :: rest) count

section Overlong

theorem numberLeaf_of_digits {operand : Token} (hkind : operand.kind = .value)
    (hdigits : ∀ c ∈ operand.lexeme.toList, c.isDigit = true)
    (hmany : 4300 < operand.lexeme.toList.length) :
    numberLeaf operand = .error (.tooManyDigits operand.lexeme.toList.length) := by
  have hread : Integer.read operand.lexeme = .tooManyDigits operand.lexeme.toList.length :=
    Integer.read_eq_tooManyDigits_iff.2
      ⟨[], operand.lexeme.toList, rfl, Or.inl rfl, hdigits, rfl, hmany⟩
  simp only [numberLeaf, hkind, hread]

theorem foldChain_link (stop : LineEnd) (left : NumberExpr) {sign : Token} {op : Operator}
    (hsign : sign.kind = .operator op) (operand : Token) (rest : List Token) :
    foldChain stop left (sign :: operand :: rest) =
      (do
        let right ← numberLeaf operand
        foldChain stop (.binary (left.span.upTo right.span) op.symbol left right) rest) := by
  rw [foldChain, hsign]

theorem foldChain_of_chainOverlong {tokens : List Token} {count : Nat}
    (h : ChainOverlong tokens count) {sign : Token} {op : Operator}
    (hsign : sign.kind = .operator op) (stop : LineEnd) (left : NumberExpr) :
    foldChain stop left (sign :: tokens) = .error (.tooManyDigits count) := by
  -- The operator before the chain and the part on its left change from link to link.
  induction h generalizing sign op left with
  | here rest hkind hdigits hmany =>
    rw [foldChain_link stop left hsign, numberLeaf_of_digits hkind hdigits hmany]
    rfl
  | later hleaf hnext _ ih =>
    rw [foldChain_link stop left hsign, numberLeaf_eq_ok_iff.2 hleaf]
    exact ih hnext _

theorem numberValue_of_chainOverlong {tokens : List Token} {count : Nat}
    (h : ChainOverlong tokens count) (stop : LineEnd) :
    Line.numberValue ⟨tokens, stop⟩ = .error (.tooManyDigits count) := by
  cases h with
  | here rest hkind hdigits hmany =>
    simp only [Line.numberValue, numberLeaf_of_digits hkind hdigits hmany]
    rfl
  | later hleaf hsign hrest =>
    simp only [Line.numberValue, numberLeaf_eq_ok_iff.2 hleaf, bind, Except.bind,
      foldChain_of_chainOverlong hrest hsign stop]

theorem parse_of_lineOverlong {tokens : List Token} {count : Nat} (h : LineOverlong tokens count)
    (stop : LineEnd) : Line.parse ⟨tokens, stop⟩ = .error (.tooManyDigits count) := by
  cases h with
  | @number first name equal chain _ hfirst hname hequal hchain =>
    obtain ⟨kind, lexeme, span⟩ := name
    obtain ⟨sign, text, place⟩ := equal
    obtain rfl : kind = .identifier := hname
    obtain rfl : sign = .equal := hequal
    simp only [Line.parse, statement, hfirst, Line.assignment, Line.identifier, bind, Except.bind,
      numberValue_of_chainOverlong hchain stop]

/-- Tokens that are fine up to an operand of too many digits fail there. -/
theorem parseLines_of_tokensOverlong {tokens : List Token} {count : Nat}
    (h : TokensOverlong tokens count) (span : Span) :
    parseLines (cutLines span tokens) = .error (.tooManyDigits count) := by
  induction h with
  | here hinner hstop hline =>
    rw [cutLines_append span hinner hstop, parseLines, parse_of_lineOverlong hline]
    rfl
  | @later line rest stop found count hinner hstop hline _ ih =>
    have hends : stop.kind.endsLine = true := by
      rw [hstop]
      rfl
    rw [cutLines_append span hinner hends, if_pos hstop, parseLines, parse_eq_ok_iff.2 hline, ih]
    rfl

end Overlong

/-! ## All failures of the parser -/

/-- A failure of the parser at a token, or one about a count of digits with the given property. -/
inductive ParseFailure.Within (overlong : Nat → Prop) : ParseFailure → Prop
  | fault {fault : Located ParseFault} (hends : fault.item ≠ .inputEnds) :
      Within overlong (.fault fault)
  | digits {count : Nat} (hcount : overlong count) : Within overlong (.tooManyDigits count)

theorem ParseFailure.Within.mono {overlong more : Nat → Prop} {failure : ParseFailure}
    (h : failure.Within overlong) (hmore : ∀ count, overlong count → more count) :
    failure.Within more := by
  cases h with
  | fault hends => exact .fault hends
  | digits hcount => exact .digits (hmore _ hcount)

section Within

variable {line : Line} {stop : Token} (hstop : line.stop = .found stop) {failure : ParseFailure}

include hstop

theorem within_reject {cause : Token → ParseFault} (hcause : ∀ token, cause token ≠ .inputEnds)
    (overlong : Nat → Prop) : (line.reject cause).Within overlong := by
  obtain ⟨tokens, ending⟩ := line
  obtain rfl : ending = .found stop := hstop
  cases tokens with
  | nil => exact .fault (hcause stop)
  | cons token rest => exact .fault (hcause token)

theorem within_identifier {keyword : Keyword} (h : line.identifier keyword = .error failure)
    (overlong : Nat → Prop) : failure.Within overlong := by
  simp only [Line.identifier] at h
  split at h
  · cases h
  · cases h
    exact within_reject hstop (by simp) overlong

theorem within_finish (h : line.finish = .error failure) (overlong : Nat → Prop) :
    failure.Within overlong := by
  simp only [Line.finish] at h
  split at h
  · cases h
  · cases h
    exact within_reject hstop (by simp) overlong

theorem within_textValue (h : line.textValue = .error failure) (overlong : Nat → Prop) :
    failure.Within overlong := by
  simp only [Line.textValue] at h
  split at h
  · cases h
    exact within_reject hstop (by simp) overlong
  · cases h

/-- An assignment fails before its value or with its value. -/
theorem within_assignment {α : Type} {keyword : Keyword} {default : α}
    {value : Line → Except ParseFailure (α × Line)} {overlong : Nat → Prop}
    (hvalue : ∀ name equal more, line.tokens = name :: equal :: more → name.kind = .identifier →
      equal.kind = .equal → ∀ failure, value ⟨more, line.stop⟩ = .error failure →
      failure.Within overlong)
    (h : line.assignment keyword default value = .error failure) : failure.Within overlong := by
  rcases bind_eq_error_iff.1 h with h | ⟨⟨found, inner⟩, hname, h⟩
  · exact within_identifier hstop h overlong
  · obtain ⟨name, rest, htokens, hkind, -, rfl⟩ := identifier_eq_ok_iff.1 hname
    simp only at h
    split at h
    · cases h
    · next text span more =>
      rcases bind_eq_error_iff.1 h with h | ⟨given, -, h⟩
      · exact hvalue name ⟨.equal, text, span⟩ more htokens hkind rfl failure h
      · cases h
    · cases h
      apply within_reject
      · exact hstop
      · simp

end Within

/-- The leaf of a number is read, or is at fault itself, or has too many digits. -/
theorem within_numberLeaf {token : Token} (hdigits : Accumulator.DigitsIfValue token)
    {failure : ParseFailure} (h : numberLeaf token = .error failure) (rest : List Token) :
    failure.Within (ChainOverlong (token :: rest)) := by
  simp only [numberLeaf] at h
  split at h
  · next hkind =>
    split at h
    · cases h
    · cases h
      exact .fault (by simp)
    · next count hread =>
      cases h
      obtain ⟨-, hall⟩ := hdigits hkind
      obtain ⟨negative, digits, hsplit, -, hmany, rfl⟩ :=
        Integer.read_eq_tooManyDigits_iff_splitSign.1 hread
      rw [splitSign_digits hall] at hsplit
      cases hsplit
      exact .digits (.here rest hkind hall hmany)
  · cases h
  · cases h
    exact .fault (by simp)

theorem within_foldChain {stop : Token} {left : NumberExpr} {tokens : List Token}
    (hdigits : ∀ token ∈ tokens, Accumulator.DigitsIfValue token) {failure : ParseFailure}
    (h : foldChain (.found stop) left tokens = .error failure) {operand : Token}
    {leaf : NumberExpr} (hleaf : NumberLeaf operand leaf) :
    failure.Within (ChainOverlong (operand :: tokens)) := by
  fun_induction foldChain (.found stop) left tokens generalizing operand leaf with
  | case1 left => cases h
  | case2 left sign op hsign =>
    cases h
    exact within_reject rfl (by simp) _
  | case3 left sign op hsign next rest ih =>
    have hnext : Accumulator.DigitsIfValue next := hdigits next (by simp)
    have hlater : ∀ count, ChainOverlong (next :: rest) count →
        ChainOverlong (operand :: sign :: next :: rest) count := by
      intro count hcount
      exact .later hleaf hsign hcount
    rcases bind_eq_error_iff.1 h with h | ⟨right, hright, h⟩
    · exact (within_numberLeaf hnext h rest).mono hlater
    · have hrest : ∀ token ∈ rest, Accumulator.DigitsIfValue token := by
        intro token htoken
        exact hdigits token (by simp [htoken])
      exact (ih right hrest h (numberLeaf_eq_ok_iff.1 hright)).mono hlater
  | case4 left token rest hkind => cases h

theorem within_numberValue {line : Line} {stop : Token} (hstop : line.stop = .found stop)
    (hdigits : ∀ token ∈ line.tokens, Accumulator.DigitsIfValue token) {failure : ParseFailure}
    (h : line.numberValue = .error failure) : failure.Within (ChainOverlong line.tokens) := by
  simp only [Line.numberValue] at h
  split at h
  · cases h
    exact within_reject hstop (by simp) _
  · next token rest htokens =>
    rw [htokens] at hdigits ⊢
    obtain ⟨htoken, hrest⟩ := List.forall_mem_cons.1 hdigits
    rcases bind_eq_error_iff.1 h with h | ⟨leaf, hleaf, h⟩
    · exact within_numberLeaf htoken h rest
    · rw [hstop] at h
      rcases bind_eq_error_iff.1 h with h | ⟨folded, -, h⟩
      · exact within_foldChain hrest h (numberLeaf_eq_ok_iff.1 hleaf)
      · cases h

/-- A statement fails at a token, or is a number with an operand of too many digits. -/
theorem within_statement {first : Token} {line : Line} {stop : Token}
    (hstop : line.stop = .found stop)
    (hdigits : first.kind = .keyword .number →
      ∀ token ∈ line.tokens, Accumulator.DigitsIfValue token)
    {failure : ParseFailure} (h : statement first line = .error failure) :
    failure.Within (LineOverlong (first :: line.tokens)) := by
  simp only [statement] at h
  split at h
  · rcases bind_eq_error_iff.1 h with h | ⟨⟨found, value, after⟩, hassign, h⟩
    · refine within_assignment hstop ?_ h
      intro name equal more _ _ _ failure hfails
      have hmoreStop : Line.stop ⟨more, line.stop⟩ = .found stop := hstop
      exact within_textValue hmoreStop hfails _
    · have hafter := (rest_of_assignment rest_of_textValue hassign).stop_eq.trans hstop
      rcases bind_eq_error_iff.1 h with h | ⟨u, -, h⟩
      · exact within_finish hafter h _
      · cases h
  · next hfirst =>
    rcases bind_eq_error_iff.1 h with h | ⟨⟨found, value, after⟩, hassign, h⟩
    · refine within_assignment hstop ?_ h
      intro name equal more htokens hname hequal failure hfails
      have hmore : ∀ token ∈ more, Accumulator.DigitsIfValue token := by
        intro token htoken
        exact hdigits hfirst token (by simp [htokens, htoken])
      have hmoreStop : Line.stop ⟨more, line.stop⟩ = .found stop := hstop
      refine (within_numberValue hmoreStop hmore hfails).mono ?_
      intro count hcount
      rw [htokens]
      exact .number hfirst hname hequal hcount
    · have hafter := (rest_of_assignment rest_of_numberValue hassign).stop_eq.trans hstop
      rcases bind_eq_error_iff.1 h with h | ⟨u, -, h⟩
      · exact within_finish hafter h _
      · cases h
  · rcases bind_eq_error_iff.1 h with h | ⟨⟨found, after⟩, hname, h⟩
    · exact within_identifier hstop h _
    · have hafter := (rest_of_identifier hname).stop_eq.trans hstop
      rcases bind_eq_error_iff.1 h with h | ⟨u, -, h⟩
      · exact within_finish hafter h _
      · cases h
  · rcases bind_eq_error_iff.1 h with h | ⟨⟨found, after⟩, hname, h⟩
    · exact within_identifier hstop h _
    · have hafter := (rest_of_identifier hname).stop_eq.trans hstop
      rcases bind_eq_error_iff.1 h with h | ⟨u, -, h⟩
      · exact within_finish hafter h _
      · cases h
  · cases h
    exact .fault (by simp)

theorem within_parse {line : PlacedLine} {pieces : List Piece} (hcut : LineCut line.text pieces)
    {stop : Token} {failure : ParseFailure}
    (h : Line.parse ⟨line.tokens pieces, .found stop⟩ = .error failure) :
    failure.Within (LineOverlong (line.tokens pieces)) := by
  generalize htokens : line.tokens pieces = tokens at h
  cases tokens with
  | nil => cases h
  | cons first rest =>
    rcases bind_eq_error_iff.1 h with h | ⟨parsed, -, h⟩
    · refine within_statement rfl ?_ h
      intro hfirst
      exact Accumulator.digitsIfValue_of_lineCut hcut htokens hfirst
    · cases h

/-- Tokens of a source that are no program fail at a token, or at an operand of too many digits. -/
theorem within_parseLines {lines : List PlacedLine} {tokens : List Token}
    (hcut : SourceCut lines tokens) {span : Span} {failure : ParseFailure}
    (h : parseLines (cutLines span tokens) = .error failure) :
    failure.Within (TokensOverlong tokens) := by
  induction hcut with
  | @last line pieces hcut =>
    have hinner : ∀ token ∈ line.tokens pieces, token.kind.endsLine = false :=
      fun _ htoken => PlacedLine.endsLine_of_mem_tokens hcut htoken
    rw [cutLines_last span hcut] at h
    rcases bind_eq_error_iff.1 h with h | ⟨found, -, h⟩
    · refine (within_parse hcut h).mono ?_
      intro count hcount
      exact .here hinner (line.endsLine_stop true) hcount
    · cases h
  | @more line lines pieces tokens hcut _ ih =>
    have hinner : ∀ token ∈ line.tokens pieces, token.kind.endsLine = false :=
      fun _ htoken => PlacedLine.endsLine_of_mem_tokens hcut htoken
    rw [cutLines_more span hcut] at h
    rcases bind_eq_error_iff.1 h with h | ⟨found, hfound, h⟩
    · refine (within_parse hcut h).mono ?_
      intro count hcount
      exact .here hinner (line.endsLine_stop false) hcount
    · rcases bind_eq_error_iff.1 h with h | ⟨more, -, h⟩
      · refine (ih h).mono ?_
        intro count hcount
        exact .later hinner rfl (parse_eq_ok_iff.1 hfound) hcount
      · cases h

/-! ## Failures of a run -/

/-- Failures that are reserved for trees and tokens made by hand: an operation that is no operator,
a part that is not there, a tree in a place where its kind has no meaning, and tokens that stop
without an end. What is foreign to programs is among them: a key that is not there, an index out of
range, or a division that was not looked at before. -/
inductive Failure.Internal : Failure → Prop
  | unknownOperator (symbol : String) : Internal (.mishap (.unknownOperator symbol))
  | foreign (label text : String) : Internal (.mishap (.foreign label text))
  | missingPart (kind : NodeKind) (part : String) : Internal (.mishap (.missingPart kind part))
  | notNumeric (kind : NodeKind) (span : Span) : Internal (.blame (.notNumeric kind) span)
  | notTextual (kind : NodeKind) (span : Span) : Internal (.blame (.notTextual kind) span)
  | notExecutable (kind : NodeKind) (span : Span) : Internal (.blame (.notExecutable kind) span)
  | tokensEnd (span : Span) : Internal (.syntactic ⟨.inputEnds, span⟩)

/-- A failure of a stream that is told as an error of the statement. -/
def Failure.IsStreamTrouble (failure : Failure) : Prop :=
  ∃ mishap : Mishap, failure = .mishap mishap ∧ mishap.isStreamTrouble = true

/-- A number whose first part without a value is a variable with more than 4300 digits, or a part
for which there is no room. -/
inductive NumberExpr.Stuck (space : Namespace) : Nat → NumberExpr → Mishap → Prop
  | overlong (room : Nat) (span : Span) {name text : String} {count : Nat}
      (hget : space.get? name = some (.text text)) (htext : Integer.Overlong text count) :
      Stuck space (room + 1) (.reference span name) (.tooManyDigits count)
  | deep (expr : NumberExpr) : Stuck space 0 expr .tooDeep
  | left {room : Nat} (span : Span) (symbol : String) {left : NumberExpr} (right : NumberExpr)
      {mishap : Mishap} (hleft : left.Stuck space room mishap) :
      Stuck space (room + 1) (.binary span symbol left right) mishap
  | right {room : Nat} (span : Span) (symbol : String) {left right : NumberExpr} {n : Int}
      {mishap : Mishap} (hleft : left.eval space room = .ok n)
      (hright : right.Stuck space room mishap) :
      Stuck space (room + 1) (.binary span symbol left right) mishap

/-- A text whose first part without a value is one for which there is no room. -/
inductive TextExpr.Stuck (space : Namespace) : Nat → TextExpr → Prop
  | deep (expr : TextExpr) : Stuck space 0 expr
  | left {room : Nat} (span : Span) {left : TextExpr} (right : TextExpr)
      (hleft : left.Stuck space room) : Stuck space (room + 1) (.concat span left right)
  | right {room : Nat} (span : Span) {left right : TextExpr} {text : String}
      (hleft : left.eval space room = .ok text) (hright : right.Stuck space room) :
      Stuck space (room + 1) (.concat span left right)

/-- An assignment of such an expression. -/
inductive Statement.Stuck (session : Session) : Statement → Mishap → Prop
  | number (span : Span) (target : Target) {value : NumberExpr} {mishap : Mishap}
      (hvalue : value.Stuck session.space session.room mishap) :
      Stuck session (.number span target value) mishap
  | text (span : Span) (target : Target) {value : TextExpr}
      (hvalue : value.Stuck session.space session.room) :
      Stuck session (.text span target value) .tooDeep

/-- A run that goes well up to such an assignment. -/
inductive RunStuck : Session → List Statement → Mishap → Prop
  | here {session : Session} {statement : Statement} (rest : List Statement) {mishap : Mishap}
      (hstatement : statement.Stuck session mishap) : RunStuck session (statement :: rest) mishap
  | later {session after : Session} {statement : Statement} {rest : List Statement}
      {mishap : Mishap} (hexecute : session.execute statement = (after, none))
      (hrest : RunStuck after rest mishap) : RunStuck session (statement :: rest) mishap

theorem NumberExpr.Stuck.eval_eq {space : Namespace} {room : Nat} {expr : NumberExpr}
    {mishap : Mishap} (h : expr.Stuck space room mishap) :
    expr.eval space room = .error (.mishap mishap) := by
  induction h with
  | overlong room span hget htext =>
    simp only [NumberExpr.eval, Namespace.number, Namespace.lookup, hget, bind, Except.bind,
      Value.toInteger, Integer.read_eq_tooManyDigits_iff.2 htext]
  | deep expr => rfl
  | left span symbol right _ ih =>
    simp only [NumberExpr.eval, ih]
    rfl
  | right span symbol hleft _ ih =>
    simp only [NumberExpr.eval, hleft, ih]
    rfl

theorem TextExpr.Stuck.eval_eq {space : Namespace} {room : Nat} {expr : TextExpr}
    (h : expr.Stuck space room) : expr.eval space room = .error (.mishap .tooDeep) := by
  induction h with
  | deep expr => rfl
  | left span right _ ih =>
    simp only [TextExpr.eval, ih]
    rfl
  | right span hleft _ ih =>
    simp only [TextExpr.eval, hleft, ih]
    rfl

/-- A run that is stuck fails where it is. -/
theorem RunStuck.run_eq {session : Session} {statements : List Statement} {mishap : Mishap}
    (h : RunStuck session statements mishap) :
    (session.run statements).2 = some (.mishap mishap) := by
  induction h with
  | here rest hstatement =>
    cases hstatement with
    | number span target hvalue =>
      simp only [Session.run, Session.execute, hvalue.eval_eq]
      rfl
    | text span target hvalue =>
      simp only [Session.run, Session.execute, hvalue.eval_eq]
      rfl
  | later hexecute _ ih =>
    simp only [Session.run, hexecute]
    exact ih

theorem NumberExpr.Stuck.mishap_eq {space : Namespace} {room : Nat} {expr : NumberExpr}
    {mishap : Mishap} (h : expr.Stuck space room mishap) :
    mishap = .tooDeep ∨ ∃ count, mishap = .tooManyDigits count := by
  induction h with
  | overlong room span hget htext => exact Or.inr ⟨_, rfl⟩
  | deep expr => exact Or.inl rfl
  | left span symbol right _ ih => exact ih
  | right span symbol hleft _ ih => exact ih

theorem RunStuck.mishap_eq {session : Session} {statements : List Statement} {mishap : Mishap}
    (h : RunStuck session statements mishap) :
    mishap = .tooDeep ∨ ∃ count, mishap = .tooManyDigits count := by
  induction h with
  | here rest hstatement =>
    cases hstatement with
    | number span target hvalue => exact hvalue.mishap_eq
    | text span target hvalue => exact Or.inl rfl
  | later hexecute _ ih => exact ih

/-- The failures of a run: an error of a statement that is not internal; a mishap that the run can
be stuck at; or a failure that a stream brings and that is passed on as it is. -/
inductive Failure.Within (brings : Failure → Prop) (stuck : Mishap → Prop) : Failure → Prop
  | execution {fault : Located ExecutionFault} (hinternal : ¬(Failure.execution fault).Internal) :
      Within brings stuck (.execution fault)
  | stuck {mishap : Mishap} (hstuck : stuck mishap) : Within brings stuck (.mishap mishap)
  | stream {failure : Failure} (hbrings : brings failure) (htrouble : ¬failure.IsStreamTrouble) :
      Within brings stuck failure

theorem Failure.Within.mono {brings brought : Failure → Prop} {stuck more : Mishap → Prop}
    {failure : Failure} (h : failure.Within brings stuck)
    (hbrought : ∀ failure, brings failure → brought failure)
    (hmore : ∀ mishap, stuck mishap → more mishap) : failure.Within brought more := by
  cases h with
  | execution hinternal => exact .execution hinternal
  | stuck hstuck => exact .stuck (hmore _ hstuck)
  | stream hbrings htrouble => exact .stream (hbrought _ hbrings) htrouble

theorem Failure.Within.of_stuck {brings : Failure → Prop} {stuck more : Mishap → Prop}
    {failure : Failure} (h : failure.Within brings stuck)
    (hmore : ∀ mishap, stuck mishap → more mishap) : failure.Within brings more :=
  h.mono (fun _ hbrings => hbrings) hmore

section Evaluation

variable {space : Namespace} {room : Nat} {failure : Failure} (brings : Failure → Prop)

theorem within_lookup {name : String} {span : Span}
    (h : space.lookup name span = .error failure) (stuck : Mishap → Prop) :
    failure.Within brings stuck := by
  simp only [Namespace.lookup] at h
  split at h
  · cases h
  · cases h
    refine .execution ?_
    intro hinternal
    cases hinternal

/-- A proper number has a value, or fails at a variable or at a divisor, or is stuck. -/
theorem NumberExpr.Proper.within_eval {expr : NumberExpr} (h : expr.Proper)
    (heval : expr.eval space room = .error failure) :
    failure.Within brings (expr.Stuck space room) := by
  induction h generalizing room failure with
  | @literal span n hrange =>
    cases room with
    | zero =>
      cases heval
      exact .stuck (.deep _)
    | succ room => cases heval
  | reference span name =>
    cases room with
    | zero =>
      cases heval
      exact .stuck (.deep _)
    | succ room =>
      rcases bind_eq_error_iff.1 heval with hlookup | ⟨value, hlookup, hnumber⟩
      · exact within_lookup brings hlookup _
      · simp only [Namespace.lookup] at hlookup
        split at hlookup
        · next found hget =>
          cases hlookup
          split at hnumber
          · cases hnumber
          · cases hnumber
            refine .execution ?_
            intro hinternal
            cases hinternal
          · next count hread =>
            cases hnumber
            cases value with
            | number n => cases hread
            | text text =>
              exact .stuck (.overlong room span hget (Integer.read_eq_tooManyDigits_iff.1 hread))
        · cases hlookup
  | binary span op _ _ ihleft ihright =>
    cases room with
    | zero =>
      cases heval
      exact .stuck (.deep _)
    | succ room =>
      rcases bind_eq_error_iff.1 heval with hleft | ⟨left, hleft, heval⟩
      · apply (ihleft hleft).of_stuck
        intro mishap hstuck
        exact .left span op.symbol _ hstuck
      · rcases bind_eq_error_iff.1 heval with hright | ⟨right, hright, happly⟩
        · apply (ihright hright).of_stuck
          intro mishap hstuck
          exact .right span op.symbol hleft hstuck
        · rw [Accumulator.applySymbol_symbol] at happly
          split at happly
          · cases happly
            refine .execution ?_
            intro hinternal
            cases hinternal
          · cases happly

/-- A proper text has a value, or fails at a variable, or is stuck. -/
theorem TextExpr.Proper.within_eval {expr : TextExpr} (h : expr.Proper)
    (heval : expr.eval space room = .error failure) :
    failure.Within brings fun mishap => mishap = .tooDeep ∧ expr.Stuck space room := by
  induction h generalizing room failure with
  | literal span text =>
    cases room with
    | zero =>
      cases heval
      exact .stuck ⟨rfl, .deep _⟩
    | succ room => cases heval
  | reference span name =>
    cases room with
    | zero =>
      cases heval
      exact .stuck ⟨rfl, .deep _⟩
    | succ room =>
      rcases bind_eq_error_iff.1 heval with hlookup | ⟨value, -, h⟩
      · exact within_lookup brings hlookup _
      · cases h
  | concat span _ _ ihleft ihright =>
    cases room with
    | zero =>
      cases heval
      exact .stuck ⟨rfl, .deep _⟩
    | succ room =>
      rcases bind_eq_error_iff.1 heval with hleft | ⟨left, hleft, heval⟩
      · apply (ihleft hleft).of_stuck
        rintro mishap ⟨rfl, hstuck⟩
        exact ⟨rfl, .left span _ hstuck⟩
      · rcases bind_eq_error_iff.1 heval with hright | ⟨right, hright, heval⟩
        · apply (ihright hright).of_stuck
          rintro mishap ⟨rfl, hstuck⟩
          exact ⟨rfl, .right span hleft hstuck⟩
        · split at heval <;> cases heval

end Evaluation

theorem Session.tell_of_not_isStreamTrouble {failure : Failure} (h : ¬failure.IsStreamTrouble)
    (target : Target) (cause : String → String → ExecutionFault) :
    Session.tell target cause failure = failure := by
  cases failure with
  | mishap mishap =>
    simp only [Session.tell]
    rw [if_neg]
    intro htrouble
    exact h ⟨mishap, rfl, htrouble⟩
  | _ => rfl

/-- The trouble of a stream is told as an error of the statement, and else the failure is passed
on. -/
theorem within_tell {brings : Failure → Prop} {failure : Failure} (h : brings failure)
    (span : Span) (name : String) {cause : String → String → ExecutionFault}
    (hcause : ∀ name reason span, ¬(Failure.blame (cause name reason) span).Internal)
    (stuck : Mishap → Prop) :
    (Session.tell (.named span name) cause failure).Within brings stuck := by
  by_cases htrouble : failure.IsStreamTrouble
  · obtain ⟨mishap, rfl, htold⟩ := htrouble
    simp only [Session.tell, if_pos htold]
    exact .execution (hcause name mishap.text span)
  · rw [Session.tell_of_not_isStreamTrouble htrouble]
    exact .stream h htrouble

section Execution

variable {session : Session} {failure : Failure}

theorem within_readInto {span : Span} {name : String}
    (h : (session.readInto (.named span name)).2 = some failure) (stuck : Mishap → Prop) :
    failure.Within session.Brings stuck := by
  simp only [Session.readInto] at h
  generalize hread : session.input.read = brought at h
  obtain ⟨line, input⟩ := brought
  cases line with
  | error other =>
    cases h
    have hbrings : session.Brings other := by
      apply Session.Brings.input
      apply Input.brings_of_read
      rw [hread]
    apply within_tell hbrings
    intro name reason span hinternal
    cases hinternal
  | ok line =>
    simp only [Session.received] at h
    split at h
    · cases h
      refine .execution ?_
      intro hinternal
      cases hinternal
    · cases h

theorem within_writeLine {span : Span} {name text : String}
    (h : (session.writeLine (.named span name) text).2 = some failure) (stuck : Mishap → Prop) :
    failure.Within session.Brings stuck := by
  simp only [Session.writeLine, Option.map_eq_some_iff] at h
  obtain ⟨other, hother, rfl⟩ := h
  have hbrings : session.Brings other := .output (Output.brings_of_write hother)
  apply within_tell hbrings
  intro name reason span hinternal
  cases hinternal

/-- A proper statement fails with an error of its own, or is stuck, or fails with what a stream
brings. -/
theorem within_execute {statement : Statement} (hproper : statement.Proper)
    (h : (session.execute statement).2 = some failure) :
    failure.Within session.Brings (statement.Stuck session) := by
  cases hproper with
  | @text span nameSpan name value hvalue =>
    simp only [Session.execute] at h
    cases heval : value.eval session.space session.room with
    | error other =>
      rw [heval] at h
      cases h
      apply (hvalue.within_eval _ heval).of_stuck
      rintro mishap ⟨rfl, hstuck⟩
      exact .text span _ hstuck
    | ok text =>
      rw [heval] at h
      cases h
  | @number span nameSpan name value hvalue =>
    simp only [Session.execute] at h
    cases heval : value.eval session.space session.room with
    | error other =>
      rw [heval] at h
      cases h
      apply (hvalue.within_eval _ heval).of_stuck
      intro mishap hstuck
      exact .number span _ hstuck
    | ok n =>
      rw [heval] at h
      cases h
  | input span nameSpan name => exact within_readInto h _
  | output span nameSpan name =>
    simp only [Session.execute] at h
    split at h
    · exact within_writeLine h _
    · next other hvalue =>
      cases h
      rcases bind_eq_error_iff.1 hvalue with hname | ⟨found, hfound, hlookup⟩
      · cases hname
      · exact within_lookup _ hlookup _

end Execution

/-- A run of proper statements fails with an error of a statement, or is stuck, or fails with what a
stream brings. -/
theorem within_run {session : Session} {statements : List Statement}
    (hproper : ∀ statement ∈ statements, statement.Proper) {failure : Failure}
    (h : (session.run statements).2 = some failure) :
    failure.Within session.Brings (RunStuck session statements) := by
  induction statements generalizing session with
  | nil => cases h
  | cons statement rest ih =>
    obtain ⟨hfirst, hrest⟩ := List.forall_mem_cons.1 hproper
    simp only [Session.run] at h
    split at h
    · next after hexecute =>
      apply (ih hrest h).mono
      · intro other hbrings
        apply Session.Brings.of_execute
        rw [hexecute]
        exact hbrings
      · intro mishap hstuck
        exact .later hexecute hstuck
    · next after other hexecute =>
      cases h
      apply (within_execute hfirst (by rw [hexecute])).of_stuck
      intro mishap hstuck
      exact .here rest hstuck

/-! ## Runs in parts -/

theorem Session.run_singleton (session : Session) (statement : Statement) :
    session.run [statement] = session.execute statement := by
  simp only [Session.run]
  generalize session.execute statement = ended
  obtain ⟨after, failure⟩ := ended
  cases failure <;> rfl

/-- Statements one after the other are run as two programs, the second if the first ends well. -/
theorem Session.run_append (session : Session) (first second : List Statement) :
    session.run (first ++ second) =
      match session.run first with
      | (after, none) => after.run second
      | (after, some failure) => (after, some failure) := by
  induction first generalizing session with
  | nil => rfl
  | cons statement first ih =>
    simp only [List.cons_append, Session.run]
    generalize session.execute statement = ended
    obtain ⟨after, failure⟩ := ended
    cases failure with
    | none => exact ih after
    | some failure => rfl

/-! ## Outcomes -/

/-- How a source ends: it is done; or it is at fault when it is scanned, parsed or run; or a number
of more than 4300 digits is the first thing that goes wrong, in an operand or in a variable; or an
expression that is nested deeper than there is room for is. -/
inductive Outcome (session : Session) (source : String) : Option Failure → Prop
  | done {statements : List Statement} (hsource : Statement.ofSource source = .ok statements)
      (hrun : (session.run statements).2 = none) : Outcome session source none
  | lexical {fault : Located LexFault} (hscan : Token.scan source = .error fault) :
      Outcome session source (some (.lexical fault))
  | syntactic {tokens : List Token} {fault : Located ParseFault}
      (hscan : Token.scan source = .ok tokens)
      (hparse : Statement.parse tokens = .error (.fault fault)) :
      Outcome session source (some (.syntactic fault))
  | execution {statements : List Statement} {fault : Located ExecutionFault}
      (hsource : Statement.ofSource source = .ok statements)
      (hrun : (session.run statements).2 = some (.execution fault)) :
      Outcome session source (some (.execution fault))
  | overlongOperand {tokens : List Token} {count : Nat} (hscan : Token.scan source = .ok tokens)
      (htokens : TokensOverlong tokens count) :
      Outcome session source (some (.mishap (.tooManyDigits count)))
  | overlongVariable {statements : List Statement} {count : Nat}
      (hsource : Statement.ofSource source = .ok statements)
      (hrun : RunStuck session statements (.tooManyDigits count)) :
      Outcome session source (some (.mishap (.tooManyDigits count)))
  | tooDeep {statements : List Statement} (hsource : Statement.ofSource source = .ok statements)
      (hrun : RunStuck session statements .tooDeep) :
      Outcome session source (some (.mishap .tooDeep))

theorem interpret_of_ok (session : Session) {source : String} {statements : List Statement}
    (h : Statement.ofSource source = .ok statements) :
    session.interpret source = session.run statements := by
  simp only [Session.interpret, h]

theorem interpret_of_error (session : Session) {source : String} {failure : Failure}
    (h : Statement.ofSource source = .error failure) :
    session.interpret source = (session, some failure) := by
  simp only [Session.interpret, h]

/-- A source that ends as the rules say does end so. -/
theorem Outcome.interpret_eq {session : Session} {source : String} {failure : Option Failure}
    (h : Outcome session source failure) : (session.interpret source).2 = failure := by
  cases h with
  | done hsource hrun => rw [interpret_of_ok session hsource, hrun]
  | lexical hscan =>
    rw [interpret_of_error session]
    simp only [Statement.ofSource, hscan]
  | syntactic hscan hparse =>
    rw [interpret_of_error session]
    simp only [Statement.ofSource, hscan, hparse]
    rfl
  | execution hsource hrun => rw [interpret_of_ok session hsource, hrun]
  | @overlongOperand tokens count hscan htokens =>
    have hparse : Statement.parse tokens = .error (.tooManyDigits count) :=
      parseLines_of_tokensOverlong htokens _
    rw [interpret_of_error session]
    simp only [Statement.ofSource, hscan, hparse]
    rfl
  | overlongVariable hsource hrun => rw [interpret_of_ok session hsource, hrun.run_eq]
  | tooDeep hsource hrun => rw [interpret_of_ok session hsource, hrun.run_eq]

/-- A source ends as one of the rules says, and not with an internal failure. -/
theorem outcome_interpret {session : Session}
    (hstreams : ∀ failure, session.Brings failure → failure.IsStreamTrouble) (source : String) :
    Outcome session source (session.interpret source).2 ∧
      ∀ failure, (session.interpret source).2 = some failure → ¬failure.Internal := by
  generalize houtcome : (session.interpret source).2 = outcome
  cases hscan : Token.scan source with
  | error fault =>
    obtain rfl := houtcome.symm.trans (Outcome.lexical hscan).interpret_eq
    refine ⟨.lexical hscan, ?_⟩
    intro failure hfailure hinternal
    cases hfailure
    cases hinternal
  | ok tokens =>
    cases hparse : Statement.parse tokens with
    | error failure =>
      have hwithin : failure.Within (TokensOverlong tokens) :=
        within_parseLines (scan_eq_ok_iff.1 hscan) hparse
      cases hwithin with
      | @fault fault hends =>
        obtain rfl := houtcome.symm.trans (Outcome.syntactic hscan hparse).interpret_eq
        refine ⟨.syntactic hscan hparse, ?_⟩
        intro failure hfailure hinternal
        cases hfailure
        cases hinternal
        exact hends rfl
      | digits htokens =>
        obtain rfl := houtcome.symm.trans (Outcome.overlongOperand hscan htokens).interpret_eq
        refine ⟨.overlongOperand hscan htokens, ?_⟩
        intro failure hfailure hinternal
        cases hfailure
        cases hinternal
    | ok statements =>
      have hsource : Statement.ofSource source = .ok statements := by
        simp only [Statement.ofSource, hscan, hparse]
      rw [interpret_of_ok session hsource] at houtcome
      cases outcome with
      | none =>
        refine ⟨.done hsource houtcome, ?_⟩
        intro failure hfailure
        cases hfailure
      | some failure =>
        have hwithin : failure.Within session.Brings (RunStuck session statements) :=
          within_run (proper_of_ofSource hsource) houtcome
        cases hwithin with
        | execution hinternal =>
          refine ⟨.execution hsource houtcome, ?_⟩
          intro failure hfailure
          cases hfailure
          exact hinternal
        | stuck hrun =>
          rcases hrun.mishap_eq with rfl | ⟨count, rfl⟩
          · refine ⟨.tooDeep hsource hrun, ?_⟩
            intro failure hfailure hinternal
            cases hfailure
            cases hinternal
          · refine ⟨.overlongVariable hsource hrun, ?_⟩
            intro failure hfailure hinternal
            cases hfailure
            cases hinternal
        | stream hbrings htrouble => exact absurd (hstreams failure hbrings) htrouble

/-- In a session whose numbers have 64 bits and whose streams fail only like streams do, a source
ends exactly as the rules say and never with an internal failure, and the numbers it leaves have 64
bits again. -/
theorem interpret_outcome {session : Session} (hrange : session.space.InRange)
    (hstreams : ∀ failure, session.Brings failure → failure.IsStreamTrouble) (source : String) :
    (∀ outcome, (session.interpret source).2 = outcome ↔ Outcome session source outcome) ∧
      (∀ failure, (session.interpret source).2 = some failure → ¬failure.Internal) ∧
      (session.interpret source).1.space.InRange := by
  obtain ⟨houtcome, hinternal⟩ := outcome_interpret hstreams source
  refine ⟨?_, hinternal, ?_⟩
  · intro outcome
    constructor
    · rintro rfl
      exact houtcome
    · intro h
      exact h.interpret_eq
  · -- A session is alike to itself, and a run keeps sessions alike, so in range.
    simp only [Session.interpret]
    split
    · next statements hsource =>
      have halike : session.Alike session := ⟨⟨rfl, hrange, hrange⟩, rfl, rfl, rfl⟩
      exact (halike.run (proper_of_ofSource hsource)).2.space.inRange
    · exact hrange

/-- A variable of 4301 digits ends a source before a broken input is read. -/
theorem interpret_outcome_digits :
    (Session.interpret
      ⟨⟨[("n", .text (String.ofList (List.replicate 4301 '7')))]⟩,
        ⟨[.failure (.mishap (.system "OSError" "gone"))], none⟩, .fresh .unlimited, 990⟩
      "Zahl x = $n$\nInput y").2 = some (.mishap (.tooManyDigits 4301)) := by
  have hsource : Statement.ofSource "Zahl x = $n$\nInput y" = .ok
      [.number ⟨1, 0, 11⟩ (.named ⟨1, 5, 6⟩ "x") (.reference ⟨1, 10, 11⟩ "n"),
       .input ⟨2, 13, 20⟩ (.named ⟨2, 19, 20⟩ "y")] := by cbv
  have hlong : ∀ {count : Nat}, 4300 < count →
      Integer.Overlong (String.ofList (List.replicate count '7')) count := by
    intro count hcount
    refine ⟨[], List.replicate count '7', String.toList_ofList, Or.inl rfl, ?_,
      List.length_replicate, hcount⟩
    intro c hc
    rw [List.eq_of_mem_replicate hc]
    rfl
  have hrange : Namespace.InRange
      ⟨[("n", .text (String.ofList (List.replicate 4301 '7')))]⟩ :=
    List.forall_mem_singleton.2 trivial
  refine ((interpret_outcome hrange ?_ _).1 _).2
    (.overlongVariable hsource (.here _ (.number _ _ (.overlong _ _ rfl (hlong (by decide))))))
  intro failure hbrings
  cases hbrings with
  | input hinput =>
    cases hinput with
    | event hevent =>
      cases List.mem_singleton.1 hevent
      exact ⟨.system "OSError" "gone", rfl, rfl⟩
    | failing hfailing => cases hfailing
  | output houtput =>
    cases houtput with
    | planned hpolicy hplan => cases hpolicy
    | encoded hpolicy fault => cases hpolicy

/-- A text of more words than there is room for is a program, and words are all set, but it comes to
no end of its own. -/
theorem interpret_words_of_lt (session : Session) {count : Nat} (hroom : session.room ≤ count) :
    (∃ statements, Statement.ofSource (wordSource count) = .ok statements) ∧
      session.interpret (wordSource count) = (session, some (.mishap .tooDeep)) := by
  obtain ⟨tokens, span, keyword, name, equal, pieces, value, hscan, hparse, -, -, hvalue, hlength,
    hkind⟩ := exists_tokens_words count
  have hsource : Statement.ofSource (wordSource count) = .ok [.text span (target name) value] := by
    simp only [Statement.ofSource, hscan, hparse]
  refine ⟨⟨_, hsource⟩, ?_⟩
  rw [interpret_of_ok session hsource, Session.run_singleton,
    TextJoin.execute_words_of_lt hvalue hkind (by omega)]

/-- A thousand and two hundred words, where there is room for 990 evaluations. -/
theorem interpret_outcome_tooDeep :
    (∃ statements, Statement.ofSource (wordSource 1199) = .ok statements) ∧
      (Session.fresh .empty (.fresh .unlimited) 990).interpret (wordSource 1199) =
        (.fresh .empty (.fresh .unlimited) 990, some (.mishap .tooDeep)) :=
  interpret_words_of_lt _ (show 990 ≤ 1199 by decide)

end LineScript
