import LineScript.Proofs.Integer
import LineScript.Proofs.Tree.Depth
import LineScript.Session

/-!
# Chains as an accumulator machine

A chain of numbers is scanned, folded to the left into a tree, and the tree is evaluated by
recursion. All of this comes to a loop over the operands with one register: the first operand is
loaded, and each link reads its operand and then applies its operator to the register (`run`). The
loop stops at the first operand that cannot be read or that is a zero divisor, and `Stops` lists the
ways in which that can happen. The tree nests as deep as the chain has operands, and the loop does
not nest at all. Main statement: `execute_numberLine`, a number assignment of no more operands than
there is room for sets its variable to what the machine ends with, or leaves everything as it was
and fails as the machine does; a chain of more operands has no value, whatever the machine does.
-/

set_option autoImplicit false

namespace LineScript.Accumulator

open Parse Scan Text

/-! ## The machine -/

/-- The exact result of an operator. Division drops the fraction. -/
def combine : Operator → Int → Int → Int
  | .add, left, right => left + right
  | .sub, left, right => left - right
  | .mul, left, right => left * right
  | .div, left, right => left.tdiv right

/-- The value of an operand: that of its digits, or what the variable of its name holds. -/
def read (space : Namespace) (operand : Token) : Except Failure Int :=
  match operand.kind with
  | .value => .ok (Nat.ofDigitChars 10 operand.lexeme.toList 0)
  | _ =>
    match space.get? operand.lexeme with
    | none => .error (.blame (.unset operand.lexeme) operand.span)
    | some (.number n) => .ok n
    | some (.text text) =>
      match Integer.read text with
      | .integer n => .ok n
      | .notAnInteger => .error (.blame (.notANumber operand.lexeme) operand.span)
      | .tooManyDigits count => .error (.mishap (.tooManyDigits count))

/-- A link of a chain: an operator and the operand after it. -/
structure Link where
  sign : Token
  operand : Token
  op : Operator
  kind_sign : sign.kind = .operator op

/-- The tokens of a link. -/
def Link.tokens (link : Link) : List Token := [link.sign, link.operand]

/-- One turn of the machine: reads the operand, and then applies the operator to the register. -/
def step (space : Namespace) (register : Int) (link : Link) : Except Failure Int := do
  let n ← read space link.operand
  if link.op = .div ∧ n = 0 then .error (.blame .divisionByZero link.operand.span)
  else .ok (Integer.wrap (combine link.op register n))

/-- The machine: loads the first operand and takes one turn for each link. -/
def run (space : Namespace) (first : Token) (links : List Link) : Except Failure Int := do
  let register ← read space first
  links.foldlM (step space) register

/-! ## How the machine stops -/

/-- The ways in which an operand cannot be read: its name is not set, or holds a text that is no
integer of 64 bits, or holds more than 4300 digits, which are not converted at all. -/
inductive Unreadable (space : Namespace) (operand : Token) : Failure → Prop
  | unset (hkind : operand.kind ≠ .value) (hget : space.get? operand.lexeme = none) :
      Unreadable space operand (.blame (.unset operand.lexeme) operand.span)
  | notANumber {text : String} (hkind : operand.kind ≠ .value)
      (hget : space.get? operand.lexeme = some (.text text))
      (hread : Integer.read text = .notAnInteger) :
      Unreadable space operand (.blame (.notANumber operand.lexeme) operand.span)
  | tooManyDigits {text : String} {negative : Bool} {digits : List Char}
      (hkind : operand.kind ≠ .value) (hget : space.get? operand.lexeme = some (.text text))
      (hsign : Integer.splitSign text.toList = (negative, digits))
      (hdigits : ∀ c ∈ digits, c.isDigit = true) (hmany : 4300 < digits.length) :
      Unreadable space operand (.mishap (.tooManyDigits digits.length))

/-- The failures of the machine: the first operand cannot be read; or the turns before a link end
well, and then its operand cannot be read, or is read as zero and is a divisor. -/
inductive Stops (space : Namespace) (first : Token) (links : List Link) : Failure → Prop
  | first {failure : Failure} (hfirst : Unreadable space first failure) :
      Stops space first links failure
  | operand {done rest : List Link} {link : Link} {register : Int} {failure : Failure}
      (hlinks : links = done ++ link :: rest) (hdone : run space first done = .ok register)
      (hoperand : Unreadable space link.operand failure) : Stops space first links failure
  | zeroDivisor {done rest : List Link} {link : Link} {register : Int}
      (hlinks : links = done ++ link :: rest) (hdone : run space first done = .ok register)
      (hop : link.op = .div) (hzero : read space link.operand = .ok 0) :
      Stops space first links (.blame .divisionByZero link.operand.span)

theorem read_eq_error_iff {space : Namespace} {operand : Token} {failure : Failure} :
    read space operand = .error failure ↔ Unreadable space operand failure := by
  constructor
  · intro h
    simp only [read] at h
    split at h
    · cases h
    · next hkind =>
      split at h
      · next hget =>
        cases h
        exact .unset hkind hget
      · cases h
      · next text hget =>
        split at h
        · cases h
        · next hread =>
          cases h
          exact .notANumber hkind hget hread
        · next hread =>
          cases h
          obtain ⟨negative, digits, hsign, hdigits, hmany, rfl⟩ :=
            Integer.read_eq_tooManyDigits_iff_splitSign.1 hread
          exact .tooManyDigits hkind hget hsign hdigits hmany
  · intro h
    cases h with
    | unset hkind hget => simp only [read, hget]
    | notANumber hkind hget hread => simp only [read, hget, hread]
    | tooManyDigits hkind hget hsign hdigits hmany =>
      have hread := Integer.read_eq_tooManyDigits_iff_splitSign.2
        ⟨_, _, hsign, hdigits, hmany, rfl⟩
      simp only [read, hget, hread]

/-- A turn fails when its operand cannot be read, and else only for a zero divisor. -/
theorem step_eq_error_iff {space : Namespace} {register : Int} {link : Link} {failure : Failure} :
    step space register link = .error failure ↔
      Unreadable space link.operand failure ∨
        (link.op = .div ∧ read space link.operand = .ok 0 ∧
          failure = .blame .divisionByZero link.operand.span) := by
  simp only [step, bind_eq_error_iff, read_eq_error_iff]
  refine or_congr_right ⟨?_, ?_⟩
  · rintro ⟨n, hread, h⟩
    split at h
    · next hzero =>
      obtain ⟨hop, rfl⟩ := hzero
      cases h
      exact ⟨hop, hread, rfl⟩
    · cases h
  · rintro ⟨hop, hread, rfl⟩
    exact ⟨0, hread, if_pos ⟨hop, rfl⟩⟩

/-- Turns in a row fail at the first of them that fails. -/
theorem foldlM_eq_error_iff {space : Namespace} {register : Int} {links : List Link}
    {failure : Failure} :
    links.foldlM (step space) register = .error failure ↔
      ∃ done link rest last, links = done ++ link :: rest ∧
        done.foldlM (step space) register = .ok last ∧
        step space last link = .error failure := by
  induction links generalizing register with
  | nil => simp [pure, Except.pure]
  | cons link links ih =>
    rw [List.foldlM_cons, bind_eq_error_iff]
    constructor
    · rintro (hstep | ⟨next, hstep, hrest⟩)
      · exact ⟨[], link, links, register, rfl, rfl, hstep⟩
      · obtain ⟨done, failing, rest, last, rfl, hdone, hfails⟩ := ih.1 hrest
        refine ⟨link :: done, failing, rest, last, rfl, ?_, hfails⟩
        rw [List.foldlM_cons, bind_eq_ok_iff]
        exact ⟨next, hstep, hdone⟩
    · rintro ⟨done, failing, rest, last, hlinks, hdone, hfails⟩
      cases done with
      | nil =>
        cases hlinks
        cases hdone
        exact Or.inl hfails
      | cons head done =>
        cases hlinks
        rw [List.foldlM_cons, bind_eq_ok_iff] at hdone
        obtain ⟨next, hstep, hdone⟩ := hdone
        exact Or.inr ⟨next, hstep, ih.2 ⟨done, failing, rest, last, rfl, hdone, hfails⟩⟩

/-- The machine fails exactly in the ways that are listed. -/
theorem run_eq_error_iff {space : Namespace} {first : Token} {links : List Link}
    {failure : Failure} :
    run space first links = .error failure ↔ Stops space first links failure := by
  simp only [run, bind_eq_error_iff, read_eq_error_iff, foldlM_eq_error_iff, step_eq_error_iff]
  constructor
  · rintro (hfirst | ⟨start, hstart, done, link, rest, register, hlinks, hdone, hstep⟩)
    · exact .first hfirst
    · have hrun : run space first done = .ok register := bind_eq_ok_iff.2 ⟨start, hstart, hdone⟩
      rcases hstep with hoperand | ⟨hop, hzero, rfl⟩
      · exact .operand hlinks hrun hoperand
      · exact .zeroDivisor hlinks hrun hop hzero
  · intro h
    cases h with
    | first hfirst => exact Or.inl hfirst
    | @operand done rest link register _ hlinks hdone hoperand =>
      obtain ⟨start, hstart, hturns⟩ := bind_eq_ok_iff.1 hdone
      exact Or.inr ⟨start, hstart, done, link, rest, register, hlinks, hturns, Or.inl hoperand⟩
    | @zeroDivisor done rest link register hlinks hdone hop hzero =>
      obtain ⟨start, hstart, hturns⟩ := bind_eq_ok_iff.1 hdone
      exact Or.inr ⟨start, hstart, done, link, rest, register, hlinks, hturns,
        Or.inr ⟨hop, hzero, rfl⟩⟩

/-- Without names and divisions nothing stops the machine. -/
theorem exists_run_eq_ok {space : Namespace} {first : Token} {links : List Link}
    (hfirst : first.kind = .value)
    (hlinks : ∀ link ∈ links, link.operand.kind = .value ∧ link.op ≠ .div) :
    ∃ n, run space first links = .ok n := by
  have hreadable : ∀ {operand failure}, operand.kind = .value →
      ¬Unreadable space operand failure := by
    intro operand failure hkind hunreadable
    cases hunreadable <;> contradiction
  cases hrun : run space first links with
  | ok n => exact ⟨n, rfl⟩
  | error failure =>
    cases run_eq_error_iff.1 hrun with
    | first hunreadable => exact absurd hunreadable (hreadable hfirst)
    | operand hsplit hdone hunreadable =>
      have hkind := (hlinks _ (hsplit ▸ List.mem_append_right _ List.mem_cons_self)).1
      exact absurd hunreadable (hreadable hkind)
    | zeroDivisor hsplit hdone hop hzero =>
      exact absurd hop (hlinks _ (hsplit ▸ List.mem_append_right _ List.mem_cons_self)).2

/-! ## Evaluating trees -/

/-- An operand of a chain: a name, or digits that are an integer of 64 bits. -/
inductive IsOperand (operand : Token) : Prop
  | name (hkind : operand.kind = .identifier)
  | digits (hkind : operand.kind = .value) (hne : operand.lexeme.toList ≠ [])
      (hdigits : ∀ c ∈ operand.lexeme.toList, c.isDigit = true)
      (hlength : operand.lexeme.toList.length ≤ 4300)
      (hvalue : Nat.ofDigitChars 10 operand.lexeme.toList 0 ≤ 2 ^ 63 - 1)

/-- A token that is digits if it is a value. -/
def DigitsIfValue (token : Token) : Prop :=
  token.kind = .value → token.lexeme.toList ≠ [] ∧ ∀ c ∈ token.lexeme.toList, c.isDigit = true

theorem isOperand_of_numberLeaf {operand : Token} {leaf : NumberExpr}
    (h : NumberLeaf operand leaf) (hoperand : DigitsIfValue operand) : IsOperand operand := by
  cases h with
  | @literal n hkind hread =>
    obtain ⟨hne, hdigits⟩ := hoperand hkind
    rw [← String.ofList_toList (s := operand.lexeme)] at hread
    obtain ⟨hlength, hvalue, -⟩ := (read_digits_iff hne hdigits).1 hread
    exact .digits hkind hne hdigits hlength hvalue
  | reference hkind => exact .name hkind

/-- A leaf of a tree evaluates to what the machine reads. -/
theorem eval_numberLeaf (space : Namespace) (room : Nat) {operand : Token} {leaf : NumberExpr}
    (h : NumberLeaf operand leaf) (hoperand : DigitsIfValue operand) :
    leaf.eval space (room + 1) = read space operand := by
  cases h with
  | @literal n hkind hread =>
    obtain ⟨hne, hdigits⟩ := hoperand hkind
    rw [← String.ofList_toList (s := operand.lexeme)] at hread
    obtain ⟨-, -, rfl⟩ := (read_digits_iff hne hdigits).1 hread
    simp only [NumberExpr.eval, read, hkind]
  | reference hkind =>
    simp only [NumberExpr.eval, Namespace.number, Namespace.lookup, read, hkind]
    cases space.get? operand.lexeme with
    | none => rfl
    | some value => cases value <;> rfl

theorem applySymbol_symbol (op : Operator) (left right : Int) (divisor : Span) :
    NumberExpr.applySymbol op.symbol left right divisor =
      if op = .div ∧ right = 0 then .error (.blame .divisionByZero divisor)
      else .ok (Integer.wrap (combine op left right)) := by
  have hsymbol : Operator.ofSymbol? op.symbol = some op := by
    cases op <;> rfl
  simp only [NumberExpr.applySymbol, hsymbol]
  cases op with
  | add => rfl
  | sub => rfl
  | mul => rfl
  | div =>
    by_cases hzero : right = 0
    · simp [Operator.apply, hzero]
    · simp [Operator.apply, hzero, combine]

/-- A join of a tree does what one turn of the machine does. -/
theorem eval_binary (space : Namespace) (room : Nat) (span : Span) (link : Link)
    {left leaf : NumberExpr} (hleaf : NumberLeaf link.operand leaf)
    (hoperand : DigitsIfValue link.operand) :
    (NumberExpr.binary span link.op.symbol left leaf).eval space (room + 1 + 1) =
      left.eval space (room + 1) >>= fun register => step space register link := by
  simp only [NumberExpr.eval, eval_numberLeaf space room hleaf hoperand, hleaf.span_eq,
    applySymbol_symbol, step]

/-- Trees that evaluate as some links do after a tree on the left, if there is room for the links,
and have no value otherwise. -/
structure Follows (left value : NumberExpr) (links : List Link) : Prop where
  eval_eq : ∀ (space : Namespace) (room : Nat), value.eval space (room + 1 + links.length) =
    left.eval space (room + 1) >>= links.foldlM (step space)
  eval_of_le : ∀ (space : Namespace) (room : Nat), room ≤ links.length →
    value.eval space room = .error (.mishap .tooDeep)

theorem Follows.refl (left : NumberExpr) : Follows left left [] := by
  refine ⟨fun space room => (bind_pure _).symm, ?_⟩
  intro space room hroom
  obtain rfl := Nat.le_zero.1 hroom
  rfl

/-- A link more on the left takes up one evaluation more. -/
theorem Follows.cons {left leaf value : NumberExpr} {span : Span} {link : Link} {links : List Link}
    (hleaf : NumberLeaf link.operand leaf) (hoperand : DigitsIfValue link.operand)
    (h : Follows (.binary span link.op.symbol left leaf) value links) :
    Follows left value (link :: links) := by
  constructor
  · intro space room
    have hsplit : room + 1 + (link :: links).length = room + 1 + 1 + links.length := by
      rw [List.length_cons]
      omega
    rw [hsplit, h.eval_eq, eval_binary space room span link hleaf hoperand, bind_assoc]
    rfl
  · intro space room hroom
    rcases Nat.le_succ_iff.1 hroom with hroom | rfl
    · exact h.eval_of_le space room hroom
    · have heval := h.eval_eq space 0
      rwa [Nat.zero_add, Nat.add_comm] at heval

/-- The tree of a chain evaluates to what the machine ends with. -/
theorem exists_links {left value : NumberExpr} {tokens : List Token}
    (h : ChainTree left tokens value) (htokens : ∀ token ∈ tokens, DigitsIfValue token) :
    ∃ links : List Link, tokens = links.flatMap Link.tokens ∧
      (∀ link ∈ links, IsOperand link.operand) ∧ Follows left value links := by
  induction h with
  | done left => exact ⟨[], rfl, by simp, .refl left⟩
  | @link left leaf value sign operand rest op hsign hleaf _ ih =>
    have hoperand : DigitsIfValue operand := htokens operand (by simp)
    obtain ⟨links, rfl, hlinks, heval⟩ := ih fun token htoken => htokens token (by simp [htoken])
    refine ⟨⟨sign, operand, op, hsign⟩ :: links, rfl, ?_, heval.cons hleaf hoperand⟩
    rintro link (_ | ⟨_, hlink⟩)
    · exact isOperand_of_numberLeaf hleaf hoperand
    · exact hlinks link hlink

/-! ## Number assignments -/

theorem digits_of_operandCut {column : Nat} {text : List Char} {piece : Piece}
    (h : OperandCut column text piece) (hkind : piece.kind = .value) :
    piece.text ≠ [] ∧ ∀ c ∈ piece.text, c.isDigit = true := by
  cases h with
  | digits hne hdigits => exact ⟨hne, hdigits⟩
  | reference hname => cases hkind

theorem digits_of_numberCut {column : Nat} {cs : List Char} {pieces : List Piece}
    (h : NumberCut column cs pieces) {piece : Piece} (hmem : piece ∈ pieces)
    (hkind : piece.kind = .value) : piece.text ≠ [] ∧ ∀ c ∈ piece.text, c.isDigit = true := by
  induction h with
  | last hlead hpiece htrail =>
    rw [List.mem_singleton] at hmem
    subst hmem
    exact digits_of_operandCut hpiece hkind
  | link op hlead hpiece hgap _ ih =>
    rcases List.mem_cons.1 hmem with rfl | hmem
    · exact digits_of_operandCut hpiece hkind
    · rcases List.mem_cons.1 hmem with rfl | hmem
      · cases hkind
      · exact ih hmem

/-- The values on a line for a number are digits. -/
theorem digitsIfValue_of_lineCut {number offset : Nat} {cs : List Char} {pieces : List Piece}
    (hcut : LineCut cs pieces) {keyword : Token} {rest : List Token}
    (htokens : pieces.map (Piece.place number offset) = keyword :: rest)
    (hkeyword : keyword.kind = .keyword .number) : ∀ token ∈ rest, DigitsIfValue token := by
  cases hcut with
  | empty hcs => cases htokens
  | statement hlead hgap hname hspace hword hbare htail =>
    simp only [List.cons_append, List.map_cons, List.cons.injEq] at htokens
    obtain ⟨rfl, rfl⟩ := htokens
    cases hkeyword
    -- Of the keyword, the name, the equals sign and the chain, only the chain has values.
    intro token htoken hkind
    obtain ⟨piece, hpiece, rfl⟩ := List.mem_map.1 htoken
    have hvalue : piece.text ≠ [] ∧ ∀ c ∈ piece.text, c.isDigit = true := by
      rcases List.mem_append.1 hpiece with hpiece | hpiece
      · simp only [namePiece] at hpiece
        split at hpiece
        · cases hpiece
        · obtain rfl := List.mem_singleton.1 hpiece
          cases hkind
      · cases htail with
        | nothing => cases hpiece
        | number hcut =>
          rcases List.mem_cons.1 hpiece with rfl | hpiece
          · cases hkind
          · exact digits_of_numberCut hcut hpiece hkind
    simpa only [Piece.place, String.toList_ofList] using hvalue

/-- What a number assignment does to a session when its chain evaluates as the machine runs. -/
theorem execute_number (session : Session) (span : Span) (name : Token) {value : NumberExpr}
    {first : Token} {links : List Link}
    (heval : value.eval session.space session.room = run session.space first links) :
    session.execute (.number span (target name) value) =
      match run session.space first links with
      | .ok n => (session.set name.lexeme (.number n), none)
      | .error failure => (session, some failure) := by
  rw [Session.execute, heval]
  cases run session.space first links with
  | ok n => rfl
  | error failure => rfl

/-- The tokens of a chain are the operands and the links of a machine that does what the tree of the
chain does, if there is room for all operands. -/
theorem exists_machine {first : Token} {leaf value : NumberExpr} {rest : List Token}
    (hleaf : NumberLeaf first leaf) (hchain : ChainTree leaf rest value)
    (hdigits : ∀ token ∈ first :: rest, DigitsIfValue token) :
    ∃ links : List Link, rest = links.flatMap Link.tokens ∧
      (∀ operand ∈ first :: links.map Link.operand, IsOperand operand) ∧
      ∀ (space : Namespace) (room : Nat), value.eval space room =
        if links.length < room then run space first links else .error (.mishap .tooDeep) := by
  obtain ⟨hfirst, hrest⟩ := List.forall_mem_cons.1 hdigits
  obtain ⟨links, hlinks, hoperands, heval⟩ := exists_links hchain hrest
  refine ⟨links, hlinks, ?_, ?_⟩
  · refine List.forall_mem_cons.2 ⟨isOperand_of_numberLeaf hleaf hfirst, ?_⟩
    exact List.forall_mem_map.2 hoperands
  · intro space room
    split
    · next hroom =>
      obtain ⟨more, rfl⟩ := Nat.exists_eq_add_of_lt hroom
      rw [show links.length + more + 1 = more + 1 + links.length from by omega, heval.eval_eq,
        eval_numberLeaf space more hleaf hfirst]
      rfl
    · next hroom => exact heval.eval_of_le space room (Nat.le_of_not_lt hroom)

/-- A number with an equals sign and no more operands after it than there is room for sets its
variable to what the machine ends with. If the machine fails, so does the statement, with the same
failure and with nothing changed; and the machine fails at the first operand that cannot be read or
that is a zero divisor. A number of more operands always fails, because it is nested too deep. -/
theorem execute_numberLine {source : String} {tokens : List Token} {statements : List Statement}
    (hscan : Token.scan source = .ok tokens) (hparse : Statement.parse tokens = .ok statements)
    {number : Int} {keyword name equal : Token} {chain : List Token}
    (hline : onLine tokens number = keyword :: name :: equal :: chain)
    (hkeyword : keyword.kind = .keyword .number) :
    ∃ statement first links, statementsOn statements number = [statement] ∧
      chain = first :: links.flatMap Link.tokens ∧
      (∀ operand ∈ first :: links.map Link.operand, IsOperand operand) ∧
      ∀ session : Session,
        (links.length < session.room →
          (session.execute statement =
            match run session.space first links with
            | .ok n => (session.set name.lexeme (.number n), none)
            | .error failure => (session, some failure)) ∧
          ∀ failure, (session.execute statement).2 = some failure ↔
            Stops session.space first links failure) ∧
        (session.room ≤ links.length →
          session.execute statement = (session, some (.mishap .tooDeep))) := by
  have hne : onLine tokens number ≠ [] := by
    rw [hline]
    exact List.cons_ne_nil _ _
  obtain ⟨line, -, pieces, statement, hcut, htokens, htree, hstatement⟩ :=
    onLine_of_parse hscan hparse hne
  rw [htokens] at hline
  have hdigits := digitsIfValue_of_lineCut hcut hline hkeyword
  rw [hline] at htree
  cases htree with
  | text hfirst _ _ _ =>
    rw [hkeyword] at hfirst
    cases hfirst
  | @number _ _ _ first rest leaf value _ _ _ hleaf hchain =>
    obtain ⟨links, rfl, hoperands, heval⟩ :=
      exists_machine hleaf hchain fun token htoken => hdigits token (by simp_all)
    refine ⟨_, first, links, hstatement, rfl, hoperands, ?_⟩
    intro session
    have hvalue := heval session.space session.room
    constructor
    · intro hroom
      rw [if_pos hroom] at hvalue
      refine ⟨execute_number session _ name hvalue, ?_⟩
      intro failure
      rw [execute_number session _ name hvalue, ← run_eq_error_iff]
      cases run session.space first links with
      | ok n => simp
      | error failure => simp
    · intro hroom
      rw [if_neg (Nat.not_lt.2 hroom)] at hvalue
      rw [Session.execute, hvalue]
      rfl

/-- A division by what a text holds: it goes toward zero, or it is blamed on the divisor. -/
theorem execute_numberLine_division :
    ∃ statement, Statement.ofSource "Zahl x = 7 / $n$" = .ok [statement] ∧
      Session.execute ⟨⟨[("n", .text "-2")]⟩, .empty, .fresh .unlimited, 990⟩ statement =
        (⟨⟨[("n", .text "-2"), ("x", .number (-3))]⟩, .empty, .fresh .unlimited, 990⟩, none) ∧
      Session.execute ⟨⟨[("n", .text "0")]⟩, .empty, .fresh .unlimited, 990⟩ statement =
        (⟨⟨[("n", .text "0")]⟩, .empty, .fresh .unlimited, 990⟩,
          some (.blame .divisionByZero ⟨1, 14, 15⟩)) := by
  have hscan : Token.scan "Zahl x = 7 / $n$" = .ok
      [⟨.keyword .number, "Zahl", 1, 0, 4⟩, ⟨.identifier, "x", 1, 5, 6⟩, ⟨.equal, "=", 1, 7, 8⟩,
       ⟨.value, "7", 1, 9, 10⟩, ⟨.operator .div, "/", 1, 11, 12⟩, ⟨.identifier, "n", 1, 14, 15⟩,
       ⟨.endOfInput, "", 1, 16, 16⟩] := by cbv
  obtain ⟨statement, first, links, hstatement, hchain, -, hexecute⟩ :=
    execute_numberLine hscan
      (show Statement.parse _ = .ok [.number ⟨1, 0, 15⟩ (.named ⟨1, 5, 6⟩ "x")
        (.binary ⟨1, 9, 15⟩ "/" (.literal ⟨1, 9, 10⟩ 7) (.reference ⟨1, 14, 15⟩ "n"))] by cbv)
      (show onLine _ 1 = _ :: _ :: _ :: [_, _, _] from rfl) rfl
  rcases links with _ | ⟨⟨sign, operand, op, hsign⟩, _ | ⟨second, more⟩⟩
  · cases hchain
  · simp only [List.flatMap_cons, List.flatMap_nil, Link.tokens, List.cons_append, List.nil_append,
      List.cons.injEq, and_true] at hchain
    obtain ⟨rfl, rfl, rfl⟩ := hchain
    cases hsign
    refine ⟨statement, ?_, ?_, ?_⟩
    · simp only [Statement.ofSource, hscan]
      exact congrArg Except.ok hstatement
    · rw [((hexecute _).1 (by decide)).1]
      cbv
    · rw [((hexecute _).1 (by decide)).1]
      cbv
  · cases hchain

theorem length_flatMap_tokens (links : List Link) :
    (links.flatMap Link.tokens).length = 2 * links.length := by
  induction links with
  | nil => rfl
  | cons link links ih =>
    simp only [List.flatMap_cons, List.length_append, ih, Link.tokens, List.length_cons,
      List.length_nil]
    omega

theorem kind_eq_of_isOneOrPlus {token : Token} (hone : IsOneOrPlus token)
    (hoperand : IsOperand token) : token.kind = .value := by
  rcases hone with ⟨hkind, -⟩ | hplus
  · exact hkind
  · cases hoperand with
    | name hkind => cases hkind.symm.trans hplus
    | digits hkind _ _ _ _ => exact hkind

/-- The links of a sum of ones: nothing stops the machine on them. -/
theorem exists_run_ones {first : Token} {links : List Link}
    (hones : ∀ token ∈ first :: links.flatMap Link.tokens, IsOneOrPlus token)
    (hoperands : ∀ operand ∈ first :: links.map Link.operand, IsOperand operand)
    (space : Namespace) : ∃ n, run space first links = .ok n := by
  obtain ⟨hfirst, hrest⟩ := List.forall_mem_cons.1 hones
  obtain ⟨hfirstOperand, hoperands⟩ := List.forall_mem_cons.1 hoperands
  apply exists_run_eq_ok (kind_eq_of_isOneOrPlus hfirst hfirstOperand)
  intro link hlink
  have hmem : ∀ token ∈ link.tokens, token ∈ links.flatMap Link.tokens :=
    fun token htoken => List.mem_flatMap.2 ⟨link, hlink, htoken⟩
  have hsign := hrest link.sign (hmem _ List.mem_cons_self)
  have hone := hrest link.operand (hmem _ (List.mem_cons_of_mem _ List.mem_cons_self))
  refine ⟨kind_eq_of_isOneOrPlus hone (hoperands _ (List.mem_map_of_mem hlink)), ?_⟩
  intro hdiv
  simp [IsOneOrPlus, link.kind_sign, hdiv] at hsign

/-- A sum of a thousand and two hundred ones has no value where there is room for 990 evaluations,
while the machine comes to its end. -/
theorem execute_numberLine_tooDeep :
    ∃ tokens statement keyword name equal first,
      ∃ links : List Link,
        Token.scan (oneSource 1199) = .ok tokens ∧ Statement.parse tokens = .ok [statement] ∧
        onLine tokens 1 = keyword :: name :: equal :: first :: links.flatMap Link.tokens ∧
        keyword.kind = .keyword .number ∧ links.length = 1199 ∧
        (∃ n, run .empty first links = .ok n) ∧
        (Session.fresh .empty (.fresh .unlimited) 990).execute statement =
          (Session.fresh .empty (.fresh .unlimited) 990, some (.mishap .tooDeep)) := by
  obtain ⟨tokens, span, keyword, name, equal, first, rest, leaf, value, hscan, hparse, hline,
    hkeyword, hleaf, hchain, hlength, hones⟩ := exists_tokens_ones 1199
  have hdigits : ∀ token ∈ first :: rest, DigitsIfValue token := by
    intro token htoken hkind
    rcases hones token htoken with ⟨-, hlexeme⟩ | hplus
    · simp [hlexeme]
    · cases hkind.symm.trans hplus
  obtain ⟨links, rfl, hoperands, heval⟩ := exists_machine hleaf hchain hdigits
  have hcount : links.length = 1199 := by
    rw [length_flatMap_tokens] at hlength
    omega
  refine ⟨tokens, _, keyword, name, equal, first, links, hscan, hparse, hline, hkeyword, hcount,
    exists_run_ones hones hoperands .empty, ?_⟩
  have hdeep := heval .empty 990
  rw [if_neg (by rw [hcount]; decide)] at hdeep
  simp only [Session.execute, Session.fresh, hdeep]
  rfl

end LineScript.Accumulator
