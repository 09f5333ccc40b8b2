import LineScript.Proofs.Token.Scanning
import LineScript.Tree.Parse

/-!
# The trees of a line of tokens

`LineTree` relates the tokens of a line to the statement they make up, with one rule for each form
of a statement; `TextTree` and `ChainTree` do the same for the two kinds of values, in the order in
which they fold, texts to the right and numbers to the left. A line that ends at a token parses
exactly to what these rules give (`parse_eq_ok_iff`), whatever the token is that ends it.

A line that does not parse is blamed on one of its tokens or on its end, or has a value of too many
digits (`fails_of_parse`), and so tokens that are no program are blamed on one of them
(`exists_token_of_parse`).
-/

set_option autoImplicit false

namespace LineScript.Parse

/-- What is left of a line when tokens are taken off its front. -/
structure Line.Rest (line after : Line) : Prop where
  tokens_subset : after.tokens ⊆ line.tokens
  stop_eq : after.stop = line.stop

/-! ## Texts -/

theorem textLeaf?_eq_some_iff {token : Token} {leaf : TextExpr} :
    textLeaf? token = some leaf ↔
      (token.kind = .value ∧ leaf = .literal token.span token.lexeme) ∨
        (token.kind = .identifier ∧ leaf = .reference token.span token.lexeme) := by
  simp only [textLeaf?]
  cases token.kind <;> simp [eq_comm]

/-- The tree of a text: a leaf, or a leaf joined to the tree of the tokens after it. -/
inductive TextTree : List Token → TextExpr → Prop
  | leaf {token : Token} {leaf : TextExpr} (hleaf : textLeaf? token = some leaf) :
      TextTree [token] leaf
  | concat {token : Token} {leaf : TextExpr} {rest : List Token} {value : TextExpr}
      (hleaf : textLeaf? token = some leaf) (hrest : TextTree rest value) :
      TextTree (token :: rest) (.concat (leaf.span.upTo value.span) leaf value)

theorem TextTree.ne_nil {tokens : List Token} {value : TextExpr} (h : TextTree tokens value) :
    tokens ≠ [] := by
  cases h with
  | leaf hleaf => exact List.cons_ne_nil _ _
  | concat hleaf hrest => exact List.cons_ne_nil _ _

theorem kind_of_mem_textTree {tokens : List Token} {value : TextExpr} (h : TextTree tokens value)
    {piece : Token} (hpiece : piece ∈ tokens) :
    piece.kind = .value ∨ piece.kind = .identifier := by
  have hleafKind : ∀ {token : Token} {leaf : TextExpr}, textLeaf? token = some leaf →
      token.kind = .value ∨ token.kind = .identifier := fun hleaf =>
    (textLeaf?_eq_some_iff.1 hleaf).imp And.left And.left
  induction h with
  | leaf hleaf =>
    rw [List.mem_singleton.1 hpiece]
    exact hleafKind hleaf
  | concat hleaf _ ih =>
    rcases List.mem_cons.1 hpiece with rfl | hpiece
    · exact hleafKind hleaf
    · exact ih hpiece

/-- Words and names in any order are the tokens of a text. -/
theorem exists_textTree {tokens : List Token} (hne : tokens ≠ [])
    (hkind : ∀ token ∈ tokens, token.kind = .value ∨ token.kind = .identifier) :
    ∃ value, TextTree tokens value := by
  induction tokens with
  | nil => exact absurd rfl hne
  | cons token rest ih =>
    obtain ⟨leaf, hleaf⟩ : ∃ leaf, textLeaf? token = some leaf := by
      rcases hkind token List.mem_cons_self with h | h <;> simp [textLeaf?, h]
    cases rest with
    | nil => exact ⟨leaf, .leaf hleaf⟩
    | cons next rest =>
      obtain ⟨value, hvalue⟩ := ih (List.cons_ne_nil _ _)
        fun other hother => hkind other (List.mem_cons_of_mem _ hother)
      exact ⟨_, .concat hleaf hvalue⟩

theorem textTree_of_takeLeaves {tokens : List Token} {first : TextExpr} {more : List TextExpr}
    (h : takeLeaves tokens = (first :: more, [])) : TextTree tokens (concatLeaves first more) := by
  induction tokens generalizing first more with
  | nil => cases h
  | cons token rest ih =>
    simp only [takeLeaves] at h
    split at h
    · cases h
    · next leaf hleaf =>
      generalize hrest : takeLeaves rest = taken at h
      obtain ⟨leaves, after⟩ := taken
      simp only [Prod.mk.injEq, List.cons.injEq] at h
      obtain ⟨⟨rfl, rfl⟩, rfl⟩ := h
      cases leaves with
      | nil =>
        have hnil : rest = [] := by
          cases rest with
          | nil => rfl
          | cons other others =>
            simp only [takeLeaves] at hrest
            split at hrest <;> simp at hrest
        subst hnil
        exact .leaf hleaf
      | cons next others => exact .concat hleaf (ih hrest)

theorem takeLeaves_of_textTree {tokens : List Token} {value : TextExpr}
    (h : TextTree tokens value) :
    ∃ first more, takeLeaves tokens = (first :: more, []) ∧ concatLeaves first more = value := by
  induction h with
  | @leaf token leaf hleaf => exact ⟨leaf, [], by simp [takeLeaves, hleaf], rfl⟩
  | @concat token leaf rest value hleaf _ ih =>
    obtain ⟨first, more, htake, rfl⟩ := ih
    exact ⟨leaf, first :: more, by simp [takeLeaves, hleaf, htake], rfl⟩

/-- A text value takes up a whole line exactly if the line is the tokens of a text. -/
theorem textValue_eq_ok_iff {tokens : List Token} {stop : LineEnd} {value : TextExpr} :
    Line.textValue ⟨tokens, stop⟩ = .ok (value, ⟨[], stop⟩) ↔ TextTree tokens value := by
  constructor
  · intro h
    simp only [Line.textValue] at h
    split at h
    · cases h
    · next first more rest htake =>
      cases h
      exact textTree_of_takeLeaves htake
  · intro h
    obtain ⟨first, more, htake, rfl⟩ := takeLeaves_of_textTree h
    simp only [Line.textValue, htake]

theorem takeLeaves_subset (tokens : List Token) : (takeLeaves tokens).2 ⊆ tokens := by
  induction tokens with
  | nil => exact List.Subset.refl _
  | cons token rest ih =>
    simp only [takeLeaves]
    split
    · exact List.Subset.refl _
    · exact List.subset_cons_of_subset token ih

theorem rest_of_textValue {line after : Line} {value : TextExpr}
    (h : line.textValue = .ok (value, after)) : line.Rest after := by
  have hsubset := takeLeaves_subset line.tokens
  simp only [Line.textValue] at h
  split at h
  · cases h
  · next htake =>
    cases h
    rw [htake] at hsubset
    exact ⟨hsubset, rfl⟩

/-! ## Numbers -/

theorem splitSign_digits {digits : List Char} (hdigits : ∀ c ∈ digits, c.isDigit = true) :
    Integer.splitSign digits = (false, digits) := by
  cases digits with
  | nil => rfl
  | cons c digits =>
    have hc := hdigits c List.mem_cons_self
    have hplus : c ≠ '+' := by
      rintro rfl
      exact absurd hc (by decide)
    have hminus : c ≠ '-' := by
      rintro rfl
      exact absurd hc (by decide)
    simp [Integer.splitSign, hplus, hminus]

/-- Digits are read as an integer if they are not too many and their value is not too great. -/
theorem read_digits_iff {digits : List Char} (hne : digits ≠ [])
    (hdigits : ∀ c ∈ digits, c.isDigit = true) {n : Int} :
    Integer.read (String.ofList digits) = .integer n ↔
      digits.length ≤ 4300 ∧ Nat.ofDigitChars 10 digits 0 ≤ 2 ^ 63 - 1 ∧
        n = Nat.ofDigitChars 10 digits 0 := by
  have hempty : (digits.isEmpty || !digits.all Char.isDigit) = false := by
    rw [List.all_eq_true.2 hdigits]
    simpa using hne
  have hleast : Integer.least ≤ (Nat.ofDigitChars 10 digits 0 : Int) :=
    Int.le_trans (by decide) (Int.natCast_nonneg _)
  simp only [Integer.read, Integer.convert, String.toList_ofList, splitSign_digits hdigits, hempty,
    Integer.digitLimit]
  by_cases hlength : digits.length ≤ 4300
  · rw [if_neg (by simp), if_neg (by omega)]
    simp only [Integer.InRange, hleast, true_and, Integer.greatest, Bool.false_eq_true, if_false]
    split
    · next hrange =>
      rw [Integer.Reading.integer.injEq]
      constructor
      · rintro rfl
        exact ⟨hlength, by omega, rfl⟩
      · rintro ⟨-, -, rfl⟩
        rfl
    · next hrange =>
      constructor
      · intro h
        cases h
      · rintro ⟨-, hvalue, -⟩
        exact absurd (by omega) hrange
  · rw [if_neg (by simp), if_pos (by omega)]
    simp [hlength]

/-- The leaf of a number: digits that are an integer of 64 bits, or a name. -/
inductive NumberLeaf (token : Token) : NumberExpr → Prop
  | literal {n : Int} (hkind : token.kind = .value)
      (hread : Integer.read token.lexeme = .integer n) : NumberLeaf token (.literal token.span n)
  | reference (hkind : token.kind = .identifier) :
      NumberLeaf token (.reference token.span token.lexeme)

theorem numberLeaf_eq_ok_iff {token : Token} {leaf : NumberExpr} :
    numberLeaf token = .ok leaf ↔ NumberLeaf token leaf := by
  constructor
  · intro h
    simp only [numberLeaf] at h
    split at h
    · next hkind =>
      split at h
      · next hread =>
        cases h
        exact .literal hkind hread
      · cases h
      · cases h
    · next hkind =>
      cases h
      exact .reference hkind
    · cases h
  · intro h
    cases h with
    | literal hkind hread => simp only [numberLeaf, hkind, hread]
    | reference hkind => simp only [numberLeaf, hkind]

theorem NumberLeaf.span_eq {token : Token} {leaf : NumberExpr} (h : NumberLeaf token leaf) :
    leaf.span = token.span := by
  cases h with
  | literal hkind hread => rfl
  | reference hkind => rfl

/-- The tree of a chain that goes on after its left part: each operator joins all that stands to the
left of it with the one leaf after it. -/
inductive ChainTree : NumberExpr → List Token → NumberExpr → Prop
  | done (left : NumberExpr) : ChainTree left [] left
  | link {left leaf value : NumberExpr} {sign operand : Token} {rest : List Token} {op : Operator}
      (hsign : sign.kind = .operator op) (hleaf : NumberLeaf operand leaf)
      (hrest : ChainTree (.binary (left.span.upTo leaf.span) op.symbol left leaf) rest value) :
      ChainTree left (sign :: operand :: rest) value

/-- Whether tokens go on a chain does not depend on what stands to the left of them. -/
theorem exists_chainTree {left value : NumberExpr} {tokens : List Token}
    (h : ChainTree left tokens value) (other : NumberExpr) :
    ∃ result, ChainTree other tokens result := by
  induction h generalizing other with
  | done left => exact ⟨other, .done other⟩
  | link hsign hleaf _ ih =>
    obtain ⟨result, hresult⟩ := ih _
    exact ⟨result, .link hsign hleaf hresult⟩

theorem foldChain_eq_ok_iff {stop : LineEnd} {left value : NumberExpr} {tokens : List Token} :
    foldChain stop left tokens = .ok (value, []) ↔ ChainTree left tokens value := by
  constructor
  · intro h
    -- The left part grows from link to link, so it varies along with the tokens.
    fun_induction foldChain stop left tokens with
    | case1 left =>
      cases h
      exact .done _
    | case2 left token op hkind => cases h
    | case3 left token op hkind leaf rest ih =>
      obtain ⟨right, hright, h⟩ := bind_eq_ok_iff.1 h
      exact .link hkind (numberLeaf_eq_ok_iff.1 hright) (ih right h)
    | case4 left token rest hkind => simp at h
  · intro h
    induction h with
    | done left => rfl
    | link hsign hleaf _ ih =>
      simp only [foldChain, hsign, numberLeaf_eq_ok_iff.2 hleaf]
      exact ih

/-- A number takes up a whole line exactly if the line is the tokens of a chain. -/
theorem numberValue_eq_ok_iff {tokens : List Token} {stop : LineEnd} {value : NumberExpr} :
    Line.numberValue ⟨tokens, stop⟩ = .ok (value, ⟨[], stop⟩) ↔
      ∃ operand rest leaf, tokens = operand :: rest ∧ NumberLeaf operand leaf ∧
        ChainTree leaf rest value := by
  constructor
  · intro h
    cases tokens with
    | nil => cases h
    | cons operand rest =>
      simp only [Line.numberValue, bind_eq_ok_iff] at h
      obtain ⟨leaf, hleaf, ⟨folded, after⟩, hfold, h⟩ := h
      cases h
      exact ⟨operand, rest, leaf, rfl, numberLeaf_eq_ok_iff.1 hleaf, foldChain_eq_ok_iff.1 hfold⟩
  · rintro ⟨operand, rest, leaf, rfl, hleaf, hchain⟩
    simp only [Line.numberValue, numberLeaf_eq_ok_iff.2 hleaf, bind_eq_ok_iff]
    exact ⟨leaf, rfl, (value, []), foldChain_eq_ok_iff.2 hchain, rfl⟩

theorem foldChain_subset {stop : LineEnd} {left value : NumberExpr} {tokens rest : List Token}
    (h : foldChain stop left tokens = .ok (value, rest)) : rest ⊆ tokens := by
  fun_induction foldChain stop left tokens with
  | case1 left =>
    cases h
    exact List.Subset.refl _
  | case2 left token op hkind => cases h
  | case3 left token op hkind leaf rest ih =>
    obtain ⟨right, -, h⟩ := bind_eq_ok_iff.1 h
    exact List.subset_cons_of_subset _ (List.subset_cons_of_subset _ (ih right h))
  | case4 left token rest hkind =>
    cases h
    exact List.Subset.refl _

theorem rest_of_numberValue {line after : Line} {value : NumberExpr}
    (h : line.numberValue = .ok (value, after)) : line.Rest after := by
  simp only [Line.numberValue] at h
  split at h
  · cases h
  · next token rest htokens =>
    simp only [bind_eq_ok_iff] at h
    obtain ⟨leaf, -, folded, hfold, h⟩ := h
    cases h
    refine ⟨?_, rfl⟩
    rw [htokens]
    exact List.subset_cons_of_subset token (foldChain_subset hfold)

/-! ## Statements -/

/-- The target that an identifier is. -/
def target (name : Token) : Target := .named name.span name.lexeme

theorem identifier_eq_ok_iff {line after : Line} {keyword : Keyword} {found : Target} :
    line.identifier keyword = .ok (found, after) ↔
      ∃ name rest, line.tokens = name :: rest ∧ name.kind = .identifier ∧ found = target name ∧
        after = { line with tokens := rest } := by
  constructor
  · intro h
    simp only [Line.identifier] at h
    split at h
    · next lexeme span rest htokens =>
      cases h
      exact ⟨_, _, htokens, rfl, rfl, rfl⟩
    · cases h
  · rintro ⟨⟨kind, lexeme, span⟩, rest, htokens, hkind, rfl, rfl⟩
    obtain rfl : kind = .identifier := hkind
    simp only [Line.identifier, htokens, target]

theorem finish_eq_ok_iff {tokens : List Token} {stop : Token} :
    Line.finish ⟨tokens, .found stop⟩ = .ok () ↔ tokens = [] := by
  cases tokens with
  | nil => simp [Line.finish]
  | cons token rest => simp [Line.finish]

/-- An assignment is a name and nothing else, or a name, an equals sign and a value. -/
theorem assignment_eq_ok_iff {α : Type} {tokens : List Token} {stop : Token} {keyword : Keyword}
    {default result : α} {value : Line → Except ParseFailure (α × Line)} {found : Target}
    {after : Line} :
    Line.assignment ⟨tokens, .found stop⟩ keyword default value = .ok (found, result, after) ↔
      ∃ name rest, tokens = name :: rest ∧ name.kind = .identifier ∧ found = target name ∧
        ((rest = [] ∧ result = default ∧ after = ⟨[], .found stop⟩) ∨
          ∃ equal more, rest = equal :: more ∧ equal.kind = .equal ∧
            value ⟨more, .found stop⟩ = .ok (result, after)) := by
  constructor
  · intro h
    simp only [Line.assignment, bind_eq_ok_iff, Prod.exists] at h
    obtain ⟨found', line, hname, h⟩ := h
    obtain ⟨name, rest, rfl, hkind, rfl, rfl⟩ := identifier_eq_ok_iff.1 hname
    refine ⟨name, rest, rfl, hkind, ?_⟩
    split at h
    · next hnil _ =>
      cases h
      exact ⟨rfl, Or.inl ⟨hnil, rfl, by simp_all⟩⟩
    · next lexeme span more hrest =>
      obtain ⟨⟨given, line⟩, hgiven, h⟩ := bind_eq_ok_iff.1 h
      cases h
      exact ⟨rfl, Or.inr ⟨_, more, hrest, rfl, hgiven⟩⟩
    · cases h
  · rintro ⟨name, rest, rfl, hkind, rfl, hrest⟩
    simp only [Line.assignment, bind_eq_ok_iff, Prod.exists]
    refine ⟨target name, ⟨rest, .found stop⟩,
      identifier_eq_ok_iff.2 ⟨name, rest, rfl, hkind, rfl, rfl⟩, ?_⟩
    rcases hrest with ⟨rfl, rfl, rfl⟩ | ⟨⟨kind, lexeme, span⟩, more, rfl, hequal, hvalue⟩
    · rfl
    · obtain rfl : kind = .equal := hequal
      simp only [hvalue]
      exact bind_eq_ok_iff.2 ⟨(result, after), rfl, rfl⟩

/-- The statement that the tokens of a line make up. -/
inductive LineTree : List Token → Statement → Prop
  | emptyText {first name : Token} (hfirst : first.kind = .keyword .text)
      (hname : name.kind = .identifier) :
      LineTree [first, name]
        (.text (first.span.upTo (name.span.further first.span)) (target name)
          (.literal first.span ""))
  | text {first name equal : Token} {rest : List Token} {value : TextExpr}
      (hfirst : first.kind = .keyword .text) (hname : name.kind = .identifier)
      (hequal : equal.kind = .equal) (hvalue : TextTree rest value) :
      LineTree (first :: name :: equal :: rest)
        (.text (first.span.upTo (name.span.further value.span)) (target name) value)
  | zeroNumber {first name : Token} (hfirst : first.kind = .keyword .number)
      (hname : name.kind = .identifier) :
      LineTree [first, name]
        (.number (first.span.upTo (name.span.further first.span)) (target name)
          (.literal first.span 0))
  | number {first name equal operand : Token} {rest : List Token} {leaf value : NumberExpr}
      (hfirst : first.kind = .keyword .number) (hname : name.kind = .identifier)
      (hequal : equal.kind = .equal) (hleaf : NumberLeaf operand leaf)
      (hchain : ChainTree leaf rest value) :
      LineTree (first :: name :: equal :: operand :: rest)
        (.number (first.span.upTo (name.span.further value.span)) (target name) value)
  | input {first name : Token} (hfirst : first.kind = .keyword .input)
      (hname : name.kind = .identifier) :
      LineTree [first, name] (.input (first.span.upTo name.span) (target name))
  | output {first name : Token} (hfirst : first.kind = .keyword .output)
      (hname : name.kind = .identifier) :
      LineTree [first, name] (.output (first.span.upTo name.span) (target name))

/-- A line whose first token is a keyword parses to the statement that its tokens make up. -/
theorem statement_eq_ok_iff {first stop : Token} {rest : List Token} {parsed : Statement} :
    statement first ⟨rest, .found stop⟩ = .ok parsed ↔ LineTree (first :: rest) parsed := by
  constructor
  · intro h
    simp only [statement] at h
    split at h
    · next hfirst =>
      simp only [bind_eq_ok_iff, Prod.exists] at h
      obtain ⟨found, value, ⟨tokens, finish⟩, hassign, u, hfinish, h⟩ := h
      cases h
      obtain ⟨name, more, rfl, hname, rfl, hmore⟩ := assignment_eq_ok_iff.1 hassign
      rcases hmore with ⟨rfl, rfl, -⟩ | ⟨equal, tail, rfl, hequal, hvalue⟩
      · exact .emptyText hfirst hname
      · obtain rfl : finish = .found stop := (rest_of_textValue hvalue).stop_eq
        obtain rfl := finish_eq_ok_iff.1 hfinish
        exact .text hfirst hname hequal (textValue_eq_ok_iff.1 hvalue)
    · next hfirst =>
      simp only [bind_eq_ok_iff, Prod.exists] at h
      obtain ⟨found, value, ⟨tokens, finish⟩, hassign, u, hfinish, h⟩ := h
      cases h
      obtain ⟨name, more, rfl, hname, rfl, hmore⟩ := assignment_eq_ok_iff.1 hassign
      rcases hmore with ⟨rfl, rfl, -⟩ | ⟨equal, tail, rfl, hequal, hvalue⟩
      · exact .zeroNumber hfirst hname
      · obtain rfl : finish = .found stop := (rest_of_numberValue hvalue).stop_eq
        obtain rfl := finish_eq_ok_iff.1 hfinish
        obtain ⟨operand, links, leaf, rfl, hleaf, hchain⟩ := numberValue_eq_ok_iff.1 hvalue
        exact .number hfirst hname hequal hleaf hchain
    · next hfirst =>
      simp only [bind_eq_ok_iff, Prod.exists] at h
      obtain ⟨found, line, hname, u, hfinish, h⟩ := h
      cases h
      obtain ⟨name, more, rfl, hkind, rfl, rfl⟩ := identifier_eq_ok_iff.1 hname
      obtain rfl := finish_eq_ok_iff.1 hfinish
      exact .input hfirst hkind
    · next hfirst =>
      simp only [bind_eq_ok_iff, Prod.exists] at h
      obtain ⟨found, line, hname, u, hfinish, h⟩ := h
      cases h
      obtain ⟨name, more, rfl, hkind, rfl, rfl⟩ := identifier_eq_ok_iff.1 hname
      obtain rfl := finish_eq_ok_iff.1 hfinish
      exact .output hfirst hkind
    · cases h
  · intro h
    cases h with
    | @emptyText _ name hfirst hname =>
      simp only [statement, hfirst, bind_eq_ok_iff, Prod.exists]
      exact ⟨_, _, _, assignment_eq_ok_iff.2 ⟨name, [], rfl, hname, rfl, Or.inl ⟨rfl, rfl, rfl⟩⟩,
        (), rfl, rfl⟩
    | @text _ name equal rest value hfirst hname hequal hvalue =>
      simp only [statement, hfirst, bind_eq_ok_iff, Prod.exists]
      exact ⟨_, _, _, assignment_eq_ok_iff.2 ⟨name, _, rfl, hname, rfl,
        Or.inr ⟨equal, rest, rfl, hequal, textValue_eq_ok_iff.2 hvalue⟩⟩, (), rfl, rfl⟩
    | @zeroNumber _ name hfirst hname =>
      simp only [statement, hfirst, bind_eq_ok_iff, Prod.exists]
      exact ⟨_, _, _, assignment_eq_ok_iff.2 ⟨name, [], rfl, hname, rfl, Or.inl ⟨rfl, rfl, rfl⟩⟩,
        (), rfl, rfl⟩
    | @number _ name equal operand rest leaf value hfirst hname hequal hleaf hchain =>
      simp only [statement, hfirst, bind_eq_ok_iff, Prod.exists]
      exact ⟨_, _, _, assignment_eq_ok_iff.2 ⟨name, _, rfl, hname, rfl,
        Or.inr ⟨equal, operand :: rest, rfl, hequal,
          numberValue_eq_ok_iff.2 ⟨operand, rest, leaf, rfl, hleaf, hchain⟩⟩⟩, (), rfl, rfl⟩
    | @input _ name hfirst hname =>
      simp only [statement, hfirst, bind_eq_ok_iff, Prod.exists]
      exact ⟨_, _, identifier_eq_ok_iff.2 ⟨name, [], rfl, hname, rfl, rfl⟩, (), rfl, rfl⟩
    | @output _ name hfirst hname =>
      simp only [statement, hfirst, bind_eq_ok_iff, Prod.exists]
      exact ⟨_, _, identifier_eq_ok_iff.2 ⟨name, [], rfl, hname, rfl, rfl⟩, (), rfl, rfl⟩

/-- What a line holds: nothing if it has no tokens, and else the statement that they make up. -/
def LineHolds (tokens : List Token) : Option Statement → Prop
  | none => tokens = []
  | some parsed => LineTree tokens parsed

theorem LineTree.ne_nil {tokens : List Token} {parsed : Statement} (h : LineTree tokens parsed) :
    tokens ≠ [] := by
  cases h <;> exact List.cons_ne_nil _ _

/-- A line parses to what it holds. -/
theorem parse_eq_ok_iff {tokens : List Token} {stop : Token} {found : Option Statement} :
    Line.parse ⟨tokens, .found stop⟩ = .ok found ↔ LineHolds tokens found := by
  cases tokens with
  | nil =>
    cases found with
    | none => simp [Line.parse, LineHolds]
    | some parsed =>
      refine ⟨fun h => ?_, fun h => absurd rfl h.ne_nil⟩
      simp [Line.parse] at h
  | cons first rest =>
    simp only [Line.parse, bind_eq_ok_iff, statement_eq_ok_iff]
    cases found with
    | none => simp [LineHolds]
    | some parsed => simp [LineHolds]

/-! ## Failures -/

/-- The spans that a line can be blamed with: those of its tokens and that of its end. -/
inductive Line.Blames (line : Line) : Span → Prop
  | token {token : Token} (htoken : token ∈ line.tokens) : line.Blames token.span
  | stop {token : Token} (hstop : line.stop = .found token) : line.Blames token.span
  | missing {last : Span} (hstop : line.stop = .missing last) : line.Blames last

/-- The failures of a line: a fault that is blamed on a token or on the end, or a value that has too
many digits. -/
inductive Line.Fails (line : Line) : ParseFailure → Prop
  | fault {fault : Located ParseFault} (hblames : line.Blames fault.span) :
      line.Fails (.fault fault)
  | overlong {token : Token} {count : Nat} (htoken : token ∈ line.tokens)
      (hkind : token.kind = .value) (hread : Integer.read token.lexeme = .tooManyDigits count) :
      line.Fails (.tooManyDigits count)

/-- What is left of a line can be blamed with nothing else. -/
theorem Line.Blames.of_rest {line after : Line} {span : Span} (h : after.Blames span)
    (hrest : line.Rest after) : line.Blames span := by
  cases h with
  | token htoken => exact .token (hrest.tokens_subset htoken)
  | stop hfound => exact .stop (hrest.stop_eq ▸ hfound)
  | missing hmissing => exact .missing (hrest.stop_eq ▸ hmissing)

/-- What is left of a line fails in no other way. -/
theorem Line.Fails.of_rest {line after : Line} {failure : ParseFailure} (h : after.Fails failure)
    (hrest : line.Rest after) : line.Fails failure := by
  cases h with
  | fault hblames => exact .fault (hblames.of_rest hrest)
  | overlong htoken hkind hread => exact .overlong (hrest.tokens_subset htoken) hkind hread

theorem fails_reject (line : Line) (cause : Token → ParseFault) :
    line.Fails (line.reject cause) := by
  obtain ⟨tokens, stop⟩ := line
  cases tokens with
  | cons token rest => exact .fault (.token List.mem_cons_self)
  | nil =>
    cases stop with
    | found token => exact .fault (.stop rfl)
    | missing last => exact .fault (.missing rfl)

theorem fails_of_identifier {line : Line} {keyword : Keyword} {failure : ParseFailure}
    (h : line.identifier keyword = .error failure) : line.Fails failure := by
  simp only [Line.identifier] at h
  split at h
  · cases h
  · cases h
    exact fails_reject line _

theorem rest_of_identifier {line after : Line} {keyword : Keyword} {found : Target}
    (h : line.identifier keyword = .ok (found, after)) : line.Rest after := by
  obtain ⟨name, rest, htokens, -, -, rfl⟩ := identifier_eq_ok_iff.1 h
  exact ⟨by simp [htokens], rfl⟩

theorem fails_of_finish {line : Line} {failure : ParseFailure}
    (h : line.finish = .error failure) : line.Fails failure := by
  simp only [Line.finish] at h
  split at h
  · cases h
  · cases h
    exact fails_reject line _

theorem fails_of_textValue {line : Line} {failure : ParseFailure}
    (h : line.textValue = .error failure) : line.Fails failure := by
  simp only [Line.textValue] at h
  split at h
  · cases h
    exact fails_reject line _
  · cases h

theorem fails_of_numberLeaf {line : Line} {token : Token} {failure : ParseFailure}
    (htoken : token ∈ line.tokens) (h : numberLeaf token = .error failure) :
    line.Fails failure := by
  simp only [numberLeaf] at h
  split at h
  · next hkind =>
    split at h
    · cases h
    · cases h
      exact .fault (.token htoken)
    · next hread =>
      cases h
      exact .overlong htoken hkind hread
  · cases h
  · cases h
    exact .fault (.token htoken)

theorem fails_of_foldChain {stop : LineEnd} {left : NumberExpr} {tokens : List Token}
    {failure : ParseFailure} (h : foldChain stop left tokens = .error failure) :
    Line.Fails ⟨tokens, stop⟩ failure := by
  fun_induction foldChain stop left tokens with
  | case1 left => cases h
  | case2 left token op hkind =>
    -- An operator without an operand is blamed on the end of the line, not on itself.
    cases h
    exact (fails_reject ⟨[], stop⟩ _).of_rest ⟨List.nil_subset _, rfl⟩
  | case3 left token op hkind leaf rest ih =>
    rcases bind_eq_error_iff.1 h with h | ⟨right, -, h⟩
    · exact fails_of_numberLeaf (by simp) h
    · exact (ih right h).of_rest ⟨by simp, rfl⟩
  | case4 left token rest hkind => cases h

theorem fails_of_numberValue {line : Line} {failure : ParseFailure}
    (h : line.numberValue = .error failure) : line.Fails failure := by
  simp only [Line.numberValue] at h
  split at h
  · cases h
    exact fails_reject line _
  · next token rest htokens =>
    have hrest : line.Rest ⟨rest, line.stop⟩ := ⟨by simp [htokens], rfl⟩
    rcases bind_eq_error_iff.1 h with h | ⟨leaf, -, h⟩
    · exact fails_of_numberLeaf (by simp [htokens]) h
    · rcases bind_eq_error_iff.1 h with h | ⟨folded, -, h⟩
      · exact (fails_of_foldChain h).of_rest hrest
      · cases h

section Assignment

variable {α : Type} {line after : Line} {keyword : Keyword} {default result : α}
  {value : Line → Except ParseFailure (α × Line)}

theorem fails_of_assignment
    (hvalue : ∀ {line failure}, value line = .error failure → line.Fails failure)
    {failure : ParseFailure} (h : line.assignment keyword default value = .error failure) :
    line.Fails failure := by
  rcases bind_eq_error_iff.1 h with h | ⟨⟨found, inner⟩, hname, h⟩
  · exact fails_of_identifier h
  · have hinner := rest_of_identifier hname
    simp only at h
    split at h
    · cases h
    · next more hmore =>
      have hmoreRest : inner.Rest { inner with tokens := more } := ⟨by simp [hmore], rfl⟩
      rcases bind_eq_error_iff.1 h with h | ⟨given, -, h⟩
      · exact ((hvalue h).of_rest hmoreRest).of_rest hinner
      · cases h
    · cases h
      exact (fails_reject inner _).of_rest hinner

theorem rest_of_assignment
    (hvalue : ∀ {line after result}, value line = .ok (result, after) → line.Rest after)
    {found : Target}
    (h : line.assignment keyword default value = .ok (found, result, after)) :
    line.Rest after := by
  obtain ⟨⟨given, inner⟩, hname, h⟩ := bind_eq_ok_iff.1 h
  have hinner := rest_of_identifier hname
  simp only at h
  split at h
  · cases h
    exact hinner
  · next more hmore =>
    obtain ⟨⟨given, last⟩, hgiven, h⟩ := bind_eq_ok_iff.1 h
    cases h
    have hlast := hvalue hgiven
    refine ⟨fun token htoken => hinner.tokens_subset ?_, hlast.stop_eq.trans hinner.stop_eq⟩
    rw [hmore]
    exact List.mem_cons_of_mem _ (hlast.tokens_subset htoken)
  · cases h

end Assignment

/-- A line that starts with a token and does not parse is blamed on that token or fails like what is
left of it. -/
theorem fails_of_statement {first : Token} {line : Line} {failure : ParseFailure}
    (h : statement first line = .error failure) :
    failure = .fault ⟨.notAStatement first, first.span⟩ ∨ line.Fails failure := by
  simp only [statement] at h
  split at h
  · rcases bind_eq_error_iff.1 h with h | ⟨⟨found, value, after⟩, hassign, h⟩
    · exact Or.inr (fails_of_assignment fails_of_textValue h)
    · rcases bind_eq_error_iff.1 h with h | ⟨u, -, h⟩
      · exact Or.inr ((fails_of_finish h).of_rest (rest_of_assignment rest_of_textValue hassign))
      · cases h
  · rcases bind_eq_error_iff.1 h with h | ⟨⟨found, value, after⟩, hassign, h⟩
    · exact Or.inr (fails_of_assignment fails_of_numberValue h)
    · rcases bind_eq_error_iff.1 h with h | ⟨u, -, h⟩
      · exact Or.inr
          ((fails_of_finish h).of_rest (rest_of_assignment rest_of_numberValue hassign))
      · cases h
  · rcases bind_eq_error_iff.1 h with h | ⟨⟨found, after⟩, hname, h⟩
    · exact Or.inr (fails_of_identifier h)
    · rcases bind_eq_error_iff.1 h with h | ⟨u, -, h⟩
      · exact Or.inr ((fails_of_finish h).of_rest (rest_of_identifier hname))
      · cases h
  · rcases bind_eq_error_iff.1 h with h | ⟨⟨found, after⟩, hname, h⟩
    · exact Or.inr (fails_of_identifier h)
    · rcases bind_eq_error_iff.1 h with h | ⟨u, -, h⟩
      · exact Or.inr ((fails_of_finish h).of_rest (rest_of_identifier hname))
      · cases h
  · cases h
    exact Or.inl rfl

/-- A line that does not parse is blamed on one of its tokens or on its end, or it has a value of
too many digits. -/
theorem fails_of_parse {line : Line} {failure : ParseFailure} (h : line.parse = .error failure) :
    line.Fails failure := by
  simp only [Line.parse] at h
  split at h
  · cases h
  · next hstop =>
    cases h
    exact .fault (.missing hstop)
  · next first rest htokens =>
    rcases bind_eq_error_iff.1 h with h | ⟨parsed, -, h⟩
    · rcases fails_of_statement h with rfl | hfails
      · exact .fault (.token (by simp [htokens]))
      · exact hfails.of_rest ⟨by simp [htokens], rfl⟩
    · cases h

theorem exists_fails_of_parseLines {lines : List Line} {failure : ParseFailure}
    (h : parseLines lines = .error failure) : ∃ line ∈ lines, line.Fails failure := by
  induction lines with
  | nil => cases h
  | cons line lines ih =>
    rcases bind_eq_error_iff.1 h with h | ⟨parsed, -, h⟩
    · exact ⟨line, List.mem_cons_self, fails_of_parse h⟩
    · rcases bind_eq_error_iff.1 h with h | ⟨more, -, h⟩
      · obtain ⟨other, hother, hfails⟩ := ih h
        exact ⟨other, List.mem_cons_of_mem _ hother, hfails⟩
      · cases h

/-- The lines that tokens are cut into are made of these tokens, and end at one of them or at the
span that stands for a missing end. -/
theorem mem_cutLines {last : Span} {tokens : List Token} {line : Line}
    (h : line ∈ cutLines last tokens) :
    line.tokens ⊆ tokens ∧
      (line.stop = .missing last ∨ ∃ stop ∈ tokens, line.stop = .found stop) := by
  induction tokens generalizing line with
  | nil =>
    rw [cutLines, List.mem_singleton] at h
    subst h
    exact ⟨List.nil_subset _, Or.inl rfl⟩
  | cons token tokens ih =>
    have hmore : ∀ {other : Line}, other ∈ cutLines last tokens →
        other.tokens ⊆ token :: tokens ∧
          (other.stop = .missing last ∨ ∃ stop ∈ token :: tokens, other.stop = .found stop) := by
      intro other hother
      obtain ⟨hsubset, hstop⟩ := ih hother
      refine ⟨List.subset_cons_of_subset token hsubset, hstop.imp id ?_⟩
      rintro ⟨stop, hmem, hfound⟩
      exact ⟨stop, List.mem_cons_of_mem _ hmem, hfound⟩
    rw [cutLines] at h
    split at h
    · obtain rfl := List.mem_singleton.1 h
      exact ⟨List.nil_subset _, Or.inr ⟨token, List.mem_cons_self, rfl⟩⟩
    · rcases List.mem_cons.1 h with rfl | h
      · exact ⟨List.nil_subset _, Or.inr ⟨token, List.mem_cons_self, rfl⟩⟩
      · exact hmore h
    · split at h
      · cases h
      · next first others hcut =>
        rw [hcut] at hmore
        rcases List.mem_cons.1 h with rfl | h
        · obtain ⟨hsubset, hstop⟩ := hmore List.mem_cons_self
          exact ⟨List.cons_subset.2 ⟨List.mem_cons_self, hsubset⟩, hstop⟩
        · exact hmore (List.mem_cons_of_mem _ h)

/-- Tokens that are no program are blamed on one of them. -/
theorem exists_token_of_parse {tokens : List Token} {fault : Located ParseFault}
    (hne : tokens ≠ []) (h : Statement.parse tokens = .error (.fault fault)) :
    ∃ token ∈ tokens, fault.span = token.span := by
  obtain ⟨line, hline, hfails⟩ := exists_fails_of_parseLines h
  obtain ⟨hsubset, hstop⟩ := mem_cutLines hline
  cases hfails with
  | fault hblames =>
    generalize fault.span = span at hblames ⊢
    cases hblames with
    | token htoken => exact ⟨_, hsubset htoken, rfl⟩
    | stop hfound =>
      rcases hstop with hmissing | ⟨stop, hmem, hstop⟩
      · rw [hmissing] at hfound
        cases hfound
      · rw [hstop] at hfound
        cases hfound
        exact ⟨_, hmem, rfl⟩
    | missing hmissing =>
      rcases hstop with hstop | ⟨stop, -, hstop⟩
      · rw [hstop] at hmissing
        cases hmissing
        refine ⟨tokens.getLast hne, List.getLast_mem hne, ?_⟩
        rw [lastSpan, List.getLast?_eq_some_getLast hne]
      · rw [hstop] at hmissing
        cases hmissing

/-- Only a value of too many digits stops the parser without a fault. -/
theorem exists_overlong_of_parse {tokens : List Token} {count : Nat}
    (h : Statement.parse tokens = .error (.tooManyDigits count)) :
    ∃ token ∈ tokens, token.kind = .value ∧
      Integer.read token.lexeme = .tooManyDigits count := by
  obtain ⟨line, hline, hfails⟩ := exists_fails_of_parseLines h
  cases hfails with
  | overlong htoken hkind hread => exact ⟨_, (mem_cutLines hline).1 htoken, hkind, hread⟩

end LineScript.Parse
