import LineScript.Proofs.Tree.Depth
import LineScript.Proofs.Tree.Program
import LineScript.Session

/-!
# Texts as flat joins

The tree of a text folds to the right, and its evaluation decides at every join whether a space goes
there, from the leftmost leaves of the two sides and from the text that the left side evaluates to.
On the tokens of a line, all of this is local: whether there is a space between two pieces depends
on these two pieces alone (`separator`), and the text is the flat join of what the pieces stand for
(`joined`). Main statement: `execute_textLine`, a text assignment of no more pieces than there is
room for sets its variable to the flat join of its pieces unless one of them is a name that is not
set, and then the leftmost of these is to blame; a text of more pieces has no value.
-/

set_option autoImplicit false

namespace LineScript.TextJoin

open Parse Scan Text

/-! ## Joining pieces -/

/-- Whether a piece of a text is a name that is not set. -/
def isUnset (space : Namespace) (piece : Token) : Bool :=
  piece.kind = .identifier && (space.get? piece.lexeme).isNone

/-- What a piece of a text stands for: a word for itself, and a name for its value. -/
def fragment (space : Namespace) (piece : Token) : String :=
  match piece.kind, space.get? piece.lexeme with
  | .identifier, some value => value.render
  | .identifier, none => ""
  | _, _ => piece.lexeme

/-- What stands between two neighbours: nothing next to a name or after a dollar sign, and else a
space. -/
def separator (left right : Token) : String :=
  if left.kind = .identifier ∨ right.kind = .identifier ∨ left.lexeme.toList.getLast? = some '$'
  then "" else " "

/-- The pieces of a text from left to right, with their separators. -/
def joined (space : Namespace) : List Token → String
  | [] => ""
  | first :: rest =>
    fragment space first ++ String.join
      (List.zipWith (fun left right => separator left right ++ fragment space right)
        (first :: rest) rest)

theorem joined_singleton (space : Namespace) (piece : Token) :
    joined space [piece] = fragment space piece := by
  simp [joined]

theorem joined_cons_cons (space : Namespace) (first next : Token) (rest : List Token) :
    joined space (first :: next :: rest) =
      fragment space first ++ separator first next ++ joined space (next :: rest) := by
  simp [joined, String.join_cons, String.append_assoc]

/-! ## Evaluating trees -/

/-- The value of a leaf of a text. -/
theorem eval_textLeaf (space : Namespace) (room : Nat) {token : Token} {leaf : TextExpr}
    (h : textLeaf? token = some leaf) :
    leaf.eval space (room + 1) =
      if isUnset space token then .error (.blame (.unset token.lexeme) token.span)
      else .ok (fragment space token) := by
  rcases textLeaf?_eq_some_iff.1 h with ⟨hkind, rfl⟩ | ⟨hkind, rfl⟩
  · simp [TextExpr.eval, isUnset, fragment, hkind]
  · cases hget : space.get? token.lexeme with
    | none => simp [TextExpr.eval, Namespace.lookup, isUnset, hkind, hget, bind, Except.bind]
    | some value =>
      simp [TextExpr.eval, Namespace.lookup, isUnset, fragment, hkind, hget, bind, Except.bind]

theorem startsWithReference_textLeaf {token : Token} {leaf : TextExpr}
    (h : textLeaf? token = some leaf) :
    leaf.startsWithReference = decide (token.kind = .identifier) := by
  rcases textLeaf?_eq_some_iff.1 h with ⟨hkind, rfl⟩ | ⟨hkind, rfl⟩
  · rw [hkind]
    rfl
  · rw [hkind]
    rfl

/-- A text starts with a reference exactly if its first token is a name. -/
theorem startsWithReference_textTree {first : Token} {rest : List Token} {value : TextExpr}
    (h : TextTree (first :: rest) value) :
    value.startsWithReference = decide (first.kind = .identifier) := by
  cases h with
  | leaf hleaf => exact startsWithReference_textLeaf hleaf
  | @concat _ leaf _ value hleaf hrest =>
    rw [← startsWithReference_textLeaf hleaf]
    rfl

/-- A join is made without a space exactly if nothing separates the tokens on either side of it. -/
theorem joins_iff (space : Namespace) {first next : Token} {leaf value : TextExpr}
    {rest : List Token} (hleaf : textLeaf? first = some leaf)
    (hvalue : TextTree (next :: rest) value) :
    (leaf.startsWithReference || value.startsWithReference ||
        TextExpr.endsWithDollar (fragment space first)) = true ↔ separator first next = "" := by
  -- The evaluation looks at the text on the left, the rule at its token: these are the same where
  -- it matters, since a word stands for itself and after a name nothing is asked of the text.
  rw [startsWithReference_textLeaf hleaf, startsWithReference_textTree hvalue]
  rcases textLeaf?_eq_some_iff.1 hleaf with ⟨hkind, -⟩ | ⟨hkind, -⟩
  · have hfragment : fragment space first = first.lexeme := by simp [fragment, hkind]
    simp [hfragment, TextExpr.endsWithDollar, separator, hkind, or_iff_not_imp_left]
  · simp [separator, hkind]

theorem separator_eq_space {left right : Token} (h : separator left right ≠ "") :
    separator left right = " " := by
  simp only [separator] at *
  split
  · next hjoins => exact absurd (if_pos hjoins) h
  · rfl

/-- What an evaluation comes to that is first to evaluate some pieces: the leftmost of them that is
not set ends it. -/
def withPieces (space : Namespace) (pieces : List Token) (value : Except Failure String) :
    Except Failure String :=
  match pieces.find? (isUnset space) with
  | some piece => .error (.blame (.unset piece.lexeme) piece.span)
  | none => value

theorem withPieces_cons (space : Namespace) (piece : Token) (rest : List Token)
    (value : Except Failure String) :
    withPieces space (piece :: rest) value =
      if isUnset space piece then .error (.blame (.unset piece.lexeme) piece.span)
      else withPieces space rest value := by
  simp only [withPieces, List.find?_cons]
  cases isUnset space piece <;> rfl

/-- With room for all pieces, the tree of a text evaluates to the flat join of its tokens, or fails
at the leftmost name that is not set. -/
theorem eval_textTree (space : Namespace) {room : Nat} {tokens : List Token} {value : TextExpr}
    (h : TextTree tokens value) (hroom : tokens.length ≤ room) :
    value.eval space room = withPieces space tokens (.ok (joined space tokens)) := by
  induction h generalizing room with
  | @leaf token leaf hleaf =>
    obtain ⟨room, rfl⟩ := Nat.exists_eq_add_of_le' hroom
    rw [List.length_singleton, eval_textLeaf space room hleaf, withPieces_cons, joined_singleton]
    rfl
  | @concat token leaf rest value hleaf hrest ih =>
    obtain ⟨next, rest, rfl⟩ := List.exists_cons_of_ne_nil hrest.ne_nil
    obtain ⟨room, rfl⟩ := Nat.exists_eq_add_of_le' hroom
    have hsplit : room + (token :: next :: rest).length = room + rest.length + 1 + 1 := rfl
    rw [hsplit, TextExpr.eval, eval_textLeaf space _ hleaf, withPieces_cons,
      ih (Nat.add_assoc room rest.length 1 ▸ Nat.le_add_left _ room)]
    by_cases hunset : isUnset space token
    · rw [if_pos hunset, if_pos hunset]
      rfl
    · rw [if_neg hunset, if_neg hunset, withPieces, withPieces]
      cases List.find? (isUnset space) (next :: rest) with
      | some piece => rfl
      | none =>
        simp only [bind, Except.bind, joins_iff space hleaf hrest, joined_cons_cons]
        split
        · next hempty => rw [hempty, String.append_empty]
        · next hspace => rw [separator_eq_space hspace]

/-- With less room than that, the text has no value. The pieces that there is room for are evaluated
all the same, up to the leftmost that is not set. -/
theorem eval_textTree_of_lt (space : Namespace) {room : Nat} {tokens : List Token}
    {value : TextExpr} (h : TextTree tokens value) (hroom : room < tokens.length) :
    value.eval space room =
      withPieces space (tokens.take (room - 1)) (.error (.mishap .tooDeep)) := by
  induction h generalizing room with
  | @leaf token leaf hleaf =>
    obtain rfl : room = 0 := Nat.lt_one_iff.1 hroom
    rfl
  | @concat token leaf rest value hleaf hrest ih =>
    cases room with
    | zero => rfl
    | succ room =>
      cases room with
      | zero => rfl
      | succ room =>
        rw [TextExpr.eval, eval_textLeaf space room hleaf, ih (Nat.lt_of_succ_lt_succ hroom)]
        simp only [Nat.add_sub_cancel, List.take_succ_cons, withPieces_cons]
        by_cases hunset : isUnset space token
        · rw [if_pos hunset, if_pos hunset]
          rfl
        · rw [if_neg hunset, if_neg hunset, withPieces]
          cases List.find? (isUnset space) (rest.take room) <;> rfl

/-! ## Text assignments -/

theorem execute_textTree (session : Session) {span : Span} {name : Token} {pieces : List Token}
    {value : TextExpr} (h : TextTree pieces value) (hroom : pieces.length ≤ session.room) :
    session.execute (.text span (target name) value) =
      match pieces.find? (isUnset session.space) with
      | some piece => (session, some (.blame (.unset piece.lexeme) piece.span))
      | none => (session.set name.lexeme (.text (joined session.space pieces)), none) := by
  rw [Session.execute, eval_textTree session.space h hroom, withPieces]
  cases pieces.find? (isUnset session.space) with
  | some piece => rfl
  | none => rfl

theorem execute_textTree_of_lt (session : Session) {span : Span} {name : Token}
    {pieces : List Token} {value : TextExpr} (h : TextTree pieces value)
    (hroom : session.room < pieces.length) :
    session.execute (.text span (target name) value) =
      match (pieces.take (session.room - 1)).find? (isUnset session.space) with
      | some piece => (session, some (.blame (.unset piece.lexeme) piece.span))
      | none => (session, some (.mishap .tooDeep)) := by
  rw [Session.execute, eval_textTree_of_lt session.space h hroom, withPieces]
  cases (pieces.take (session.room - 1)).find? (isUnset session.space) with
  | some piece => rfl
  | none => rfl

/-- A text assignment fails at a name among its pieces, or because it is nested too deep. -/
theorem failure_of_execute_textTree {session : Session} {span : Span} {name : Token}
    {pieces : List Token} {value : TextExpr} (h : TextTree pieces value) {failure : Failure}
    (hfails : (session.execute (.text span (target name) value)).2 = some failure) :
    failure = .mishap .tooDeep ∨
      ∃ piece ∈ pieces, failure = .blame (.unset piece.lexeme) piece.span := by
  rcases Nat.lt_or_ge session.room pieces.length with hroom | hroom
  · rw [execute_textTree_of_lt session h hroom] at hfails
    split at hfails
    · next piece hfind =>
      cases hfails
      exact Or.inr ⟨piece, List.mem_of_mem_take (List.mem_of_find?_eq_some hfind), rfl⟩
    · cases hfails
      exact Or.inl rfl
  · rw [execute_textTree session h hroom] at hfails
    split at hfails
    · next piece hfind =>
      cases hfails
      exact Or.inr ⟨piece, List.mem_of_find?_eq_some hfind, rfl⟩
    · cases hfails

/-- Words are all set, so nothing but the room can stop their evaluation. -/
theorem execute_words_of_lt {session : Session} {span : Span} {name : Token} {pieces : List Token}
    {value : TextExpr} (h : TextTree pieces value) (hkind : ∀ piece ∈ pieces, piece.kind = .value)
    (hroom : session.room < pieces.length) :
    session.execute (.text span (target name) value) = (session, some (.mishap .tooDeep)) := by
  have hnone : (pieces.take (session.room - 1)).find? (isUnset session.space) = none := by
    apply List.find?_eq_none.2
    intro piece hpiece
    simp [isUnset, hkind piece (List.mem_of_mem_take hpiece)]
  rw [execute_textTree_of_lt session h hroom, hnone]

theorem find?_isUnset_ne_none_iff (space : Namespace) (pieces : List Token) :
    pieces.find? (isUnset space) ≠ none ↔
      ∃ piece ∈ pieces, piece.kind = .identifier ∧ space.get? piece.lexeme = none := by
  simp [isUnset]

/-- A text with an equals sign and no more pieces after it than there is room for sets its variable
to the flat join of the pieces. It fails exactly if one of them is a name that is not set, and the
leftmost such name is to blame. A text of more pieces always fails: at the leftmost such name among
the pieces that are come to, and else because it is nested too deep. -/
theorem execute_textLine {source : String} {tokens : List Token} {statements : List Statement}
    (hscan : Token.scan source = .ok tokens) (hparse : Statement.parse tokens = .ok statements)
    {number : Int} {keyword name equal : Token} {pieces : List Token}
    (hline : onLine tokens number = keyword :: name :: equal :: pieces)
    (hkeyword : keyword.kind = .keyword .text) :
    ∃ statement, statementsOn statements number = [statement] ∧
      (∀ piece ∈ pieces, piece.kind = .value ∨ piece.kind = .identifier) ∧
      ∀ session : Session,
        (pieces.length ≤ session.room →
          ((session.execute statement).2 ≠ none ↔
            ∃ piece ∈ pieces, piece.kind = .identifier ∧
              session.space.get? piece.lexeme = none) ∧
          session.execute statement =
            match pieces.find? (isUnset session.space) with
            | some piece => (session, some (.blame (.unset piece.lexeme) piece.span))
            | none => (session.set name.lexeme (.text (joined session.space pieces)), none)) ∧
        (session.room < pieces.length →
          session.execute statement =
            match (pieces.take (session.room - 1)).find? (isUnset session.space) with
            | some piece => (session, some (.blame (.unset piece.lexeme) piece.span))
            | none => (session, some (.mishap .tooDeep))) := by
  have hne : onLine tokens number ≠ [] := by
    rw [hline]
    exact List.cons_ne_nil _ _
  obtain ⟨line, -, lexed, statement, -, htokens, htree, hstatement⟩ :=
    onLine_of_parse hscan hparse hne
  rw [← htokens, hline] at htree
  cases htree with
  | number hfirst _ _ _ _ =>
    rw [hkeyword] at hfirst
    cases hfirst
  | @text _ _ _ _ value _ _ _ hvalue =>
    refine ⟨_, hstatement, fun piece hpiece => kind_of_mem_textTree hvalue hpiece, ?_⟩
    intro session
    refine ⟨fun hroom => ?_, execute_textTree_of_lt session hvalue⟩
    refine ⟨?_, execute_textTree session hvalue hroom⟩
    rw [execute_textTree session hvalue hroom, ← find?_isUnset_ne_none_iff]
    cases pieces.find? (isUnset session.space) with
    | some piece => simp
    | none => simp

/-- Two words and a name that holds a number. -/
theorem execute_textLine_number :
    ∃ statement, Statement.ofSource "Text x = a b $n$" = .ok [statement] ∧
      Session.execute ⟨⟨[("n", .number 7)]⟩, .empty, .fresh .unlimited, 990⟩ statement =
        (⟨⟨[("n", .number 7), ("x", .text "a b7")]⟩, .empty, .fresh .unlimited, 990⟩, none) := by
  have hscan : Token.scan "Text x = a b $n$" = .ok
      [⟨.keyword .text, "Text", 1, 0, 4⟩, ⟨.identifier, "x", 1, 5, 6⟩, ⟨.equal, "=", 1, 7, 8⟩,
       ⟨.value, "a", 1, 9, 10⟩, ⟨.value, "b", 1, 11, 12⟩, ⟨.identifier, "n", 1, 14, 15⟩,
       ⟨.endOfInput, "", 1, 16, 16⟩] := by cbv
  obtain ⟨statement, hstatement, -, hexecute⟩ := execute_textLine hscan rfl
    (show onLine _ 1 = _ :: _ :: _ :: _ from rfl) rfl
  refine ⟨statement, ?_, ?_⟩
  · simp only [Statement.ofSource, hscan]
    exact congrArg Except.ok hstatement
  · rw [((hexecute _).1 (by decide)).2]
    cbv

/-- A text of a thousand and two hundred words, none of them a name, has no value where there is
room for 990 evaluations. -/
theorem execute_textLine_tooDeep :
    ∃ tokens statement keyword name equal pieces,
      Token.scan (wordSource 1199) = .ok tokens ∧ Statement.parse tokens = .ok [statement] ∧
      onLine tokens 1 = keyword :: name :: equal :: pieces ∧ keyword.kind = .keyword .text ∧
      pieces.length = 1200 ∧ (∀ piece ∈ pieces, piece.kind ≠ .identifier) ∧
      (Session.fresh .empty (.fresh .unlimited) 990).execute statement =
        (Session.fresh .empty (.fresh .unlimited) 990, some (.mishap .tooDeep)) := by
  obtain ⟨tokens, span, keyword, name, equal, pieces, value, hscan, hparse, hline, hkeyword, hvalue,
    hlength, hkind⟩ := exists_tokens_words 1199
  refine ⟨tokens, _, keyword, name, equal, pieces, hscan, hparse, hline, hkeyword, hlength,
    fun piece hpiece => by simp [hkind piece hpiece], ?_⟩
  exact execute_words_of_lt hvalue hkind (by rw [hlength]; decide)

end LineScript.TextJoin
