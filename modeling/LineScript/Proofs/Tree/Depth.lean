import LineScript.Proofs.Grammar
import LineScript.Tree.Evaluate

/-!
# How deep expressions are nested

An evaluation has room for some nested evaluations. An expression that has a value is not deeper
than the room there is (`depth_le_of_eval`), and to one that is not deeper the room does not matter
(`eval_eq_of_depth_le`). There are lines too deep for any room: those of many words
(`exists_tokens_words`) and of many operands (`exists_tokens_ones`).
-/

set_option autoImplicit false

namespace LineScript

open Text Scan Parse

namespace NumberExpr

/-- The number of evaluations that the evaluation of an expression nests. -/
def depth : NumberExpr → Nat
  | binary _ _ left right => max left.depth right.depth + 1
  | _ => 1

theorem depth_pos (expr : NumberExpr) : 1 ≤ expr.depth := by
  cases expr with
  | binary span symbol left right => exact Nat.le_add_left 1 _
  | _ => exact Nat.le_refl 1

theorem depth_le_of_eval {space : Namespace} {room : Nat} {expr : NumberExpr} {n : Int}
    (h : expr.eval space room = .ok n) : expr.depth ≤ room := by
  induction expr generalizing room n with
  | binary span symbol left right ihleft ihright =>
    cases room with
    | zero => cases h
    | succ room =>
      obtain ⟨l, hl, h⟩ := bind_eq_ok_iff.1 h
      obtain ⟨r, hr, -⟩ := bind_eq_ok_iff.1 h
      exact Nat.succ_le_succ (Nat.max_le.2 ⟨ihleft hl, ihright hr⟩)
  | _ =>
    cases room with
    | zero => cases h
    | succ room => exact Nat.succ_le_succ (Nat.zero_le room)

/-- Nothing has a value without room. -/
theorem exists_room {space : Namespace} {room : Nat} {expr : NumberExpr} {n : Int}
    (h : expr.eval space room = .ok n) : ∃ less, room = less + 1 :=
  Nat.exists_eq_add_of_le' (Nat.le_trans expr.depth_pos (depth_le_of_eval h))

theorem eval_eq_of_depth_le {expr : NumberExpr} {room other : Nat} (h : expr.depth ≤ room)
    (hother : expr.depth ≤ other) (space : Namespace) :
    expr.eval space room = expr.eval space other := by
  induction expr generalizing room other with
  | binary span symbol left right ihleft ihright =>
    obtain ⟨room, rfl⟩ := Nat.exists_eq_add_of_le' (Nat.le_trans (depth_pos _) h)
    obtain ⟨other, rfl⟩ := Nat.exists_eq_add_of_le' (Nat.le_trans (depth_pos _) hother)
    obtain ⟨hleft, hright⟩ := Nat.max_le.1 (Nat.le_of_succ_le_succ h)
    obtain ⟨hleft', hright'⟩ := Nat.max_le.1 (Nat.le_of_succ_le_succ hother)
    simp only [eval, ihleft hleft hleft', ihright hright hright']
  | _ =>
    obtain ⟨room, rfl⟩ := Nat.exists_eq_add_of_le' (Nat.le_trans (depth_pos _) h)
    obtain ⟨other, rfl⟩ := Nat.exists_eq_add_of_le' (Nat.le_trans (depth_pos _) hother)
    rfl

/-- With more room there is the same value. -/
theorem eval_of_le {space : Namespace} {room other : Nat} {expr : NumberExpr} {n : Int}
    (hle : room ≤ other) (h : expr.eval space room = .ok n) : expr.eval space other = .ok n := by
  have hdepth := depth_le_of_eval h
  rw [← eval_eq_of_depth_le hdepth (Nat.le_trans hdepth hle), h]

end NumberExpr

namespace TextExpr

/-- The number of evaluations that the evaluation of an expression nests. -/
def depth : TextExpr → Nat
  | concat _ left right => max left.depth right.depth + 1
  | _ => 1

theorem depth_pos (expr : TextExpr) : 1 ≤ expr.depth := by
  cases expr with
  | concat span left right => exact Nat.le_add_left 1 _
  | _ => exact Nat.le_refl 1

theorem depth_le_of_eval {space : Namespace} {room : Nat} {expr : TextExpr} {text : String}
    (h : expr.eval space room = .ok text) : expr.depth ≤ room := by
  induction expr generalizing room text with
  | concat span left right ihleft ihright =>
    cases room with
    | zero => cases h
    | succ room =>
      obtain ⟨l, hl, h⟩ := bind_eq_ok_iff.1 h
      obtain ⟨r, hr, -⟩ := bind_eq_ok_iff.1 h
      exact Nat.succ_le_succ (Nat.max_le.2 ⟨ihleft hl, ihright hr⟩)
  | _ =>
    cases room with
    | zero => cases h
    | succ room => exact Nat.succ_le_succ (Nat.zero_le room)

/-- Nothing has a value without room. -/
theorem exists_room {space : Namespace} {room : Nat} {expr : TextExpr} {text : String}
    (h : expr.eval space room = .ok text) : ∃ less, room = less + 1 :=
  Nat.exists_eq_add_of_le' (Nat.le_trans expr.depth_pos (depth_le_of_eval h))

theorem eval_eq_of_depth_le {expr : TextExpr} {room other : Nat} (h : expr.depth ≤ room)
    (hother : expr.depth ≤ other) (space : Namespace) :
    expr.eval space room = expr.eval space other := by
  induction expr generalizing room other with
  | concat span left right ihleft ihright =>
    obtain ⟨room, rfl⟩ := Nat.exists_eq_add_of_le' (Nat.le_trans (depth_pos _) h)
    obtain ⟨other, rfl⟩ := Nat.exists_eq_add_of_le' (Nat.le_trans (depth_pos _) hother)
    obtain ⟨hleft, hright⟩ := Nat.max_le.1 (Nat.le_of_succ_le_succ h)
    obtain ⟨hleft', hright'⟩ := Nat.max_le.1 (Nat.le_of_succ_le_succ hother)
    simp only [eval, ihleft hleft hleft', ihright hright hright']
  | _ =>
    obtain ⟨room, rfl⟩ := Nat.exists_eq_add_of_le' (Nat.le_trans (depth_pos _) h)
    obtain ⟨other, rfl⟩ := Nat.exists_eq_add_of_le' (Nat.le_trans (depth_pos _) hother)
    rfl

/-- With more room there is the same value. -/
theorem eval_of_le {space : Namespace} {room other : Nat} {expr : TextExpr} {text : String}
    (hle : room ≤ other) (h : expr.eval space room = .ok text) :
    expr.eval space other = .ok text := by
  have hdepth := depth_le_of_eval h
  rw [← eval_eq_of_depth_le hdepth (Nat.le_trans hdepth hle), h]

end TextExpr

/-! ## Lines of many words and of many operands -/

/-- The tokens of a source of one line are those of the line and the one that ends it. -/
theorem scan_and_parse_of_lineTree {source : String} (hfree : '\n' ∉ source.toList)
    {pieces : List Piece} (hcut : LineCut source.toList pieces) {parsed : Statement}
    (htree : LineTree (pieces.map (Piece.place 1 0)) parsed) :
    ∃ tokens, Token.scan source = .ok tokens ∧ Statement.parse tokens = .ok [parsed] ∧
      onLine tokens 1 = pieces.map (Piece.place 1 0) := by
  let line : PlacedLine := ⟨1, 0, source.toList⟩
  have hcut : LineCut line.text pieces := hcut
  have hsource : SourceTree [line] (line.tokens pieces ++ [line.stop true])
      (some parsed).toList := .last hcut htree
  rw [← show placeLines 1 0 (lines source.toList) = [line] by
    rw [lines_of_not_mem hfree]; rfl] at hsource
  obtain ⟨hscan, hparse⟩ := sourceTree_iff.2 hsource
  refine ⟨_, hscan, hparse, ?_⟩
  rw [onLine_append, onLine_stop, List.append_nil]
  exact onLine_tokens hcut

/-- Some words, one more than the given number. -/
def words : Nat → List Char
  | 0 => ['w']
  | count + 1 => 'w' :: ' ' :: words count

theorem exists_textCut_words (count column : Nat) :
    ∃ pieces, TextCut column (words count) pieces ∧ pieces.length = count + 1 ∧
      ∀ piece ∈ pieces, piece.kind = .value := by
  have hword : IsWord ['w'] := List.forall_mem_singleton.2 (by decide)
  induction count generalizing column with
  | zero => exact ⟨_, .word column hword, rfl, List.forall_mem_singleton.2 rfl⟩
  | succ count ih =>
    obtain ⟨more, hmore, hlength, hkind⟩ := ih (column + 1 + 1)
    refine ⟨_, .blank hword (by decide) hmore, ?_, ?_⟩
    · rw [List.length_append, hlength]
      exact Nat.add_comm _ _
    · exact List.forall_mem_append.2 ⟨List.forall_mem_singleton.2 rfl, hkind⟩

theorem newline_not_mem_words (count : Nat) : '\n' ∉ words count := by
  induction count with
  | zero => decide
  | succ count ih => simp [words, ih]

/-- A text assignment of words. -/
def wordSource (count : Nat) : String := "Text x = " ++ String.ofList (words count)

/-- A line that assigns something to a variable of one letter. -/
theorem lineCut_assignment {keyword : Keyword} {tail : List Char} {pieces : List Piece}
    (h : TailCut (keyword.word.toList.length + 3) keyword tail pieces) :
    LineCut (keyword.word.toList ++ " x ".toList ++ tail)
      (⟨.keyword keyword, keyword.word.toList, 0⟩ ::
        ⟨.identifier, ['x'], keyword.word.toList.length + 1⟩ :: pieces) := by
  have hblank : Blanks [' '] := List.forall_mem_singleton.2 (by decide)
  have hname : IsName ['x'] := ⟨List.cons_ne_nil _ _, List.forall_mem_singleton.2 (by decide)⟩
  have htail : TailCut (([] : List Char).length + keyword.word.toList.length + [' '].length +
      ['x'].length + [' '].length) keyword tail pieces := by
    simpa [Nat.add_assoc] using h
  have hline := Grammar.lineCut_of_head blanks_nil hblank (List.cons_ne_nil _ _) hname hblank htail
  simpa [Nat.add_assoc] using hline

/-- There are text assignments of any number of words. -/
theorem exists_tokens_words (count : Nat) :
    ∃ tokens span keyword name equal pieces value,
      Token.scan (wordSource count) = .ok tokens ∧
      Statement.parse tokens = .ok [.text span (target name) value] ∧
      onLine tokens 1 = keyword :: name :: equal :: pieces ∧ keyword.kind = .keyword .text ∧
      TextTree pieces value ∧ pieces.length = count + 1 ∧
      ∀ piece ∈ pieces, piece.kind = .value := by
  obtain ⟨pieces, hcut, hlength, hkind⟩ := exists_textCut_words count 9
  have hblank : isBlank ' ' = true := by decide
  have hline := lineCut_assignment (.text (.blank (List.forall_mem_nil _) hblank hcut))
  have hkinds : ∀ token ∈ pieces.map (Piece.place 1 0), token.kind = .value :=
    List.forall_mem_map.2 hkind
  have hpieces : pieces.map (Piece.place 1 0) ≠ [] := by
    simp [← List.length_pos_iff_ne_nil, hlength]
  obtain ⟨value, hvalue⟩ := exists_textTree hpieces fun token htoken =>
    Or.inl (hkinds token htoken)
  have hsource : (wordSource count).toList =
      Keyword.text.word.toList ++ " x ".toList ++ '=' :: ([] ++ ' ' :: words count) := by
    simp [wordSource, Keyword.word]
  have hfree : '\n' ∉ (wordSource count).toList := by
    simp [wordSource, newline_not_mem_words]
  rw [← hsource] at hline
  obtain ⟨tokens, hscan, hparse, htokens⟩ :=
    scan_and_parse_of_lineTree hfree hline (.text rfl rfl rfl hvalue)
  exact ⟨tokens, _, _, _, _, pieces.map (Piece.place 1 0), value, hscan, hparse, htokens, rfl,
    hvalue, List.length_map _ |>.trans hlength, hkinds⟩

/-- Some operands that are a one, with plus signs between; one more than the given number. -/
def ones : Nat → List Char
  | 0 => ['1']
  | count + 1 => '1' :: '+' :: ones count

/-- A token of such operands. -/
def IsOneOrPlus (token : Token) : Prop :=
  token.kind = .value ∧ token.lexeme = "1" ∨ token.kind = .operator .add

theorem exists_numberCut_ones (count column : Nat) :
    ∃ first rest, NumberCut column (ones count) (first :: rest) ∧ rest.length = 2 * count ∧
      ∀ number offset,
        (∀ token ∈ (first :: rest).map (Piece.place number offset), IsOneOrPlus token) ∧
        NumberLeaf (first.place number offset) (.literal (first.place number offset).span 1) ∧
        ∀ left, ∃ value, ChainTree left (rest.map (Piece.place number offset)) value := by
  have hone : OperandCut column ['1'] ⟨.value, ['1'], column⟩ :=
    .digits (List.cons_ne_nil _ _) (List.forall_mem_singleton.2 (by decide))
  have hread : Integer.read (String.ofList ['1']) = .integer 1 := by decide
  induction count generalizing column with
  | zero =>
    have hcut : NumberCut column ['1'] [⟨.value, ['1'], column⟩] :=
      .last (List.forall_mem_nil _) hone (List.forall_mem_nil _)
    refine ⟨_, [], hcut, rfl, fun number offset => ?_⟩
    exact ⟨List.forall_mem_singleton.2 (Or.inl ⟨rfl, rfl⟩), .literal rfl hread,
      fun left => ⟨left, .done left⟩⟩
  | succ count ih =>
    obtain ⟨next, more, hmore, hlength, htokens⟩ := ih (column + 1 + 1)
      (.digits (List.cons_ne_nil _ _) (List.forall_mem_singleton.2 (by decide)))
    have hcut : NumberCut column (ones (count + 1))
        (⟨.value, ['1'], column⟩ :: ⟨.operator .add, ['+'], column + 1⟩ :: next :: more) :=
      .link .add blanks_nil hone blanks_nil hmore
    refine ⟨_, _, hcut, ?_, ?_⟩
    · simp only [List.length_cons, hlength]
      omega
    · intro number offset
      obtain ⟨hkinds, hleaf, htree⟩ := htokens number offset
      refine ⟨?_, .literal rfl hread, ?_⟩
      · exact List.forall_mem_cons.2 ⟨Or.inl ⟨rfl, rfl⟩,
          List.forall_mem_cons.2 ⟨Or.inr rfl, hkinds⟩⟩
      · intro left
        obtain ⟨value, hvalue⟩ := htree (.binary _ _ left _)
        exact ⟨value, .link rfl hleaf hvalue⟩

theorem newline_not_mem_ones (count : Nat) : '\n' ∉ ones count := by
  induction count with
  | zero => decide
  | succ count ih => simp [ones, ih]

/-- A number assignment of ones. -/
def oneSource (count : Nat) : String := "Zahl x =" ++ String.ofList (ones count)

/-- There are number assignments of any number of operands. -/
theorem exists_tokens_ones (count : Nat) :
    ∃ tokens span keyword name equal first rest leaf value,
      Token.scan (oneSource count) = .ok tokens ∧
      Statement.parse tokens = .ok [.number span (target name) value] ∧
      onLine tokens 1 = keyword :: name :: equal :: first :: rest ∧
      keyword.kind = .keyword .number ∧ NumberLeaf first leaf ∧ ChainTree leaf rest value ∧
      rest.length = 2 * count ∧ ∀ token ∈ first :: rest, IsOneOrPlus token := by
  obtain ⟨first, rest, hcut, hlength, htokens⟩ := exists_numberCut_ones count 8
  obtain ⟨hkinds, hleaf, htree⟩ := htokens 1 0
  obtain ⟨value, hvalue⟩ := htree (.literal (first.place 1 0).span 1)
  have hline := lineCut_assignment (.number hcut)
  have hsource : (oneSource count).toList =
      Keyword.number.word.toList ++ " x ".toList ++ '=' :: ones count := by
    simp [oneSource, Keyword.word]
  have hfree : '\n' ∉ (oneSource count).toList := by
    simp [oneSource, newline_not_mem_ones]
  rw [← hsource] at hline
  obtain ⟨tokens, hscan, hparse, htokens⟩ :=
    scan_and_parse_of_lineTree hfree hline (.number rfl rfl rfl hleaf hvalue)
  exact ⟨tokens, _, _, _, _, _, _, _, value, hscan, hparse, htokens, rfl, hleaf, hvalue,
    List.length_map _ |>.trans hlength, hkinds⟩

end LineScript
