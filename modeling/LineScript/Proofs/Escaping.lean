import LineScript.Proofs.Grammar
import LineScript.Proofs.Session.Outcome

/-!
# Texts with doubled dollar signs

A text can be written down in a program by doubling its dollar signs. The scanner ends a word at
each doubled sign, so the text comes apart into more pieces than it has words; the evaluation puts
no space after a piece that ends with a dollar sign, and this is where these pieces go together
again. A space between two words of the text is kept unless the first of them ends with a dollar
sign itself. `Worded` follows the scanner through the text before its signs are doubled, and
`pieceCount` counts the pieces. Main statement: `interpret_escape`, the assignment of a text whose
signs are doubled sets the variable to the text if there is room for its pieces, and fails if there
is not.
-/

set_option autoImplicit false

namespace LineScript

open Text Scan Parse TextJoin

namespace Text

/-- A text with each of its dollar signs doubled. -/
def escape (cs : List Char) : List Char :=
  cs.flatMap fun c => if c = '$' then ['$', '$'] else [c]

/-- A text of words with one space between each two of them and no other white space. A word may end
with a dollar sign only if it is the last one. -/
structure Spaced (cs : List Char) : Prop where
  word : ∀ word ∈ cs.splitOn ' ', word ≠ [] ∧ ∀ c ∈ word, isSpace c = false
  dollar : ∀ word ∈ (cs.splitOn ' ').dropLast, word.getLast? ≠ some '$'

/-- The number of pieces that a text comes apart into when its dollar signs are doubled. Each dollar
sign and each space ends a piece, and so does the end of the text where no dollar sign stands. -/
def pieceCount (cs : List Char) : Nat :=
  cs.countP (fun c => c = '$' ∨ c = ' ') + if cs = [] ∨ cs.getLast? = some '$' then 0 else 1

theorem escape_append (front back : List Char) :
    escape (front ++ back) = escape front ++ escape back :=
  List.flatMap_append

theorem escape_dollar (cs : List Char) : escape ('$' :: cs) = '$' :: '$' :: escape cs := rfl

theorem escape_space (cs : List Char) : escape (' ' :: cs) = ' ' :: escape cs := rfl

/-- Doubling adds no characters but dollar signs. -/
theorem mem_escape_iff {c : Char} {cs : List Char} : c ∈ escape cs ↔ c ∈ cs := by
  simp only [escape, List.mem_flatMap]
  constructor
  · rintro ⟨d, hd, hc⟩
    split at hc
    · next hdollar =>
      subst hdollar
      simp only [List.mem_cons, List.not_mem_nil, or_false, or_self] at hc
      exact hc ▸ hd
    · exact List.mem_singleton.1 hc ▸ hd
  · intro hc
    refine ⟨c, hc, ?_⟩
    split
    · next hdollar => exact hdollar ▸ List.mem_cons_self
    · exact List.mem_cons_self

end Text

namespace Scan

/-- Nothing but characters that are neither white space nor dollar signs. -/
def Plain (cs : List Char) : Prop := ∀ c ∈ cs, isSpace c = false ∧ c ≠ '$'

theorem plain_nil : Plain [] := List.forall_mem_nil _

theorem Plain.cons {c : Char} {cs : List Char} (hspace : isSpace c = false) (hdollar : c ≠ '$')
    (h : Plain cs) : Plain (c :: cs) :=
  List.forall_mem_cons.2 ⟨⟨hspace, hdollar⟩, h⟩

theorem Plain.isWord {cs : List Char} (h : Plain cs) : IsWord cs := by
  intro c hc
  obtain ⟨hspace, hdollar⟩ := h c hc
  exact isWordChar_eq_true_iff.2 ⟨by simp [isBlank, hspace], hdollar⟩

theorem Plain.escape_eq {cs : List Char} (h : Plain cs) : escape cs = cs := by
  induction cs with
  | nil => rfl
  | cons c cs ih =>
    obtain ⟨⟨-, hc⟩, hcs⟩ := List.forall_mem_cons.1 h
    calc escape (c :: cs) = (if c = '$' then ['$', '$'] else [c]) ++ escape cs := rfl
      _ = c :: cs := by rw [if_neg hc, ih hcs, List.singleton_append]

theorem Plain.getLast?_ne_dollar {cs : List Char} (h : Plain cs) : cs.getLast? ≠ some '$' :=
  fun hlast => (h '$' (List.mem_of_getLast? hlast)).2 rfl

theorem Plain.countP_eq_zero {cs : List Char} (h : Plain cs) :
    cs.countP (fun c => c = '$' ∨ c = ' ') = 0 := by
  apply List.countP_eq_zero.2
  intro c hc
  obtain ⟨hspace, hdollar⟩ := h c hc
  have hne : c ≠ ' ' := by
    rintro rfl
    exact absurd hspace (by decide)
  simp [hdollar, hne]

theorem Plain.pieceCount_eq (column : Nat) {word : List Char} (h : Plain word) :
    pieceCount word = (wordPiece column word).length := by
  rw [pieceCount, h.countP_eq_zero, wordPiece]
  cases word with
  | nil => rfl
  | cons c word => simp [h.getLast?_ne_dollar]

theorem Plain.pieceCount_dollar {word : List Char} (h : Plain word) (rest : List Char) :
    pieceCount (word ++ '$' :: rest) = pieceCount rest + 1 := by
  have hlast : (word ++ '$' :: rest).getLast? = some '$' ↔
      rest = [] ∨ rest.getLast? = some '$' := by
    cases rest <;> simp
  simp only [pieceCount, List.countP_append, h.countP_eq_zero, List.countP_cons, hlast]
  simp
  omega

theorem Plain.pieceCount_space {word rest : List Char} (h : Plain word) (hne : rest ≠ []) :
    pieceCount (word ++ ' ' :: rest) = pieceCount rest + 1 := by
  obtain ⟨c, rest, rfl⟩ := List.exists_cons_of_ne_nil hne
  have hlast : (word ++ ' ' :: c :: rest).getLast? = (c :: rest).getLast? := by
    rw [List.getLast?_append_of_ne_nil _ (List.cons_ne_nil _ _), List.getLast?_cons_cons]
  simp only [pieceCount, List.countP_append, h.countP_eq_zero, hlast]
  rw [List.countP_cons]
  simp
  omega

/-- A text in the steps of its scanner: the last word, a word up to a dollar sign, or a word up to a
space. A space has a character of a word before it and a text after it. -/
inductive Worded : List Char → Prop
  | word {word : List Char} (hword : Plain word) : Worded word
  | dollar {word rest : List Char} (hword : Plain word) (hrest : Worded rest) :
      Worded (word ++ '$' :: rest)
  | space {word rest : List Char} (hword : Plain word) (hne : word ≠ []) (hrest : Worded rest)
      (hnext : rest ≠ []) : Worded (word ++ ' ' :: rest)

theorem Worded.eq_space {cs : List Char} (h : Worded cs) {c : Char} (hc : c ∈ cs)
    (hspace : isSpace c = true) : c = ' ' := by
  have hplain : ∀ word, Plain word → c ∉ word := by
    intro word hword hmem
    exact Bool.false_ne_true ((hword c hmem).1.symm.trans hspace)
  induction h with
  | word hword => exact absurd hc (hplain _ hword)
  | dollar hword _ ih =>
    rcases List.mem_append.1 hc with hc | hc
    · exact absurd hc (hplain _ hword)
    · rcases List.mem_cons.1 hc with rfl | hc
      · exact absurd hspace (by decide)
      · exact ih hc
  | space hword _ _ _ ih =>
    rcases List.mem_append.1 hc with hc | hc
    · exact absurd hc (hplain _ hword)
    · rcases List.mem_cons.1 hc with rfl | hc
      · rfl
      · exact ih hc

/-! ## Words with spaces between -/

/-- A character in front of a text makes the first word of the text longer. -/
theorem Worded.cons {c : Char} {cs : List Char} (hspace : isSpace c = false) (hdollar : c ≠ '$')
    (h : Worded cs) : Worded (c :: cs) := by
  cases h with
  | word hword => exact .word (hword.cons hspace hdollar)
  | dollar hword hrest => exact .dollar (hword.cons hspace hdollar) hrest
  | space hword _ hrest hnext =>
    exact .space (hword.cons hspace hdollar) (List.cons_ne_nil _ _) hrest hnext

theorem Worded.append {front cs : List Char} (hfront : ∀ c ∈ front, isSpace c = false)
    (h : Worded cs) : Worded (front ++ cs) := by
  induction front with
  | nil => exact h
  | cons c front ih =>
    obtain ⟨hspace, hrest⟩ := List.forall_mem_cons.1 hfront
    by_cases hdollar : c = '$'
    · rw [hdollar]
      exact .dollar plain_nil (ih hrest)
    · exact (ih hrest).cons hspace hdollar

/-- A word that does not end with a dollar sign goes in front of a text, with a space between. -/
theorem Worded.append_space {word cs : List Char} (hne : word ≠ [])
    (hword : ∀ c ∈ word, isSpace c = false) (hlast : word.getLast? ≠ some '$') (h : Worded cs)
    (hcs : cs ≠ []) : Worded (word ++ ' ' :: cs) := by
  -- Only the last character has to be one of a word; dollar signs before it end words on their own.
  obtain ⟨front, c, rfl⟩ := (List.eq_nil_or_concat' word).resolve_left hne
  obtain ⟨hfront, hspace⟩ := List.forall_mem_append.1 hword
  have hdollar : c ≠ '$' := fun hc => hlast (by rw [hc, List.getLast?_concat])
  have hplain : Plain [c] := plain_nil.cons (hspace c List.mem_cons_self) hdollar
  rw [List.append_assoc]
  exact .append hfront (.space hplain (List.cons_ne_nil _ _) h hcs)

theorem worded_intercalate {words : List (List Char)} (hne : words ≠ [])
    (hwords : ∀ word ∈ words, word ≠ [] ∧ ∀ c ∈ word, isSpace c = false)
    (hdollar : ∀ word ∈ words.dropLast, word.getLast? ≠ some '$') :
    [' '].intercalate words ≠ [] ∧ Worded ([' '].intercalate words) := by
  induction words with
  | nil => exact absurd rfl hne
  | cons word words ih =>
    obtain ⟨⟨hword, hspace⟩, hwords⟩ := List.forall_mem_cons.1 hwords
    cases words with
    | nil =>
      rw [List.intercalate_singleton]
      refine ⟨hword, ?_⟩
      rw [← List.append_nil word]
      exact .append hspace (.word plain_nil)
    | cons next words =>
      rw [List.dropLast_cons_cons] at hdollar
      obtain ⟨hlast, hdollar⟩ := List.forall_mem_cons.1 hdollar
      obtain ⟨hnext, hworded⟩ := ih (List.cons_ne_nil _ _) hwords hdollar
      rw [List.intercalate_cons_cons, List.append_assoc]
      exact ⟨by simp [hword], .append_space hword hspace hlast hworded hnext⟩

theorem worded_of_spaced {cs : List Char} (h : Spaced cs) : cs ≠ [] ∧ Worded cs := by
  have hworded := worded_intercalate (List.splitOn_ne_nil ' ' cs) h.word h.dollar
  rwa [List.intercalate_splitOn] at hworded

end Scan

/-! ## Scanning and joining -/

namespace TextJoin

theorem joined_cons_of_dollar (space : Namespace) {piece : Token} (hkind : piece.kind = .value)
    (hlast : piece.lexeme.toList.getLast? = some '$') (rest : List Token) :
    joined space (piece :: rest) = piece.lexeme ++ joined space rest := by
  have hfragment : fragment space piece = piece.lexeme := by simp [fragment, hkind]
  cases rest with
  | nil => rw [joined_singleton, hfragment, joined, String.append_empty]
  | cons next rest =>
    have hseparator : separator piece next = "" := by simp [separator, hlast]
    rw [joined_cons_cons, hfragment, hseparator, String.append_empty]

theorem joined_cons_of_word (space : Namespace) {piece : Token} (hkind : piece.kind = .value)
    (hlast : piece.lexeme.toList.getLast? ≠ some '$') {rest : List Token} (hne : rest ≠ [])
    (hrest : ∀ next ∈ rest, next.kind = .value) :
    joined space (piece :: rest) = piece.lexeme ++ " " ++ joined space rest := by
  have hfragment : fragment space piece = piece.lexeme := by simp [fragment, hkind]
  obtain ⟨next, rest, rfl⟩ := List.exists_cons_of_ne_nil hne
  have hnext := hrest next List.mem_cons_self
  have hseparator : separator piece next = " " := by simp [separator, hkind, hnext, hlast]
  rw [joined_cons_cons, hfragment, hseparator]

end TextJoin

/-- Pieces that are words and join to a text, wherever their line stands. -/
structure Scan.JoinsTo (pieces : List Piece) (cs : List Char) : Prop where
  kind : ∀ number offset, ∀ token ∈ pieces.map (Piece.place number offset), token.kind = .value
  joined : ∀ space number offset,
    joined space (pieces.map (Piece.place number offset)) = String.ofList cs

theorem Scan.JoinsTo.ne_nil {cs : List Char} {pieces : List Piece} (h : JoinsTo pieces cs)
    (hcs : cs ≠ []) : pieces ≠ [] := by
  rintro rfl
  exact hcs (String.ofList_eq_empty_iff.1 (h.joined .empty 1 0).symm)

theorem Scan.JoinsTo.singleton (column : Nat) (word : List Char) :
    JoinsTo [⟨.value, word, column⟩] word :=
  ⟨fun _ _ => List.forall_mem_singleton.2 rfl, fun space _ _ => joined_singleton space _⟩

theorem Scan.JoinsTo.dollar (column : Nat) (word : List Char) {rest : List Char}
    {more : List Piece} (h : JoinsTo more rest) :
    JoinsTo (⟨.value, word ++ ['$'], column⟩ :: more) (word ++ '$' :: rest) := by
  refine ⟨fun number offset => List.forall_mem_cons.2 ⟨rfl, h.kind number offset⟩, ?_⟩
  intro space number offset
  rw [List.map_cons, joined_cons_of_dollar space rfl (by simp [Piece.place]), h.joined,
    ← String.toList_inj]
  simp [Piece.place]

theorem Scan.JoinsTo.space (column : Nat) {word rest : List Char}
    (hlast : word.getLast? ≠ some '$') (hne : rest ≠ []) {more : List Piece}
    (h : JoinsTo more rest) :
    JoinsTo (⟨.value, word, column⟩ :: more) (word ++ ' ' :: rest) := by
  refine ⟨fun number offset => List.forall_mem_cons.2 ⟨rfl, h.kind number offset⟩, ?_⟩
  intro space number offset
  have hmore : more.map (Piece.place number offset) ≠ [] := by simpa using h.ne_nil hne
  rw [List.map_cons, joined_cons_of_word space rfl (by simpa [Piece.place] using hlast) hmore
    (h.kind number offset), h.joined, ← String.toList_inj]
  simp [Piece.place]

/-- A text with doubled dollar signs is cut into its pieces, and these join to the text. -/
theorem Scan.Worded.exists_textCut {cs : List Char} (h : Worded cs) (column : Nat) :
    ∃ pieces, TextCut column (escape cs) pieces ∧ pieces.length = pieceCount cs ∧
      JoinsTo pieces cs := by
  induction h generalizing column with
  | @word word hword =>
    rw [hword.escape_eq]
    refine ⟨_, .word column hword.isWord, (hword.pieceCount_eq column).symm, ?_⟩
    cases word with
    | nil => exact ⟨fun _ _ => List.forall_mem_nil _, fun _ _ _ => rfl⟩
    | cons c word => exact .singleton column (c :: word)
  | @dollar word rest hword _ ih =>
    obtain ⟨more, hcut, hlength, hmore⟩ := ih (column + word.length + 2)
    rw [escape_append, hword.escape_eq, escape_dollar, hword.pieceCount_dollar, ← hlength]
    exact ⟨_, .dollar hword.isWord hcut, rfl, hmore.dollar column word⟩
  | @space word rest hword hne _ hnext ih =>
    obtain ⟨more, hcut, hlength, hmore⟩ := ih (column + word.length + 1)
    rw [escape_append, hword.escape_eq, escape_space, hword.pieceCount_space hnext, ← hlength]
    have hpiece : wordPiece column word = [⟨.value, word, column⟩] :=
      if_neg (by simpa using hne)
    have htext := TextCut.blank hword.isWord (show isBlank ' ' = true by decide) hcut
    rw [hpiece] at htext
    exact ⟨_, htext, rfl, hmore.space column hword.getLast?_ne_dollar hnext⟩

/-! ## Assignments -/

/-- The assignment of a text with doubled dollar signs is a line that is cut into a keyword, the
name, an equals sign and pieces that join to the text. -/
theorem exists_lineCut_escape {name text : List Char} (hname : IsName name)
    (htext : Worded text) :
    ∃ start column pieces, pieces.length = pieceCount text ∧ JoinsTo pieces text ∧
      LineCut ("Text ".toList ++ name ++ " = ".toList ++ escape text)
        (⟨.keyword .text, Keyword.text.word.toList, 0⟩ :: ⟨.identifier, name, start⟩ ::
          ⟨.equal, ['='], column⟩ :: pieces) := by
  have hblank : Blanks [' '] := List.forall_mem_singleton.2 (by decide)
  let column := Keyword.text.word.toList.length + 1 + name.length + 1
  obtain ⟨pieces, hcut, hlength, hpieces⟩ := htext.exists_textCut (column + 1 + 1)
  have htail : TailCut column .text ('=' :: ' ' :: escape text)
      (⟨.equal, ['='], column⟩ :: pieces) :=
    .text (.blank (List.forall_mem_nil _) (by decide) hcut)
  have hline : LineCut ([] ++ (Keyword.text.word.toList ++ ([' '] ++ (name ++ [' ']))) ++ _) _ :=
    Grammar.lineCut_of_head blanks_nil hblank (List.cons_ne_nil _ _) hname hblank
      (by simpa [column] using htail)
  have hsource : "Text ".toList ++ name ++ " = ".toList ++ escape text =
      [] ++ (Keyword.text.word.toList ++ ([' '] ++ (name ++ [' ']))) ++
        '=' :: ' ' :: escape text := by
    simp [Keyword.word]
  rw [hsource]
  exact ⟨_, _, pieces, hlength, hpieces, hline⟩

theorem newline_not_mem_escape {name text : List Char} (hname : IsName name)
    (htext : Worded text) : '\n' ∉ "Text ".toList ++ name ++ " = ".toList ++ escape text := by
  simp only [List.mem_append, mem_escape_iff, not_or]
  refine ⟨⟨⟨by decide, ?_⟩, by decide⟩, ?_⟩
  · intro hmem
    exact absurd (hname.2 _ hmem) (by decide)
  · intro hmem
    exact absurd (htext.eq_space hmem isSpace_newline) (by decide)

/-- The assignment of a text with doubled dollar signs is a program of one statement, and the tree
of its value has leaves that join to the text. -/
theorem exists_ofSource_escape {name text : String} (hname : IsName name.toList)
    (htext : Spaced text.toList) :
    ∃ span token pieces value, token.lexeme = name ∧
      pieces.length = pieceCount text.toList ∧ JoinsTo pieces text.toList ∧
      TextTree (pieces.map (Piece.place 1 0)) value ∧
      Statement.ofSource ("Text " ++ name ++ " = " ++ String.ofList (escape text.toList)) =
        .ok [.text span (target token) value] := by
  obtain ⟨hne, hworded⟩ := worded_of_spaced htext
  obtain ⟨start, column, pieces, hlength, hpieces, hcut⟩ := exists_lineCut_escape hname hworded
  obtain ⟨value, hvalue⟩ := exists_textTree (by simpa using hpieces.ne_nil hne)
    fun token htoken => Or.inl (hpieces.kind 1 0 token htoken)
  have hlexeme : (Piece.place 1 0 ⟨.identifier, name.toList, start⟩).lexeme = name :=
    String.ofList_toList
  have hchars : ("Text " ++ name ++ " = " ++ String.ofList (escape text.toList)).toList =
      "Text ".toList ++ name.toList ++ " = ".toList ++ escape text.toList := by
    simp only [String.toList_append, String.toList_ofList]
  have hfree := newline_not_mem_escape hname hworded
  rw [← hchars] at hcut hfree
  exact ⟨_, _, pieces, value, hlexeme, hlength, hpieces, hvalue,
    ofSource_of_lineTree hfree hcut (.text rfl rfl rfl hvalue)⟩

/-- If there is room for its pieces, the assignment of a text with doubled dollar signs sets the
variable to the text, and leaves the other variables and both streams as they are. If there is not,
it fails and leaves everything as it is. -/
theorem interpret_escape (session : Session) {name text : String} (hname : IsName name.toList)
    (htext : Spaced text.toList) :
    (pieceCount text.toList ≤ session.room →
      ∃ after,
        session.interpret ("Text " ++ name ++ " = " ++ String.ofList (escape text.toList)) =
          (after, none) ∧
        after.space.get? name = some (.text text) ∧
        (∀ other, other ≠ name → after.space.get? other = session.space.get? other) ∧
        after.input = session.input ∧ after.output = session.output) ∧
      (session.room < pieceCount text.toList →
        session.interpret ("Text " ++ name ++ " = " ++ String.ofList (escape text.toList)) =
          (session, some (.mishap .tooDeep))) := by
  obtain ⟨span, token, pieces, value, rfl, hlength, hpieces, hvalue, hsource⟩ :=
    exists_ofSource_escape hname htext
  have hkind : ∀ piece ∈ pieces.map (Piece.place 1 0), piece.kind = .value := hpieces.kind 1 0
  rw [← hlength, ← List.length_map (Piece.place 1 0), interpret_of_ok session hsource,
    Session.run_singleton]
  refine ⟨fun hroom => ?_, fun hroom => execute_words_of_lt hvalue hkind hroom⟩
  have hset : (pieces.map (Piece.place 1 0)).find? (isUnset session.space) = none := by
    refine List.find?_eq_none.2 fun piece hpiece => ?_
    simp [isUnset, hkind piece hpiece]
  refine ⟨session.set token.lexeme (.text text), ?_, ?_, ?_, rfl, rfl⟩
  · rw [execute_textTree session hvalue hroom, hset, hpieces.joined, String.ofList_toList]
  · exact (Namespace.get?_set _ _ _ _).trans (if_pos rfl)
  · intro other hother
    exact (Namespace.get?_set _ _ _ _).trans (if_neg hother.symm)

/-- A text with dollar signs at the front, inside and at the end, for a name that is set already. -/
theorem interpret_escape_dollars :
    ∃ after,
      Session.interpret ⟨⟨[("b", .number 7), ("x", .text "")]⟩, .empty, .fresh .unlimited, 990⟩
        "Text x = $$b a$$$$b c$$" = (after, none) ∧
      after.space.get? "x" = some (.text "$b a$$b c$") ∧
      after.space.get? "b" = some (.number 7) := by
  have hwords : "$b a$$b c$".toList.splitOn ' ' = [['$', 'b'], ['a', '$', '$', 'b'], ['c', '$']] :=
    by decide
  have htext : Spaced "$b a$$b c$".toList := by
    refine ⟨?_, by decide⟩
    rw [hwords]
    simp [isSpace, spaceRanges, Ranges.holds]
  have hname : IsName "x".toList := ⟨by decide, List.forall_mem_singleton.2 (by decide)⟩
  have hescape : "Text " ++ "x" ++ " = " ++ String.ofList (escape "$b a$$b c$".toList) =
      "Text x = $$b a$$$$b c$$" := by decide
  obtain ⟨after, hafter, hx, hothers, -, -⟩ := (interpret_escape
    ⟨⟨[("b", .number 7), ("x", .text "")]⟩, .empty, .fresh .unlimited, 990⟩ hname htext).1
    (by decide)
  rw [hescape] at hafter
  exact ⟨after, hafter, hx, (hothers "b" (by decide)).trans (by decide)⟩

theorem words_eq_intercalate (count : Nat) :
    words count = [' '].intercalate (List.replicate (count + 1) ['w']) := by
  induction count with
  | zero => rfl
  | succ count ih => rw [List.replicate_succ, List.replicate_succ, List.intercalate_cons_cons,
      ← List.replicate_succ, ← ih, words, List.append_assoc, List.singleton_append,
      List.singleton_append]

theorem spaced_words (count : Nat) : Spaced (words count) := by
  have hsplit : (words count).splitOn ' ' = List.replicate (count + 1) ['w'] := by
    rw [words_eq_intercalate]
    apply List.splitOn_intercalate
    · intro word hword
      rw [List.eq_of_mem_replicate hword]
      decide
    · exact List.cons_ne_nil _ _
  constructor
  · rw [hsplit]
    intro word hword
    rw [List.eq_of_mem_replicate hword]
    exact ⟨List.cons_ne_nil _ _, List.forall_mem_singleton.2 (by decide)⟩
  · rw [hsplit]
    intro word hword
    rw [List.eq_of_mem_replicate (List.mem_of_mem_dropLast hword)]
    decide

theorem escape_words (count : Nat) : escape (words count) = words count := by
  induction count with
  | zero => rfl
  | succ count ih =>
    calc escape (words (count + 1)) = 'w' :: ' ' :: escape (words count) := rfl
      _ = words (count + 1) := by rw [ih, words]

/-- A text of a thousand and two hundred words without dollar signs cannot be assigned where there
is room for 990 evaluations. -/
theorem interpret_escape_tooDeep :
    Spaced (words 1199) ∧ IsName ['x'] ∧
      (Session.fresh .empty (.fresh .unlimited) 990).interpret
          ("Text " ++ "x" ++ " = " ++ String.ofList (escape (words 1199))) =
        (.fresh .empty (.fresh .unlimited) 990, some (.mishap .tooDeep)) := by
  refine ⟨spaced_words 1199, ⟨List.cons_ne_nil _ _, List.forall_mem_singleton.2 (by decide)⟩, ?_⟩
  rw [escape_words]
  exact (interpret_words_of_lt _ (show 990 ≤ 1199 by decide)).2

-- The space after a word that ends with a dollar sign is lost.
example : ((Session.fresh .empty (.fresh .unlimited) 990).interpret "Text x = a$$ b").1.space =
    ⟨[("x", .text "a$b")]⟩ := by cbv

end LineScript
