import LineScript.Proofs.Concatenation

/-!
# Blanks between words

How many blanks stand between two words, and which, makes no difference to the scanner, and blanks
at the ends of a line make none at all. `squeeze` puts a single space between the words of every
line. The proofs are about `settle`, which does the same for the rest of a line from any place on:
every scanner takes the same words from a settled text as from the text, and leaves the settled
rest (`reference_settle`, `textPieces_settle`, `operand_settle`, `numberPieces_settle`,
`tailPieces_settle`, `statementPieces_settle`). Columns do differ, so what is compared are the kinds
and texts of the pieces and the causes of the flaws (`Scan.SameWords`, `Scan.Parallel`). Main
statement: `Token.scan_squeeze`.
-/

set_option autoImplicit false

namespace LineScript

namespace Text

/-! ## Squeezed texts -/

/-- The words of a line: its longest runs without blanks. -/
def words (line : List Char) : List (List Char) :=
  (line.splitOnP isBlank).filter fun word => !word.isEmpty

/-- A line with one space between two words, however many blanks there are, and none at its ends. -/
def squeezeLine (line : List Char) : List Char :=
  [' '].intercalate (words line)

/-- A text with each of its lines squeezed. -/
def squeeze (cs : List Char) : List Char :=
  ['\n'].intercalate ((lines cs).map squeezeLine)

/-! ## Settled texts -/

/-- A text with a space in front, unless it is empty or starts with a blank. -/
def spaced : List Char → List Char
  | [] => []
  | c :: cs => if isBlank c then c :: cs else ' ' :: c :: cs

/-- A text with one space for each run of blanks, and for none at the end. -/
def settle : List Char → List Char
  | [] => []
  | c :: cs => if isBlank c then spaced (settle cs) else c :: settle cs

theorem isBlank_space : isBlank ' ' = true := by decide

theorem settle_blank {c : Char} (hc : isBlank c = true) (cs : List Char) :
    settle (c :: cs) = spaced (settle cs) := by
  simp [settle, hc]

theorem settle_solid {c : Char} (hc : isBlank c = false) (cs : List Char) :
    settle (c :: cs) = c :: settle cs := by
  simp [settle, hc]

theorem settle_append {run : List Char} (hrun : ∀ c ∈ run, isBlank c = false) (rest : List Char) :
    settle (run ++ rest) = run ++ settle rest := by
  induction run with
  | nil => rfl
  | cons c run ih =>
    rw [List.cons_append, settle_solid (hrun c List.mem_cons_self),
      ih fun d hd => hrun d (List.mem_cons_of_mem c hd), List.cons_append]

/-- A spaced text is empty or starts with a blank. -/
theorem leaves_spaced {p : Char → Bool} (hp : ∀ c, isBlank c = true → p c = false)
    (cs : List Char) : Leaves p (spaced cs) := by
  cases cs with
  | nil => exact leaves_nil p
  | cons c cs =>
    simp only [spaced]
    split
    · next hc => exact leaves_cons_iff.2 (hp c hc)
    · exact leaves_cons_iff.2 (hp ' ' isBlank_space)

theorem leaves_settle {p : Char → Bool} (hp : ∀ c, isBlank c = true → p c = false)
    {cs : List Char} (h : Leaves p cs) : Leaves p (settle cs) := by
  cases cs with
  | nil => exact h
  | cons c cs =>
    by_cases hc : isBlank c = true
    · rw [settle_blank hc]
      exact leaves_spaced hp _
    · rw [settle_solid (Bool.eq_false_iff.2 hc)]
      exact leaves_cons_iff.2 (leaves_cons_iff.1 h)

/-- A class without blanks has the same run at the front of a text and of the settled text, and
what follows is settled as well. -/
theorem exists_settled_run {p : Char → Bool} (hp : ∀ c, isBlank c = true → p c = false)
    (cs : List Char) :
    ∃ run rest, cs = run ++ rest ∧ settle cs = run ++ settle rest ∧ (∀ c ∈ run, p c = true) ∧
      Leaves p rest ∧ Leaves p (settle rest) := by
  obtain ⟨run, rest, rfl, hrun, hrest⟩ := exists_run p cs
  have hsolid : ∀ c ∈ run, isBlank c = false := by
    intro c hc
    apply Bool.eq_false_iff.2
    intro hblank
    exact Bool.false_ne_true ((hp c hblank).symm.trans (hrun c hc))
  exact ⟨run, rest, rfl, settle_append hsolid rest, hrun, hrest, leaves_settle hp hrest⟩

theorem takeWhile_settle {p : Char → Bool} (hp : ∀ c, isBlank c = true → p c = false)
    (cs : List Char) : (settle cs).takeWhile p = cs.takeWhile p := by
  obtain ⟨run, rest, rfl, hsettle, hrun, hrest, hleaves⟩ := exists_settled_run hp cs
  rw [hsettle, takeWhile_run hrun hleaves, takeWhile_run hrun hrest]

theorem dropWhile_settle {p : Char → Bool} (hp : ∀ c, isBlank c = true → p c = false)
    (cs : List Char) : (settle cs).dropWhile p = settle (cs.dropWhile p) := by
  obtain ⟨run, rest, rfl, hsettle, hrun, hrest, hleaves⟩ := exists_settled_run hp cs
  rw [hsettle, dropWhile_run hrun hleaves, dropWhile_run hrun hrest]

theorem drop_settle {p : Char → Bool} (hp : ∀ c, isBlank c = true → p c = false)
    (cs : List Char) :
    (settle cs).drop (cs.takeWhile p).length = settle (cs.drop (cs.takeWhile p).length) := by
  obtain ⟨run, rest, rfl, hsettle, hrun, hrest, -⟩ := exists_settled_run hp cs
  rw [hsettle, takeWhile_run hrun hrest, List.drop_left, List.drop_left]

/-! ## Words of settled texts -/

theorem leaves_front {p : Char → Bool} {w : List Char} (hne : w ≠ []) (h : Leaves p w)
    (rest : List Char) : Leaves p (w ++ rest) := by
  cases w with
  | nil => exact absurd rfl hne
  | cons c w => exact leaves_cons_iff.2 (leaves_cons_iff.1 h)

/-- Words with a space in front of each. -/
def spacedWords (ws : List (List Char)) : List Char :=
  ws.flatMap (' ' :: ·)

theorem spaced_spacedWords (ws : List (List Char)) : spaced (spacedWords ws) = spacedWords ws := by
  cases ws with
  | nil => rfl
  | cons w ws => simp [spacedWords, spaced, isBlank_space]

theorem append_spacedWords (w : List Char) (ws : List (List Char)) :
    w ++ spacedWords ws = [' '].intercalate (w :: ws) := by
  induction ws generalizing w with
  | nil => rw [List.intercalate_singleton, spacedWords, List.flatMap_nil, List.append_nil]
  | cons v ws ih =>
    rw [List.intercalate_cons_cons, ← ih, spacedWords, List.flatMap_cons, ← spacedWords]
    simp

/-- A settled text is made of what stands before the first blank and of the words after it. -/
theorem exists_split (cs : List Char) :
    ∃ first others, cs.splitOnP isBlank = first :: others ∧
      (∀ w ∈ first :: others, Leaves isBlank w) ∧
      settle cs = first ++ spacedWords (others.filter fun word => !word.isEmpty) := by
  induction cs with
  | nil => exact ⟨[], [], List.splitOnP_nil, by simp [leaves_nil], rfl⟩
  | cons c cs ih =>
    obtain ⟨first, others, hsplit, hleaves, hsettle⟩ := ih
    rw [List.splitOnP_cons_eq_if_modifyHead, hsplit]
    by_cases hc : isBlank c = true
    · refine ⟨[], first :: others, by simp [hc], ?_, ?_⟩
      · intro w hw
        rcases List.mem_cons.1 hw with rfl | hw
        · exact leaves_nil _
        · exact hleaves w hw
      · rw [settle_blank hc, hsettle]
        cases first with
        | nil => simp [spaced_spacedWords]
        | cons d first =>
          have hd : isBlank d = false := leaves_cons_iff.1 (hleaves _ List.mem_cons_self)
          simp [spaced, spacedWords, hd]
    · have hsolid : isBlank c = false := Bool.eq_false_iff.2 hc
      refine ⟨c :: first, others, by simp [hsolid], ?_, ?_⟩
      · intro w hw
        rcases List.mem_cons.1 hw with rfl | hw
        · exact leaves_cons_iff.2 hsolid
        · exact hleaves w (List.mem_cons_of_mem _ hw)
      · rw [settle_solid hsolid, hsettle, List.cons_append]

end Text

namespace Scan

open Text

theorem leaves_skipBlanks (cs : List Char) : Leaves isBlank (skipBlanks cs) :=
  leaves_dropWhile isBlank cs

theorem skipBlanks_of_leaves {cs : List Char} (h : Leaves isBlank cs) : skipBlanks cs = cs :=
  skipBlanks_append blanks_nil h

theorem skipBlanks_spaced (cs : List Char) : skipBlanks (spaced cs) = skipBlanks cs := by
  cases cs with
  | nil => rfl
  | cons c cs =>
    simp only [spaced]
    split
    · rfl
    · exact List.dropWhile_cons_of_pos isBlank_space

theorem skipBlanks_settle (cs : List Char) : skipBlanks (settle cs) = settle (skipBlanks cs) := by
  induction cs with
  | nil => rfl
  | cons c cs ih =>
    by_cases hc : isBlank c = true
    · rw [settle_blank hc, skipBlanks_spaced, ih, skipBlanks, skipBlanks,
        List.dropWhile_cons_of_pos hc]
    · have hsolid : isBlank c = false := Bool.eq_false_iff.2 hc
      rw [skipBlanks_of_leaves (leaves_cons_iff.2 hsolid), settle_solid hsolid,
        skipBlanks_of_leaves (leaves_cons_iff.2 hsolid)]

/-- The blanks in front of spaced words are the one space. -/
theorem skipBlanks_spacedWords {ws : List (List Char)}
    (hws : ∀ w ∈ ws, w ≠ [] ∧ Leaves isBlank w) :
    skipBlanks (spacedWords ws) = [' '].intercalate ws := by
  cases ws with
  | nil => rfl
  | cons w ws =>
    obtain ⟨hne, hleaves⟩ := hws w List.mem_cons_self
    have hspaced : spacedWords (w :: ws) = [' '] ++ (w ++ spacedWords ws) := by
      simp [spacedWords]
    rw [hspaced, skipBlanks_append (by simp [Blanks, isBlank_space]) (leaves_front hne hleaves _),
      append_spacedWords]

/-- A line is squeezed by settling it and dropping the blanks at its front. -/
theorem skipBlanks_settle_eq (cs : List Char) : skipBlanks (settle cs) = squeezeLine cs := by
  obtain ⟨first, others, hsplit, hleaves, hsettle⟩ := exists_split cs
  rw [hsettle, squeezeLine, words, hsplit]
  cases first with
  | nil =>
    rw [List.nil_append, skipBlanks_spacedWords]
    · simp
    · intro w hw
      rw [List.mem_filter] at hw
      exact ⟨by simpa using hw.2, hleaves w (List.mem_cons_of_mem [] hw.1)⟩
  | cons c first =>
    have hfirst := hleaves _ List.mem_cons_self
    rw [skipBlanks_of_leaves (leaves_front (List.cons_ne_nil c first) hfirst _),
      append_spacedWords]
    simp

/-! ## Scans without columns -/

/-- The kind and the text of a piece. -/
def Piece.sketch (piece : Piece) : Token.Kind × List Char := (piece.kind, piece.text)

/-- Pieces of the same kinds and texts, in whatever columns. -/
def SameWords (pieces others : List Piece) : Prop :=
  pieces.map Piece.sketch = others.map Piece.sketch

/-- A name or an operand and the rest after it, beside the same one and the settled rest. -/
def SettledAfter (found other : Piece × List Char) : Prop :=
  found.1.sketch = other.1.sketch ∧ other.2 = settle found.2

/-- Two scans that fail for the same cause, or succeed with related results. -/
inductive Parallel {α : Type} (related : α → α → Prop) : Except Flaw α → Except Flaw α → Prop
  | error {flaw other : Flaw} (h : flaw.cause = other.cause) :
      Parallel related (.error flaw) (.error other)
  | ok {found other : α} (h : related found other) : Parallel related (.ok found) (.ok other)

theorem Parallel.bind {α β : Type} {related : α → α → Prop} {after : β → β → Prop}
    {x y : Except Flaw α} {f g : α → Except Flaw β} (h : Parallel related x y)
    (hfg : ∀ found other, related found other → Parallel after (f found) (g other)) :
    Parallel after (x >>= f) (y >>= g) := by
  cases h with
  | error hcause => exact .error hcause
  | ok hrelated => exact hfg _ _ hrelated

theorem SameWords.append {pieces others more rest : List Piece} (h : SameWords pieces others)
    (hmore : SameWords more rest) : SameWords (pieces ++ more) (others ++ rest) := by
  simp only [SameWords, List.map_append] at h hmore ⊢
  rw [h, hmore]

theorem SameWords.cons {piece other : Piece} {more rest : List Piece}
    (h : piece.sketch = other.sketch) (hmore : SameWords more rest) :
    SameWords (piece :: more) (other :: rest) := by
  simp only [SameWords, List.map_cons] at hmore ⊢
  rw [h, hmore]

theorem sameWords_wordPiece (column other : Nat) (word : List Char) :
    SameWords (wordPiece column word) (wordPiece other word) := by
  simp only [SameWords, wordPiece]
  split <;> rfl

theorem sameWords_namePiece (column other : Nat) (name : List Char) :
    SameWords (namePiece column name) (namePiece other name) := by
  simp only [SameWords, namePiece]
  split <;> rfl

theorem nextWord_settle (cs : List Char) : nextWord (settle cs) = nextWord cs :=
  takeWhile_settle (fun _ hc => by simp [isSpace_of_isBlank hc]) cs

/-! ## Scanning a settled text -/

theorem settle_dollar (cs : List Char) : settle ('$' :: cs) = '$' :: settle cs :=
  settle_solid (by decide) cs

theorem head?_settle_eq_dollar_iff (cs : List Char) :
    (settle cs).head? = some '$' ↔ cs.head? = some '$' := by
  cases cs with
  | nil => rfl
  | cons c cs =>
    by_cases hc : isBlank c = true
    · have hspaced : Leaves (· == '$') (spaced (settle cs)) :=
        leaves_spaced (fun d hd => by simpa using ne_dollar_of_isBlank hd) _
      rw [settle_blank hc]
      constructor
      · intro h
        simpa using hspaced '$' h
      · intro h
        exact absurd (Option.some.inj h) (ne_dollar_of_isBlank hc)
    · rw [settle_solid (Bool.eq_false_iff.2 hc), List.head?_cons, List.head?_cons]

/-- A reference by its name and what follows the name. -/
theorem reference_eq (column : Nat) (cs : List Char) :
    reference column cs =
      (if (cs.takeWhile isNameChar).isEmpty then
        .error (if (cs.dropWhile isNameChar).head? = some '$' then ⟨.emptyReference, column, 2⟩
          else ⟨.namelessReference, column, 1⟩)
      else if (cs.dropWhile isNameChar).head? = some '$' then
        if (cs.dropWhile isNameChar).tail.head? = some '$' then
          .error ⟨.reopenedReference, column + 1 + (cs.takeWhile isNameChar).length, 2⟩
        else .ok (⟨.identifier, cs.takeWhile isNameChar, column + 1⟩,
          (cs.dropWhile isNameChar).tail)
      else .error ⟨.unclosedReference (String.ofList (cs.takeWhile isNameChar)), column,
        1 + (cs.takeWhile isNameChar).length⟩) := by
  simp only [reference]
  generalize cs.dropWhile isNameChar = rest
  split
  · split <;> simp_all [List.head?_eq_some_iff]
  · split <;> simp_all [List.head?_eq_some_iff]

theorem reference_settle (column other : Nat) (cs : List Char) :
    Parallel SettledAfter (reference column cs) (reference other (settle cs)) := by
  rw [reference_eq, reference_eq other, takeWhile_settle fun _ => isNameChar_of_isBlank,
    dropWhile_settle fun _ => isNameChar_of_isBlank]
  generalize cs.dropWhile isNameChar = rest
  by_cases hdollar : rest.head? = some '$'
  · obtain ⟨after, rfl⟩ := List.head?_eq_some_iff.1 hdollar
    simp only [settle_dollar, List.head?_cons, List.tail_cons, head?_settle_eq_dollar_iff]
    by_cases hname : (cs.takeWhile isNameChar).isEmpty = true
    · simp only [hname, if_true]
      exact .error rfl
    · by_cases hafter : after.head? = some '$'
      · simp only [hname, hafter, if_true]
        exact .error rfl
      · simp only [hname, hafter, if_true, if_false]
        exact .ok ⟨rfl, rfl⟩
  · simp only [head?_settle_eq_dollar_iff, hdollar, if_false]
    split_ifs <;> exact .error rfl

theorem settle_word {word : List Char} (hword : IsWord word) (rest : List Char) :
    settle (word ++ rest) = word ++ settle rest :=
  settle_append (fun c hc => (isWordChar_eq_true_iff.1 (hword c hc)).1) rest

/-- A word ends where a spaced text begins, and the words of that text follow. -/
theorem textPieces_spaced (column : Nat) {word : List Char} (hword : IsWord word)
    (cs : List Char) :
    ∃ next, textPieces column (word ++ spaced cs) =
      (textPieces next cs >>= fun more => .ok (wordPiece column word ++ more)) := by
  cases cs with
  | nil =>
    refine ⟨column, ?_⟩
    rw [spaced, List.append_nil, textPieces_word column hword,
      textPieces_word column (List.forall_mem_nil _)]
    simp [wordPiece, bind, Except.bind]
  | cons c cs =>
    simp only [spaced]
    split
    · next hc =>
      refine ⟨column + word.length, ?_⟩
      have hfront := textPieces_blank (column + word.length) (List.forall_mem_nil _) hc cs
      rw [List.nil_append] at hfront
      rw [textPieces_blank column hword hc, hfront, bind_assoc]
      rfl
    · exact ⟨_, textPieces_blank column hword isBlank_space (c :: cs)⟩

theorem textPieces_settle (column other : Nat) (cs : List Char) :
    Parallel SameWords (textPieces column cs) (textPieces other (settle cs)) := by
  induction cs using textInduction generalizing column other with
  | word word hword =>
    have hsettle : settle word = word := by simpa [settle] using settle_word hword []
    rw [hsettle, textPieces_word column hword, textPieces_word other hword]
    exact .ok (sameWords_wordPiece _ _ _)
  | dollar word rest hword ih =>
    rw [settle_word hword, settle_dollar, settle_dollar, textPieces_dollar column hword,
      textPieces_dollar other hword]
    apply (ih _ _).bind
    intro more rest hmore
    exact .ok (.cons rfl hmore)
  | reference word rest hword hrest ih =>
    have hsettled : (settle rest).head? ≠ some '$' :=
      fun h => hrest ((head?_settle_eq_dollar_iff rest).1 h)
    rw [settle_word hword, settle_dollar, textPieces_reference column hword hrest,
      textPieces_reference other hword hsettled]
    have hreference := reference_settle (column + word.length) (other + word.length) rest
    generalize hfound : reference (column + word.length) rest = found at hreference ⊢
    generalize reference (other + word.length) (settle rest) = settled at hreference ⊢
    cases hreference with
    | error hcause => exact .error hcause
    | @ok found settled h =>
      obtain ⟨name, after⟩ := found
      obtain ⟨otherName, rfl⟩ : ∃ otherName, settled = (otherName, settle after) :=
        ⟨settled.1, Prod.ext rfl h.2⟩
      obtain ⟨text, -, hrest, -⟩ := reference_eq_ok_iff.1 hfound
      rw [List.append_cons] at hrest
      apply (ih _ after hrest _ _).bind
      intro more rest hmore
      exact .ok ((sameWords_wordPiece _ _ _).append (.cons h.1 hmore))
  | blank word c rest hword hc ih =>
    obtain ⟨next, hnext⟩ := textPieces_spaced other hword (settle rest)
    rw [settle_word hword, settle_blank hc, textPieces_blank column hword hc, hnext]
    apply (ih _ _).bind
    intro more rest hmore
    exact .ok ((sameWords_wordPiece _ _ _).append hmore)

/-! ### Numbers -/

theorem operand_of_ne_dollar (last : Bool) (column : Nat) {c : Char} (hc : c ≠ '$')
    (cs : List Char) :
    operand last column (c :: cs) =
      (if ((c :: cs).takeWhile Char.isDigit).isEmpty then
        .error (wordFlaw .notANumber column (c :: cs))
      else .ok (⟨.value, (c :: cs).takeWhile Char.isDigit, column⟩,
        column + ((c :: cs).takeWhile Char.isDigit).length,
        (c :: cs).dropWhile Char.isDigit)) := by
  rw [operand]
  · simp
  · rintro rest h
    exact hc (List.cons.inj h).1

theorem operand_settle (last : Bool) (column other : Nat) {cs : List Char}
    (hcs : Leaves isBlank cs) :
    Parallel (fun found settled => SettledAfter (found.1, found.2.2) (settled.1, settled.2.2))
      (operand last column cs) (operand last other (settle cs)) := by
  cases cs with
  | nil => exact .error rfl
  | cons c cs =>
    have hc : isBlank c = false := leaves_cons_iff.1 hcs
    by_cases hdollar : c = '$'
    · subst hdollar
      have hreference := reference_settle column other cs
      rw [settle_dollar]
      simp only [operand]
      generalize reference column cs = found at hreference ⊢
      generalize reference other (settle cs) = settled at hreference ⊢
      cases hreference with
      | error hcause => exact .error hcause
      | ok h => exact .ok h
    · have htake := takeWhile_settle (fun _ => isDigit_of_isBlank) (c :: cs)
      have hdrop := dropWhile_settle (fun _ => isDigit_of_isBlank) (c :: cs)
      have hword := nextWord_settle (c :: cs)
      rw [settle_solid hc] at htake hdrop hword ⊢
      rw [operand_of_ne_dollar last column hdollar, operand_of_ne_dollar last other hdollar, htake,
        hdrop, wordFlaw, wordFlaw, hword]
      split_ifs
      · exact .error rfl
      · exact .ok ⟨rfl, rfl⟩

theorem numberPieces_settle (last : Bool) (column other : Nat) (cs : List Char) :
    Parallel SameWords (numberPieces last column cs) (numberPieces last other (settle cs)) := by
  -- By strong induction on the length: an operator is followed by an end of the text.
  induction hn : cs.length using Nat.strongRecOn generalizing cs column other with
  | ind n ih =>
    have hoperand := operand_settle last (column + blanks cs) (other + blanks (settle cs))
      (leaves_skipBlanks cs)
    rw [numberPieces_eq, numberPieces_eq last other, skipBlanks_settle]
    generalize hfound : operand last (column + blanks cs) (skipBlanks cs) = found at hoperand ⊢
    generalize operand last (other + blanks (settle cs)) (settle (skipBlanks cs)) = settled
      at hoperand ⊢
    cases hoperand with
    | error hcause => exact .error hcause
    | @ok found settled h =>
      obtain ⟨piece, next, rest⟩ := found
      obtain ⟨otherPiece, otherNext, otherRest⟩ := settled
      obtain ⟨hpiece, rfl⟩ : piece.sketch = otherPiece.sketch ∧ otherRest = settle rest := h
      simp only [skipBlanks_settle]
      cases hskip : skipBlanks rest with
      | nil => exact .ok (.cons hpiece rfl)
      | cons c after =>
        have hc : isBlank c = false := leaves_cons_iff.1 (hskip ▸ leaves_skipBlanks rest)
        have hlength : after.length < n := by
          have h₁ := length_of_operand hfound
          have h₂ := length_skipBlanks_le cs
          have h₃ := length_skipBlanks_le rest
          rw [hskip, List.length_cons] at h₃
          omega
        have hword := nextWord_settle (c :: after)
        rw [settle_solid hc] at hword ⊢
        cases hop : Operator.ofChar? c with
        | none =>
          simp only [hop, wordFlaw, hword]
          exact .error rfl
        | some op =>
          simp only [hop]
          apply (ih after.length hlength _ _ after rfl).bind
          intro more others hmore
          exact .ok (.cons hpiece (.cons rfl hmore))

/-! ### Statements and lines -/

theorem parallel_wordFlaw (cause : String → LexFault) (column other : Nat) (cs : List Char) :
    Parallel SameWords (.error (wordFlaw cause column cs))
      (.error (wordFlaw cause other (settle cs))) := by
  simp only [wordFlaw, nextWord_settle]
  exact .error rfl

theorem tailPieces_settle (last : Bool) (keyword : Keyword) (column other : Nat) {cs : List Char}
    (hcs : Leaves isBlank cs) :
    Parallel SameWords (tailPieces last keyword column cs)
      (tailPieces last keyword other (settle cs)) := by
  cases cs with
  | nil => exact .ok rfl
  | cons c cs =>
    have hflaw := fun cause => parallel_wordFlaw cause column other (c :: cs)
    rw [settle_solid (leaves_cons_iff.1 hcs)] at hflaw ⊢
    cases keyword with
    | text =>
      simp only [tailPieces]
      split_ifs
      · apply (textPieces_settle _ _ cs).bind
        intro more others hmore
        exact .ok (.cons rfl hmore)
      · exact hflaw _
    | number =>
      simp only [tailPieces]
      split_ifs
      · apply (numberPieces_settle last _ _ cs).bind
        intro more others hmore
        exact .ok (.cons rfl hmore)
      · exact hflaw _
    | input => exact hflaw _
    | output => exact hflaw _

theorem statementPieces_settle (last : Bool) (column other : Nat) (cs : List Char) :
    Parallel SameWords (statementPieces last column cs)
      (statementPieces last other (settle cs)) := by
  have hword : (settle cs).drop (nextWord cs).length = settle (cs.drop (nextWord cs).length) :=
    drop_settle (fun _ hc => by simp [isSpace_of_isBlank hc]) cs
  simp only [statementPieces, nextWord_settle]
  cases Keyword.ofWord? (nextWord cs) with
  | none => exact parallel_wordFlaw _ _ _ _
  | some keyword =>
    simp only [hword, skipBlanks_settle, takeWhile_settle fun _ => isNameChar_of_isBlank,
      drop_settle fun _ => isNameChar_of_isBlank]
    apply (tailPieces_settle last keyword _ _ (leaves_skipBlanks _)).bind
    intro more others hmore
    exact .ok ((SameWords.cons rfl (sameWords_namePiece _ _ _)).append hmore)

/-- A squeezed line has the words of the line, or the same flaw. -/
theorem linePieces_squeezeLine (last : Bool) (cs : List Char) :
    Parallel SameWords (linePieces last cs) (linePieces last (squeezeLine cs)) := by
  have hskip : skipBlanks (squeezeLine cs) = settle (skipBlanks cs) := by
    rw [← skipBlanks_settle_eq, skipBlanks_of_leaves (leaves_skipBlanks _), skipBlanks_settle]
  simp only [linePieces, hskip]
  cases hcs : skipBlanks cs with
  | nil => exact .ok rfl
  | cons c rest =>
    have hstatement := statementPieces_settle last (blanks cs) (blanks (squeezeLine cs)) (c :: rest)
    rw [settle_solid (leaves_cons_iff.1 (hcs ▸ leaves_skipBlanks cs))] at hstatement ⊢
    exact hstatement

end Scan

/-! ## Sources -/

namespace Text

theorem mem_settle {c : Char} {cs : List Char} (h : c ∈ settle cs) : c = ' ' ∨ c ∈ cs := by
  induction cs with
  | nil => exact absurd h List.not_mem_nil
  | cons d cs ih =>
    by_cases hd : isBlank d = true
    · rw [settle_blank hd] at h
      have hmem : c = ' ' ∨ c ∈ settle cs := by
        cases hcs : settle cs with
        | nil => simp [hcs, spaced] at h
        | cons e rest =>
          rw [hcs, spaced] at h
          split at h
          · exact Or.inr h
          · exact List.mem_cons.1 h
      rcases hmem with rfl | hmem
      · exact Or.inl rfl
      · exact (ih hmem).imp_right (List.mem_cons_of_mem d)
    · rw [settle_solid (Bool.eq_false_iff.2 hd)] at h
      rcases List.mem_cons.1 h with rfl | hmem
      · exact Or.inr List.mem_cons_self
      · exact (ih hmem).imp_right (List.mem_cons_of_mem d)

theorem newline_not_mem_squeezeLine {line : List Char} (h : '\n' ∉ line) :
    '\n' ∉ squeezeLine line := by
  intro hmem
  rw [← Scan.skipBlanks_settle_eq] at hmem
  rcases mem_settle ((List.dropWhile_suffix _).subset hmem) with hspace | hline
  · exact absurd hspace (by decide)
  · exact h hline

theorem lines_intercalate {ls : List (List Char)} (hne : ls ≠ []) (hfree : ∀ l ∈ ls, '\n' ∉ l) :
    lines (['\n'].intercalate ls) = ls := by
  induction ls with
  | nil => exact absurd rfl hne
  | cons l ls ih =>
    have hl := hfree l List.mem_cons_self
    cases ls with
    | nil => rw [List.intercalate_singleton, lines_of_not_mem hl]
    | cons next ls =>
      rw [List.intercalate_cons_cons, List.append_assoc, List.singleton_append,
        lines_append_newline hl, ih (List.cons_ne_nil _ _)]
      intro m hm
      exact hfree m (List.mem_cons_of_mem l hm)

/-- A text is squeezed line by line. -/
theorem lines_squeeze (cs : List Char) : lines (squeeze cs) = (lines cs).map squeezeLine := by
  apply lines_intercalate
  · simpa using lines_ne_nil cs
  · intro line hline
    obtain ⟨l, hl, rfl⟩ := List.mem_map.1 hline
    exact newline_not_mem_squeezeLine (newline_not_mem_of_mem_lines hl)

example : squeeze "\tText  a \n \u3000\nOutput\u00a0 \ta".toList = "Text a\n\nOutput a".toList := by
  decide

end Text

namespace Token

open Text Scan

/-- What a scan says apart from columns: the kinds, texts and lines of the tokens in their order, or
the message and the line of the fault. -/
def digest : Except (Located LexFault) (List Token) →
    Except (String × Int) (List (Token.Kind × String × Int))
  | .error fault => .error (fault.item.message, fault.span.line)
  | .ok tokens => .ok (tokens.map fun token => (token.kind, token.lexeme, token.span.line))

theorem digest_bind {x y : Except (Located LexFault) (List Token)}
    {f g : List Token → Except (Located LexFault) (List Token)} (h : digest x = digest y)
    (hfg : ∀ tokens others, digest (.ok tokens) = digest (.ok others) →
      digest (f tokens) = digest (g others)) :
    digest (x >>= f) = digest (y >>= g) := by
  cases x with
  | error fault =>
    cases y with
    | error other => exact h
    | ok others => cases h
  | ok tokens =>
    cases y with
    | error other => cases h
    | ok others => exact hfg tokens others h

theorem digest_append {tokens others more rest : List Token}
    (h : digest (.ok tokens) = digest (.ok others))
    (hmore : digest (.ok more) = digest (.ok rest)) :
    digest (.ok (tokens ++ more)) = digest (.ok (others ++ rest)) := by
  simp only [digest, Except.ok.injEq, List.map_append] at h hmore ⊢
  rw [h, hmore]

theorem digest_lineTokens (last : Bool) (line offset other : Nat) (cs : List Char) :
    digest (lineTokens last line offset cs) =
      digest (lineTokens last line other (squeezeLine cs)) := by
  have hpieces := linePieces_squeezeLine last cs
  simp only [lineTokens]
  generalize linePieces last cs = found at hpieces ⊢
  generalize linePieces last (squeezeLine cs) = squeezed at hpieces ⊢
  cases hpieces with
  | error hcause => simp [digest, Flaw.place, hcause, place]
  | ok hwords =>
    have hplace (offset : Nat) :
        (fun token : Token => (token.kind, token.lexeme, token.span.line)) ∘
            Piece.place line offset =
          (fun sketch => (sketch.1, String.ofList sketch.2, (line : Int))) ∘ Piece.sketch := rfl
    simp only [digest, List.map_map, hplace]
    rw [← List.map_map, ← List.map_map, hwords]

theorem digest_linesTokens (line offset other : Nat) (ls : List (List Char)) :
    digest (linesTokens line offset ls) =
      digest (linesTokens line other (ls.map squeezeLine)) := by
  induction ls generalizing line offset other with
  | nil => rfl
  | cons cs ls ih =>
    cases ls with
    | nil =>
      apply digest_bind (digest_lineTokens true line offset other cs)
      intro tokens others htokens
      exact digest_append htokens rfl
    | cons next ls =>
      apply digest_bind (digest_lineTokens false line offset other cs)
      intro tokens others htokens
      apply digest_bind (ih _ _ _)
      intro more rest hmore
      rw [List.append_cons, List.append_cons others]
      exact digest_append (digest_append htokens rfl) hmore

/-- The scanner ignores how many blanks there are and which: a squeezed source has tokens if and
only if the source has, of the same kinds, texts and lines in the same order, and else it has a
fault with the same message on the same line. -/
theorem scan_squeeze (source : String) :
    digest (scan (String.ofList (squeeze source.toList))) = digest (scan source) := by
  rw [scan, scan, String.toList_ofList, lines_squeeze]
  exact (digest_linesTokens 1 0 0 (lines source.toList)).symm

end Token

end LineScript
