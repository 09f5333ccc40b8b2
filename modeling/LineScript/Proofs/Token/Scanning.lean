import LineScript.Proofs.Text.Characters

/-!
# How a line is cut into pieces

For each scanner of a line there is a relation between a text and the pieces it is cut into, with
one rule for each way the scanner can go on: `TextCut` for the words and references of a text,
`NumberCut` for a chain of operands, `TailCut` for what follows a name and `LineCut` for a line. The
relations say nothing about faults and do not mention the order in which the scanner tries things.
Each scanner succeeds exactly on what its relation holds of, with the pieces that the relation gives
(`textPieces_eq_ok_iff`, `numberPieces_eq_ok_iff`, `linePieces_eq_ok_iff`), so later proofs go by
induction over the relations and leave the scanners closed.
-/

set_option autoImplicit false

namespace LineScript

/-! ## Steps that can fail -/

section Steps

variable {ε α β : Type}

theorem bind_eq_ok_iff {x : Except ε α} {f : α → Except ε β} {b : β} :
    x >>= f = .ok b ↔ ∃ a, x = .ok a ∧ f a = .ok b := by
  cases x with
  | error e => simp [bind, Except.bind]
  | ok a => simp [bind, Except.bind]

theorem bind_eq_error_iff {x : Except ε α} {f : α → Except ε β} {e : ε} :
    x >>= f = .error e ↔ x = .error e ∨ ∃ a, x = .ok a ∧ f a = .error e := by
  cases x with
  | error e => simp [bind, Except.bind]
  | ok a => simp [bind, Except.bind]

theorem map_eq_ok_iff {x : Except ε α} {f : α → β} {b : β} :
    x.map f = .ok b ↔ ∃ a, x = .ok a ∧ f a = b := by
  cases x with
  | error e => simp [Except.map]
  | ok a => simp [Except.map]

end Steps

namespace Scan

open Text

/-! ## References -/

/-- A reference is a name, the closing dollar sign, and no other dollar sign right after it. -/
theorem reference_eq_ok_iff {column : Nat} {cs rest : List Char} {piece : Piece} :
    reference column cs = .ok (piece, rest) ↔
      ∃ name, IsName name ∧ cs = name ++ '$' :: rest ∧ rest.head? ≠ some '$' ∧
        piece = ⟨.identifier, name, column + 1⟩ := by
  constructor
  · intro h
    obtain ⟨name, after, rfl, hname, hafter⟩ := exists_run isNameChar cs
    simp only [reference, takeWhile_run hname hafter, dropWhile_run hname hafter] at h
    split at h
    · split at h <;> cases h
    · next hne =>
      split at h
      · cases h
      · next tail htail =>
        cases h
        refine ⟨name, ⟨by simpa using hne, hname⟩, rfl, ?_, rfl⟩
        intro hhead
        obtain ⟨more, rfl⟩ : ∃ more, rest = '$' :: more := by
          cases rest with
          | nil => cases hhead
          | cons c more => exact ⟨more, by rw [Option.some.inj hhead]⟩
        exact htail more rfl
      · cases h
  · rintro ⟨name, ⟨hne, hname⟩, rfl, hhead, rfl⟩
    have hleaves : Leaves isNameChar ('$' :: rest) := leaves_cons_iff.2 (by decide)
    simp only [reference, takeWhile_run hname hleaves, dropWhile_run hname hleaves]
    rw [if_neg (by simpa using hne)]
    cases rest with
    | nil => rfl
    | cons c rest =>
      have hc : c ≠ '$' := fun e => hhead (by rw [e]; rfl)
      split
      · next heq => exact absurd (List.cons.inj (List.cons.inj heq).2).1 hc
      · next heq => rw [(List.cons.inj heq).2]
      · next hnot => exact absurd rfl (hnot (c :: rest))

/-! ## Texts -/

/-- Nothing but characters of a word. -/
def IsWord (cs : List Char) : Prop := ∀ c ∈ cs, isWordChar c = true

theorem leaves_dollar (cs : List Char) : Leaves isWordChar ('$' :: cs) :=
  leaves_cons_iff.2 (by decide)

theorem leaves_blank {c : Char} (h : isBlank c = true) (cs : List Char) :
    Leaves isWordChar (c :: cs) :=
  leaves_cons_iff.2 (isWordChar_eq_false_iff.2 (Or.inr h))

theorem textPieces_word (column : Nat) {word : List Char} (hword : IsWord word) :
    textPieces column word = .ok (wordPiece column word) := by
  have htake := takeWhile_run hword (leaves_nil isWordChar)
  have hdrop := dropWhile_run hword (leaves_nil isWordChar)
  rw [List.append_nil] at htake hdrop
  rw [textPieces]
  split
  · rw [htake]
  all_goals
    next heq =>
      rw [hdrop] at heq
      cases heq

theorem textPieces_dollar (column : Nat) {word : List Char} (hword : IsWord word)
    (rest : List Char) :
    textPieces column (word ++ '$' :: '$' :: rest) =
      (do
        let more ← textPieces (column + word.length + 2) rest
        .ok (⟨.value, word ++ ['$'], column⟩ :: more)) := by
  have htake := takeWhile_run hword (leaves_dollar ('$' :: rest))
  have hdrop := dropWhile_run hword (leaves_dollar ('$' :: rest))
  -- The rules are told apart by what follows the word, and that is known: it is `hdrop`.
  rw [textPieces]
  split
  · next heq =>
    rw [hdrop] at heq
    cases heq
  · next heq =>
    rw [hdrop] at heq
    cases heq
    rw [htake]
  · next hnot heq =>
    rw [hdrop] at heq
    cases heq
    exact absurd rfl (hnot rest)
  · next hnot _ heq =>
    rw [hdrop] at heq
    cases heq
    exact absurd rfl (hnot rest rfl)

/-- A dollar sign that is not doubled opens a reference. -/
theorem textPieces_reference (column : Nat) {word : List Char} (hword : IsWord word)
    {rest : List Char} (hrest : rest.head? ≠ some '$') :
    textPieces column (word ++ '$' :: rest) =
      (match reference (column + word.length) rest with
      | .error flaw => .error flaw
      | .ok (name, after) => do
        let more ← textPieces (column + word.length + name.text.length + 2) after
        .ok (wordPiece column word ++ name :: more)) := by
  have htake := takeWhile_run hword (leaves_dollar rest)
  have hdrop := dropWhile_run hword (leaves_dollar rest)
  rw [textPieces]
  split
  · next heq =>
    rw [hdrop] at heq
    cases heq
  · next heq =>
    rw [hdrop] at heq
    cases heq
    exact absurd rfl hrest
  · next heq =>
    rw [hdrop] at heq
    cases heq
    split <;> next href => rw [htake] at href; simp only [href, htake]
  · next hnot heq =>
    rw [hdrop] at heq
    cases heq
    exact absurd rfl hnot

theorem textPieces_blank (column : Nat) {word : List Char} (hword : IsWord word) {c : Char}
    (hc : isBlank c = true) (rest : List Char) :
    textPieces column (word ++ c :: rest) =
      (do
        let more ← textPieces (column + word.length + 1) rest
        .ok (wordPiece column word ++ more)) := by
  have hne := ne_dollar_of_isBlank hc
  have htake := takeWhile_run hword (leaves_blank hc rest)
  have hdrop := dropWhile_run hword (leaves_blank hc rest)
  rw [textPieces]
  split
  · next heq =>
    rw [hdrop] at heq
    cases heq
  · next heq =>
    rw [hdrop] at heq
    cases heq
    exact absurd rfl hne
  · next heq =>
    rw [hdrop] at heq
    cases heq
    exact absurd rfl hne
  · next heq =>
    rw [hdrop] at heq
    cases heq
    rw [htake]

/-- Induction over the text of a value, in the steps of its scanner. -/
theorem textInduction {motive : List Char → Prop}
    (word : ∀ word, IsWord word → motive word)
    (dollar : ∀ word rest, IsWord word → motive rest → motive (word ++ '$' :: '$' :: rest))
    (reference : ∀ word rest, IsWord word → rest.head? ≠ some '$' →
      (∀ front after, rest = front ++ after → motive after) → motive (word ++ '$' :: rest))
    (blank : ∀ word c rest, IsWord word → isBlank c = true → motive rest →
      motive (word ++ c :: rest)) :
    ∀ cs, motive cs := by
  intro cs
  -- By strong induction on the length: what follows a reference is not known before the name has
  -- been scanned, only that it is an end of the text.
  induction hn : cs.length using Nat.strongRecOn generalizing cs with
  | ind n ih =>
    obtain ⟨run, rest, rfl, hrun, hrest⟩ := exists_run isWordChar cs
    rw [List.length_append] at hn
    cases rest with
    | nil =>
      rw [List.append_nil]
      exact word run hrun
    | cons c rest =>
      rw [List.length_cons] at hn
      rcases isWordChar_eq_false_iff.1 (leaves_cons_iff.1 hrest) with rfl | hc
      · by_cases hhead : rest.head? = some '$'
        · cases rest with
          | nil => cases hhead
          | cons d rest =>
            obtain rfl : d = '$' := Option.some.inj hhead
            rw [List.length_cons] at hn
            exact dollar run rest hrun (ih rest.length (by omega) rest rfl)
        · apply reference run rest hrun hhead
          intro front after happ
          have hle : after.length ≤ rest.length := by
            rw [happ, List.length_append]
            omega
          exact ih after.length (by omega) after rfl
      · exact blank run c rest hrun hc (ih rest.length (by omega) rest rfl)

/-- The pieces of a text: a word up to the end, an escaped dollar sign, a reference or a blank, and
then the pieces of what follows. -/
inductive TextCut : Nat → List Char → List Piece → Prop
  | word (column : Nat) {word : List Char} (hword : IsWord word) :
      TextCut column word (wordPiece column word)
  | dollar {column : Nat} {word rest : List Char} {more : List Piece} (hword : IsWord word)
      (hmore : TextCut (column + word.length + 2) rest more) :
      TextCut column (word ++ '$' :: '$' :: rest) (⟨.value, word ++ ['$'], column⟩ :: more)
  | reference {column : Nat} {word name rest : List Char} {more : List Piece}
      (hword : IsWord word) (hname : IsName name) (hrest : rest.head? ≠ some '$')
      (hmore : TextCut (column + word.length + name.length + 2) rest more) :
      TextCut column (word ++ '$' :: (name ++ '$' :: rest))
        (wordPiece column word ++ ⟨.identifier, name, column + word.length + 1⟩ :: more)
  | blank {column : Nat} {word rest : List Char} {c : Char} {more : List Piece}
      (hword : IsWord word) (hc : isBlank c = true)
      (hmore : TextCut (column + word.length + 1) rest more) :
      TextCut column (word ++ c :: rest) (wordPiece column word ++ more)

/-- The scanner of texts succeeds with the pieces that a text is cut into. -/
theorem textPieces_eq_ok_iff {column : Nat} {cs : List Char} {pieces : List Piece} :
    textPieces column cs = .ok pieces ↔ TextCut column cs pieces := by
  constructor
  · intro h
    induction cs using textInduction generalizing column pieces with
    | word word hword =>
      rw [textPieces_word column hword] at h
      cases h
      exact .word column hword
    | dollar word rest hword ih =>
      rw [textPieces_dollar column hword, bind_eq_ok_iff] at h
      obtain ⟨more, hmore, h⟩ := h
      cases h
      exact .dollar hword (ih hmore)
    | reference word rest hword hrest ih =>
      rw [textPieces_reference column hword hrest] at h
      split at h
      · cases h
      · next name after href =>
        obtain ⟨text, htext, rfl, hafter, rfl⟩ := reference_eq_ok_iff.1 href
        obtain ⟨more, hmore, h⟩ := bind_eq_ok_iff.1 h
        cases h
        exact .reference hword htext hafter (ih (text ++ ['$']) after (by simp) hmore)
    | blank word c rest hword hc ih =>
      rw [textPieces_blank column hword hc, bind_eq_ok_iff] at h
      obtain ⟨more, hmore, h⟩ := h
      cases h
      exact .blank hword hc (ih hmore)
  · intro h
    induction h with
    | word column hword => exact textPieces_word column hword
    | @dollar column _ rest _ hword _ ih =>
      rw [textPieces_dollar column hword, ih]
      rfl
    | @reference column word name rest _ hword hname hrest _ ih =>
      have href : Scan.reference (column + word.length) (name ++ '$' :: rest) =
          .ok (⟨.identifier, name, column + word.length + 1⟩, rest) :=
        reference_eq_ok_iff.2 ⟨name, hname, rfl, hrest, rfl⟩
      rw [textPieces_reference column hword hname.head?_ne_dollar, href]
      simp only [ih]
      rfl
    | @blank column _ rest _ _ hword hc _ ih =>
      rw [textPieces_blank column hword hc, ih]
      rfl

/-! ## Numbers -/

/-- The piece of an operand: its digits, or the name in a reference. -/
inductive OperandCut (column : Nat) : List Char → Piece → Prop
  | digits {digits : List Char} (hne : digits ≠ []) (hdigits : ∀ c ∈ digits, c.isDigit = true) :
      OperandCut column digits ⟨.value, digits, column⟩
  | reference {name : List Char} (hname : IsName name) :
      OperandCut column ('$' :: (name ++ ['$'])) ⟨.identifier, name, column + 1⟩

/-- The text is over or goes on with a character that no operand goes on with. -/
def EndsOperand (cs : List Char) : Prop := Leaves Char.isDigit cs ∧ cs.head? ≠ some '$'

theorem endsOperand_nil : EndsOperand [] := ⟨leaves_nil _, by simp⟩

theorem endsOperand_cons {c : Char} (hdigit : c.isDigit = false) (hdollar : c ≠ '$')
    (cs : List Char) : EndsOperand (c :: cs) :=
  ⟨leaves_cons_iff.2 hdigit, fun h => hdollar (Option.some.inj h)⟩

theorem endsOperand_append {gap rest : List Char} (hgap : Blanks gap) (hrest : EndsOperand rest) :
    EndsOperand (gap ++ rest) := by
  cases gap with
  | nil => exact hrest
  | cons c gap =>
    have hc := hgap c List.mem_cons_self
    exact endsOperand_cons (isDigit_of_isBlank hc) (ne_dollar_of_isBlank hc) (gap ++ rest)

/-- An operand does not start with a blank. -/
theorem OperandCut.leaves {column : Nat} {text : List Char} {piece : Piece}
    (h : OperandCut column text piece) (rest : List Char) : Leaves isBlank (text ++ rest) := by
  cases h with
  | digits hne hdigits =>
    cases text with
    | nil => exact absurd rfl hne
    | cons c text =>
      rw [List.cons_append, leaves_cons_iff, Bool.eq_false_iff]
      intro hc
      exact Bool.false_ne_true ((isDigit_of_isBlank hc).symm.trans (hdigits c List.mem_cons_self))
  | reference hname => exact leaves_cons_iff.2 (by decide)

theorem operandCut_of_operand {last : Bool} {column next : Nat} {cs rest : List Char}
    {piece : Piece} (h : operand last column cs = .ok (piece, next, rest)) :
    ∃ text, cs = text ++ rest ∧ next = column + text.length ∧ OperandCut column text piece := by
  simp only [operand] at h
  split at h
  · cases h
  · split at h
    · cases h
    · next href =>
      cases h
      obtain ⟨name, hname, rfl, -, rfl⟩ := reference_eq_ok_iff.1 href
      refine ⟨'$' :: (name ++ ['$']), by simp, ?_, .reference hname⟩
      simp only [List.length_cons, List.length_append, List.length_nil]
      omega
  · split at h
    · cases h
    · next hne =>
      cases h
      exact ⟨_, List.takeWhile_append_dropWhile.symm, rfl,
        .digits (by simpa using hne) fun _ hc => List.mem_takeWhile_imp hc⟩

theorem operand_of_operandCut (last : Bool) {column : Nat} {text : List Char} {piece : Piece}
    (h : OperandCut column text piece) {rest : List Char} (hrest : EndsOperand rest) :
    operand last column (text ++ rest) = .ok (piece, column + text.length, rest) := by
  obtain ⟨hdigit, hdollar⟩ := hrest
  cases h with
  | digits hne hdigits =>
    have htake := takeWhile_run hdigits hdigit
    have hdrop := dropWhile_run hdigits hdigit
    rw [operand.eq_def]
    split
    · next heq => exact absurd (List.append_eq_nil_iff.1 heq).1 hne
    · next heq =>
      cases text with
      | nil => exact absurd rfl hne
      | cons c text =>
        obtain rfl : c = '$' := (List.cons.inj heq).1
        exact absurd (hdigits '$' List.mem_cons_self) (by decide)
    · simp only [htake, hdrop]
      rw [if_neg (by simpa using hne)]
  | @reference name hname =>
    have href : Scan.reference column (name ++ '$' :: rest) =
        .ok (⟨.identifier, name, column + 1⟩, rest) :=
      reference_eq_ok_iff.2 ⟨name, hname, rfl, hdollar, rfl⟩
    simp only [operand, List.cons_append, List.append_assoc, List.nil_append, href]
    simp only [List.length_cons, List.length_append, List.length_nil]
    rw [show column + name.length + 2 = column + (name.length + (0 + 1) + 1) from by omega]

/-- The pieces of a chain of operands with operators between them. -/
inductive NumberCut : Nat → List Char → List Piece → Prop
  | last {column : Nat} {lead text trail : List Char} {piece : Piece} (hlead : Blanks lead)
      (hpiece : OperandCut (column + lead.length) text piece) (htrail : Blanks trail) :
      NumberCut column (lead ++ (text ++ trail)) [piece]
  | link {column : Nat} {lead text gap rest : List Char} {piece : Piece} {more : List Piece}
      (op : Operator) (hlead : Blanks lead)
      (hpiece : OperandCut (column + lead.length) text piece) (hgap : Blanks gap)
      (hmore : NumberCut (column + lead.length + text.length + gap.length + 1) rest more) :
      NumberCut column (lead ++ (text ++ (gap ++ op.char :: rest)))
        (piece :: ⟨.operator op, [op.char], column + lead.length + text.length + gap.length⟩ ::
          more)

theorem exists_blanks (cs : List Char) :
    ∃ lead, cs = lead ++ skipBlanks cs ∧ Blanks lead ∧ blanks cs = lead.length :=
  ⟨cs.takeWhile isBlank, List.takeWhile_append_dropWhile.symm,
    fun _ hc => List.mem_takeWhile_imp hc, rfl⟩

/-- The scanner of numbers without the proofs that its recursion needs. -/
theorem numberPieces_eq (last : Bool) (column : Nat) (cs : List Char) :
    numberPieces last column cs =
      (match operand last (column + blanks cs) (skipBlanks cs) with
      | .error flaw => .error flaw
      | .ok (piece, next, rest) =>
        match skipBlanks rest with
        | [] => .ok [piece]
        | c :: after =>
          match Operator.ofChar? c with
          | none => .error (wordFlaw .missingOperator (next + blanks rest) (c :: after))
          | some op => do
            let more ← numberPieces last (next + blanks rest + 1) after
            .ok (piece :: ⟨.operator op, [c], next + blanks rest⟩ :: more)) := by
  rw [numberPieces]
  split
  · next hoperand => rw [hoperand]
  · next hoperand =>
    simp only [hoperand]
    split
    · next hend => simp only [hend]
    · next c after hnext =>
      cases hop : Operator.ofChar? c <;> simp only [hnext, hop]

/-- The scanner of numbers succeeds with the pieces that a chain is cut into, on the last line as on
any other. -/
theorem numberPieces_eq_ok_iff {last : Bool} {column : Nat} {cs : List Char}
    {pieces : List Piece} :
    numberPieces last column cs = .ok pieces ↔ NumberCut column cs pieces := by
  constructor
  · intro h
    fun_induction numberPieces last column cs generalizing pieces with
    | case1 column cs flaw hoperand => cases h
    | case2 column cs piece next rest hoperand hend =>
      cases h
      obtain ⟨lead, hcs, hlead, hcount⟩ := exists_blanks cs
      obtain ⟨text, htext, rfl, hcut⟩ := operandCut_of_operand hoperand
      obtain ⟨trail, hrest, htrail, -⟩ := exists_blanks rest
      rw [hend, List.append_nil] at hrest
      rw [hcs, htext, hrest]
      exact .last hlead (hcount ▸ hcut) htrail
    | case3 column cs piece next rest hoperand c after hnext hop => cases h
    | case4 column cs piece next rest hoperand c after hnext op hop ih =>
      obtain ⟨more, hmore, h⟩ := bind_eq_ok_iff.1 h
      cases h
      obtain ⟨lead, hcs, hlead, hcount⟩ := exists_blanks cs
      obtain ⟨text, htext, rfl, hcut⟩ := operandCut_of_operand hoperand
      obtain ⟨gap, hrest, hgap, hgapCount⟩ := exists_blanks rest
      obtain rfl := Operator.ofChar?_eq_some_iff.1 hop
      have hlink := ih hmore
      rw [hcount] at hcut hlink ⊢
      rw [hgapCount] at hlink ⊢
      rw [hcs, htext, hrest, hnext]
      exact .link op hlead hcut hgap hlink
  · intro h
    induction h with
    | @last column lead text trail piece hlead hpiece htrail =>
      have hends : EndsOperand trail := by
        simpa using endsOperand_append htrail endsOperand_nil
      rw [numberPieces_eq, skipBlanks_append hlead (hpiece.leaves trail),
        blanks_append hlead (hpiece.leaves trail), operand_of_operandCut last hpiece hends]
      simp only [skipBlanks_of_blanks htrail]
    | @link column lead text gap rest piece more op hlead hpiece hgap _ ih =>
      have hop : Leaves isBlank (op.char :: rest) := leaves_cons_iff.2 op.char_not_blank
      have hends : EndsOperand (gap ++ op.char :: rest) :=
        endsOperand_append hgap (endsOperand_cons op.char_not_digit op.char_ne_dollar rest)
      have hleaves := hpiece.leaves (gap ++ op.char :: rest)
      rw [numberPieces_eq, skipBlanks_append hlead hleaves, blanks_append hlead hleaves,
        operand_of_operandCut last hpiece hends]
      simp only [skipBlanks_append hgap hop, blanks_append hgap hop, Operator.ofChar?_char, ih]
      rfl

/-! ## Statements -/

/-- The pieces of what follows a name: nothing, or an equals sign and a value. -/
inductive TailCut (column : Nat) : Keyword → List Char → List Piece → Prop
  | nothing (keyword : Keyword) : TailCut column keyword [] []
  | text {value : List Char} {pieces : List Piece} (hvalue : TextCut (column + 1) value pieces) :
      TailCut column .text ('=' :: value) (⟨.equal, ['='], column⟩ :: pieces)
  | number {value : List Char} {pieces : List Piece}
      (hvalue : NumberCut (column + 1) value pieces) :
      TailCut column .number ('=' :: value) (⟨.equal, ['='], column⟩ :: pieces)

/-- What follows a name starts with an equals sign, so it leaves each class without one. -/
theorem TailCut.leaves {column : Nat} {keyword : Keyword} {cs : List Char} {pieces : List Piece}
    (h : TailCut column keyword cs pieces) {p : Char → Bool} (hp : p '=' = false) :
    Leaves p cs := by
  cases h with
  | nothing keyword => exact leaves_nil p
  | text hvalue => exact leaves_cons_iff.2 hp
  | number hvalue => exact leaves_cons_iff.2 hp

theorem tailPieces_eq_ok_iff {last : Bool} {keyword : Keyword} {column : Nat} {cs : List Char}
    {pieces : List Piece} :
    tailPieces last keyword column cs = .ok pieces ↔ TailCut column keyword cs pieces := by
  constructor
  · intro h
    cases cs with
    | nil =>
      cases h
      exact .nothing keyword
    | cons c rest =>
      cases keyword with
      | text =>
        simp only [tailPieces] at h
        split at h
        · next hc =>
          subst hc
          obtain ⟨value, hvalue, h⟩ := bind_eq_ok_iff.1 h
          cases h
          exact .text (textPieces_eq_ok_iff.1 hvalue)
        · cases h
      | number =>
        simp only [tailPieces] at h
        split at h
        · next hc =>
          subst hc
          obtain ⟨value, hvalue, h⟩ := bind_eq_ok_iff.1 h
          cases h
          exact .number (numberPieces_eq_ok_iff.1 hvalue)
        · cases h
      | input => cases h
      | output => cases h
  · intro h
    cases h with
    | nothing keyword => rfl
    | text hvalue =>
      simp only [tailPieces, if_true, textPieces_eq_ok_iff.2 hvalue]
      rfl
    | number hvalue =>
      simp only [tailPieces, if_true, numberPieces_eq_ok_iff.2 hvalue]
      rfl

/-- A statement, cut into its runs: the word, the blanks after it, the name, the blanks after the
name, and the rest. -/
theorem statementPieces_eq (last : Bool) (column : Nat) {word gap name space tail : List Char}
    (hword : ∀ c ∈ word, isSpace c = false)
    (hafter : Leaves (fun c => !isSpace c) (gap ++ (name ++ (space ++ tail))))
    (hgap : Blanks gap) (hfrom : Leaves isBlank (name ++ (space ++ tail)))
    (hname : ∀ c ∈ name, isNameChar c = true) (hspace : Leaves isNameChar (space ++ tail))
    (hblanks : Blanks space) (htail : Leaves isBlank tail) :
    statementPieces last column (word ++ (gap ++ (name ++ (space ++ tail)))) =
      (match Keyword.ofWord? word with
      | none => .error ⟨.unknownStatement (String.ofList word), column, word.length⟩
      | some keyword => do
        let pieces ← tailPieces last keyword
          (column + word.length + gap.length + name.length + space.length) tail
        .ok (⟨.keyword keyword, word, column⟩ ::
          namePiece (column + word.length + gap.length) name ++ pieces)) := by
  have hnext : nextWord (word ++ (gap ++ (name ++ (space ++ tail)))) = word :=
    takeWhile_run (fun c hc => by simp [hword c hc]) hafter
  cases hkeyword : Keyword.ofWord? word <;>
    simp only [statementPieces, wordFlaw, hnext, List.drop_left, blanks_append hgap hfrom,
      skipBlanks_append hgap hfrom, takeWhile_run hname hspace, blanks_append hblanks htail,
      skipBlanks_append hblanks htail, hkeyword]

/-- The pieces of a line: none if it is blank, and else a keyword, a name that may be missing, and
what follows it. Only the end of the line can follow a keyword without a blank between. -/
inductive LineCut : List Char → List Piece → Prop
  | empty {cs : List Char} (hcs : Blanks cs) : LineCut cs []
  | statement {keyword : Keyword} {lead gap name space tail : List Char} {pieces : List Piece}
      (hlead : Blanks lead) (hgap : Blanks gap) (hname : ∀ c ∈ name, isNameChar c = true)
      (hspace : Blanks space) (hword : gap = [] → name ++ (space ++ tail) = [])
      (hbare : name = [] → space = [])
      (htail : TailCut (lead.length + keyword.word.toList.length + gap.length + name.length
        + space.length) keyword tail pieces) :
      LineCut (lead ++ (keyword.word.toList ++ (gap ++ (name ++ (space ++ tail)))))
        (⟨.keyword keyword, keyword.word.toList, lead.length⟩ ::
          namePiece (lead.length + keyword.word.toList.length + gap.length) name ++ pieces)

theorem blanks_of_skipBlanks {cs : List Char} (h : skipBlanks cs = []) : Blanks cs := by
  obtain ⟨lead, hcs, hlead, -⟩ := exists_blanks cs
  rw [h, List.append_nil] at hcs
  exact hcs ▸ hlead

/-- A keyword is no blank. -/
theorem leaves_word (keyword : Keyword) (rest : List Char) :
    Leaves isBlank (keyword.word.toList ++ rest) := by
  cases keyword <;> exact leaves_cons_iff.2 (by decide)

theorem lineCut_of_linePieces {last : Bool} {cs : List Char} {pieces : List Piece}
    (hfree : '\n' ∉ cs) (h : linePieces last cs = .ok pieces) : LineCut cs pieces := by
  simp only [linePieces] at h
  split at h
  · next hskip =>
    cases h
    exact .empty (blanks_of_skipBlanks hskip)
  · next c rest hskip =>
    obtain ⟨lead, hcs, hlead, hcount⟩ := exists_blanks cs
    rw [hskip] at hcs
    rw [hcount] at h
    subst hcs
    generalize hbody : c :: rest = body at h hfree ⊢
    obtain ⟨word, after, rfl, hword, hafter⟩ := exists_run (fun c => !isSpace c) body
    obtain ⟨gap, fromName, rfl, hgap, hfrom⟩ := exists_run isBlank after
    obtain ⟨name, afterName, rfl, hname, hafterName⟩ := exists_run isNameChar fromName
    obtain ⟨space, tail, rfl, hspace, htail⟩ := exists_run isBlank afterName
    have hword' : ∀ c ∈ word, isSpace c = false := fun c hc => by simpa using hword c hc
    rw [statementPieces_eq last lead.length hword' hafter hgap hfrom hname hafterName hspace
      htail] at h
    split at h
    · cases h
    · next keyword hkeyword =>
      obtain rfl := Keyword.ofWord?_eq_some_iff.1 hkeyword
      obtain ⟨more, hmore, h⟩ := bind_eq_ok_iff.1 h
      cases h
      refine .statement hlead hgap hname hspace ?_ ?_ (tailPieces_eq_ok_iff.1 hmore)
      · rintro rfl
        cases hrest : name ++ (space ++ tail) with
        | nil => rfl
        | cons d ds =>
          rw [hrest] at hafter hfrom hfree
          have hd : isSpace d = true := by simpa using leaves_cons_iff.1 hafter
          have hne : d ≠ '\n' := fun e => hfree (by simp [e])
          rw [← isBlank_eq_isSpace hne, leaves_cons_iff.1 hfrom] at hd
          exact absurd hd (by simp)
      · rintro rfl
        cases space with
        | nil => rfl
        | cons d ds =>
          have hd := hspace d List.mem_cons_self
          rw [leaves_cons_iff.1 hfrom] at hd
          exact absurd hd (by simp)

theorem linePieces_of_lineCut (last : Bool) {cs : List Char} {pieces : List Piece}
    (h : LineCut cs pieces) : linePieces last cs = .ok pieces := by
  cases h with
  | empty hcs => simp only [linePieces, skipBlanks_of_blanks hcs]
  | @statement keyword lead gap name space tail more hlead hgap hname hspace hword hbare htail =>
    have hleaves := leaves_word keyword (gap ++ (name ++ (space ++ tail)))
    -- Each run ends where the rule says, since the next one starts with another class of
    -- characters; a gap or a name that is missing leaves this to what comes after it.
    have hafter : Leaves (fun c => !isSpace c) (gap ++ (name ++ (space ++ tail))) := by
      cases gap with
      | nil =>
        rw [hword rfl]
        exact leaves_nil _
      | cons c gap =>
        exact leaves_cons_iff.2 (by simp [isSpace_of_isBlank (hgap c List.mem_cons_self)])
    have htailBlank : Leaves isBlank tail := htail.leaves (by decide)
    have hfrom : Leaves isBlank (name ++ (space ++ tail)) := by
      cases name with
      | nil =>
        rw [hbare rfl]
        exact htailBlank
      | cons c name =>
        rw [List.cons_append, leaves_cons_iff, Bool.eq_false_iff]
        intro hc
        exact Bool.false_ne_true
          ((isNameChar_of_isBlank hc).symm.trans (hname c List.mem_cons_self))
    have hafterName : Leaves isNameChar (space ++ tail) :=
      leaves_append (fun c hc => isNameChar_of_isBlank (hspace c hc)) (htail.leaves (by decide))
    have hstatement := statementPieces_eq last lead.length keyword.isSpace_word hafter hgap hfrom
      hname hafterName hspace htailBlank
    rw [Keyword.ofWord?_eq_some_iff.2 rfl] at hstatement
    simp only [tailPieces_eq_ok_iff.2 htail] at hstatement
    simp only [linePieces, skipBlanks_append hlead hleaves, blanks_append hlead hleaves]
    split
    · next heq => exact absurd (List.append_eq_nil_iff.1 heq).1 keyword.word_ne_nil
    · next heq =>
      rw [← heq, hstatement]
      rfl

/-- The scanner of a line succeeds with the pieces that the line is cut into. -/
theorem linePieces_eq_ok_iff {last : Bool} {cs : List Char} {pieces : List Piece}
    (hfree : '\n' ∉ cs) : linePieces last cs = .ok pieces ↔ LineCut cs pieces :=
  ⟨lineCut_of_linePieces hfree, linePieces_of_lineCut last⟩

/-! ## Lines -/

theorem linesTokens_cons (line offset : Nat) (cs : List Char) {more : List (List Char)}
    (hmore : more ≠ []) :
    linesTokens line offset (cs :: more) =
      (do
        let tokens ← lineTokens false line offset cs
        let others ← linesTokens (line + 1) (offset + cs.length + 1) more
        .ok (tokens ++ ⟨.newline, "\n", place line offset cs.length 1⟩ :: others)) := by
  rw [linesTokens]
  exact fun h => absurd h hmore

end Scan

end LineScript
