import LineScript.Proofs.Token.Scanning
import LineScript.Text.Blank

/-!
# Lines without the blanks at their ends

The blanks at the two ends of a line are no part of any token. Those at the end can be dropped and
the line is cut into the same pieces (`LineCut.of_blanks`); those at the front can be dropped and
the pieces only come to stand in earlier columns (`LineCut.exists_along`). Main statement:
`LineCut.exists_strip`, a stripped line is cut into the pieces of the line, each of them moved by
the same number of columns.
-/

set_option autoImplicit false

namespace LineScript

open Text

/-! ## Blanks at the end -/

/-- A keyword does not end with a blank. -/
theorem Keyword.exists_last (keyword : Keyword) :
    ∃ d, keyword.word.toList.getLast? = some d ∧ isBlank d = false := by
  cases keyword with
  | text => exact ⟨'t', rfl, by decide⟩
  | number => exact ⟨'l', rfl, by decide⟩
  | input => exact ⟨'t', rfl, by decide⟩
  | output => exact ⟨'t', rfl, by decide⟩

namespace Scan

/-- If a text ends with a blank and its first part does not, then its second part does. -/
theorem exists_end {front rest cs : List Char} {c d : Char} (h : cs ++ [c] = front ++ rest)
    (hlast : front.getLast? = some d) (hd : isBlank d = false) (hc : isBlank c = true) :
    ∃ shorter, rest = shorter ++ [c] ∧ cs = front ++ shorter := by
  rcases List.eq_nil_or_concat' rest with rfl | ⟨shorter, e, rfl⟩
  · rw [List.append_nil] at h
    rw [← h, List.getLast?_concat] at hlast
    obtain rfl := Option.some.inj hlast
    rw [hc] at hd
    cases hd
  · rw [← List.append_assoc] at h
    obtain ⟨hcs, hlast⟩ := List.append_inj' h rfl
    cases hlast
    exact ⟨shorter, rfl, hcs⟩

theorem isBlank_dollar : isBlank '$' = false := by decide

theorem TextCut.of_blank {column : Nat} {cs : List Char} {c : Char} {pieces : List Piece}
    (hc : isBlank c = true) (h : TextCut column (cs ++ [c]) pieces) :
    TextCut column cs pieces := by
  generalize hall : cs ++ [c] = all at h
  induction h generalizing cs with
  | word column hword =>
    subst hall
    have hword := hword c (by simp)
    rw [isWordChar_eq_false_iff.2 (Or.inr hc)] at hword
    cases hword
  | @dollar column word rest more hword _ ih =>
    have hends : cs ++ [c] = (word ++ ['$', '$']) ++ rest := by simpa using hall
    obtain ⟨shorter, rfl, rfl⟩ := exists_end hends (by simp) isBlank_dollar hc
    rw [List.append_assoc]
    exact .dollar hword (ih rfl)
  | @reference column word name rest more hword hname hrest _ ih =>
    have hends : cs ++ [c] = (word ++ '$' :: (name ++ ['$'])) ++ rest := by simpa using hall
    obtain ⟨shorter, rfl, rfl⟩ :=
      exists_end hends (by simp [List.getLast?_cons]) isBlank_dollar hc
    have hhead : shorter.head? ≠ some '$' := by
      cases shorter with
      | nil => simp
      | cons d shorter => exact hrest
    have hcut := TextCut.reference hword hname hhead (ih rfl)
    simpa using hcut
  | @blank column word rest b more hword hb hmore ih =>
    rcases List.eq_nil_or_concat' rest with rfl | ⟨shorter, d, rfl⟩
    · obtain ⟨rfl, -⟩ := List.append_inj' hall rfl
      have hnil : more = [] := by
        have hpieces := textPieces_eq_ok_iff.2 hmore
        rw [textPieces_word _ (List.forall_mem_nil _)] at hpieces
        exact (Except.ok.inj hpieces).symm
      rw [hnil, List.append_nil]
      exact .word column hword
    · have hends : cs ++ [c] = (word ++ b :: shorter) ++ [d] := by simpa using hall
      obtain ⟨rfl, hlast⟩ := List.append_inj' hends rfl
      cases hlast
      exact .blank hword hb (ih rfl)

/-- An operand does not end with a blank. -/
theorem OperandCut.exists_last {column : Nat} {text : List Char} {piece : Piece}
    (h : OperandCut column text piece) :
    ∃ d, text.getLast? = some d ∧ isBlank d = false := by
  cases h with
  | digits hne hdigits =>
    refine ⟨text.getLast hne, List.getLast?_eq_some_getLast hne, ?_⟩
    rw [Bool.eq_false_iff]
    intro hblank
    have hdigit := hdigits _ (List.getLast_mem hne)
    rw [isDigit_of_isBlank hblank] at hdigit
    cases hdigit
  | reference hname => exact ⟨'$', by simp [List.getLast?_cons], isBlank_dollar⟩

theorem NumberCut.of_blank {column : Nat} {cs : List Char} {c : Char} {pieces : List Piece}
    (hc : isBlank c = true) (h : NumberCut column (cs ++ [c]) pieces) :
    NumberCut column cs pieces := by
  generalize hall : cs ++ [c] = all at h
  induction h generalizing cs with
  | @last column lead text trail piece hlead hpiece htrail =>
    obtain ⟨d, hlast, hd⟩ := hpiece.exists_last
    have hends : cs ++ [c] = (lead ++ text) ++ trail := by simpa using hall
    obtain ⟨shorter, rfl, rfl⟩ := exists_end hends (by simp [hlast]) hd hc
    rw [List.append_assoc]
    apply NumberCut.last hlead hpiece
    intro e he
    exact htrail e (List.mem_append_left _ he)
  | @link column lead text gap rest piece more op hlead hpiece hgap _ ih =>
    have hends : cs ++ [c] = (lead ++ (text ++ (gap ++ [op.char]))) ++ rest := by simpa using hall
    obtain ⟨shorter, rfl, rfl⟩ := exists_end hends (by simp) op.char_not_blank hc
    have hcut := NumberCut.link op hlead hpiece hgap (ih rfl)
    simpa using hcut

/-- What follows a name ends with a blank only after an equals sign. -/
theorem TailCut.of_blank {column : Nat} {keyword : Keyword} {tail : List Char} {c : Char}
    {pieces : List Piece} (hc : isBlank c = true)
    (h : TailCut column keyword (tail ++ [c]) pieces) :
    tail ≠ [] ∧ TailCut column keyword tail pieces := by
  generalize hall : tail ++ [c] = all at h
  cases h with
  | nothing keyword => simp at hall
  | text hvalue =>
    have hends : tail ++ [c] = ['='] ++ _ := hall
    obtain ⟨shorter, rfl, rfl⟩ := exists_end hends rfl (by decide) hc
    exact ⟨by simp, .text (hvalue.of_blank hc)⟩
  | number hvalue =>
    have hends : tail ++ [c] = ['='] ++ _ := hall
    obtain ⟨shorter, rfl, rfl⟩ := exists_end hends rfl (by decide) hc
    exact ⟨by simp, .number (hvalue.of_blank hc)⟩

theorem LineCut.of_blank {cs : List Char} {c : Char} {pieces : List Piece}
    (hc : isBlank c = true) (h : LineCut (cs ++ [c]) pieces) : LineCut cs pieces := by
  generalize hall : cs ++ [c] = all at h
  cases h with
  | empty hblanks =>
    apply LineCut.empty
    intro d hd
    apply hblanks
    rw [← hall]
    exact List.mem_append_left _ hd
  | @statement keyword lead gap name space tail pieces hlead hgap hname hspace hword hbare htail =>
    -- The blank belongs to the last part of the line that is not empty.
    rcases List.eq_nil_or_concat' tail with rfl | ⟨shorter, d, rfl⟩
    · cases htail with
      | nothing keyword =>
        rcases List.eq_nil_or_concat' name with rfl | ⟨front, d, rfl⟩
        · obtain rfl := hbare rfl
          obtain ⟨d, hlast, hd⟩ := keyword.exists_last
          have hends : cs ++ [c] = (lead ++ keyword.word.toList) ++ gap := by simpa using hall
          obtain ⟨shorter, rfl, rfl⟩ := exists_end hends (by simp [hlast]) hd hc
          have hshorter : Blanks shorter := fun e he => hgap e (List.mem_append_left _ he)
          have hcut := LineCut.statement hlead hshorter hname hspace (fun _ => rfl) hbare
            (.nothing keyword)
          simpa [namePiece] using hcut
        · have hd : isBlank d = false := by
            rw [Bool.eq_false_iff]
            intro hblank
            have hnameChar := hname d (by simp)
            rw [isNameChar_of_isBlank hblank] at hnameChar
            cases hnameChar
          have hends : cs ++ [c] =
              (lead ++ (keyword.word.toList ++ (gap ++ (front ++ [d])))) ++ space := by
            simpa using hall
          obtain ⟨shorter, rfl, rfl⟩ := exists_end hends (by simp) hd hc
          have hshorter : Blanks shorter := fun e he => hspace e (List.mem_append_left _ he)
          have hgapWord : gap = [] → (front ++ [d]) ++ (shorter ++ []) = [] := by
            intro hnil
            exact absurd (hword hnil) (by simp)
          have hcut := LineCut.statement hlead hgap hname hshorter hgapWord (by simp)
            (.nothing keyword)
          simpa using hcut
    · have hends : cs ++ [c] =
          (lead ++ (keyword.word.toList ++ (gap ++ (name ++ (space ++ shorter))))) ++ [d] := by
        simpa using hall
      obtain ⟨rfl, hlast⟩ := List.append_inj' hends rfl
      cases hlast
      obtain ⟨hne, hshorter⟩ := htail.of_blank hc
      apply LineCut.statement hlead hgap hname hspace _ hbare hshorter
      intro hnil
      exact absurd (hword hnil) (by simp)

/-- A piece that stands some columns further along. -/
def Piece.along (piece : Piece) (columns : Nat) : Piece :=
  { piece with column := piece.column + columns }

section Along

variable (columns : Nat)

theorem wordPiece_along (column : Nat) (word : List Char) :
    wordPiece (column + columns) word = (wordPiece column word).map (Piece.along · columns) := by
  simp only [wordPiece]
  split <;> rfl

theorem namePiece_along (column : Nat) (name : List Char) :
    namePiece (column + columns) name = (namePiece column name).map (Piece.along · columns) := by
  simp only [namePiece]
  split <;> rfl

end Along

/-- A text is cut into the same pieces wherever it starts. -/
theorem TextCut.exists_along {start columns : Nat} {cs : List Char} {pieces : List Piece}
    (h : TextCut (start + columns) cs pieces) :
    ∃ moved, TextCut start cs moved ∧ pieces = moved.map (Piece.along · columns) := by
  generalize hcolumn : start + columns = column at h
  induction h generalizing start with
  | @word column word hword =>
    subst hcolumn
    exact ⟨_, .word start hword, wordPiece_along columns start word⟩
  | @dollar column word rest more hword _ ih =>
    subst hcolumn
    have hnext : start + word.length + 2 + columns = start + columns + word.length + 2 := by omega
    obtain ⟨moved, hmoved, rfl⟩ := ih hnext
    exact ⟨_, .dollar hword hmoved, rfl⟩
  | @reference column word name rest more hword hname hrest _ ih =>
    subst hcolumn
    have hnext : start + word.length + name.length + 2 + columns =
        start + columns + word.length + name.length + 2 := by omega
    have hname' : start + columns + word.length + 1 = start + word.length + 1 + columns := by omega
    obtain ⟨moved, hmoved, rfl⟩ := ih hnext
    refine ⟨_, .reference hword hname hrest hmoved, ?_⟩
    rw [wordPiece_along, List.map_append, List.map_cons, Piece.along, hname']
  | @blank column word rest c more hword hc _ ih =>
    subst hcolumn
    have hnext : start + word.length + 1 + columns = start + columns + word.length + 1 := by omega
    obtain ⟨moved, hmoved, rfl⟩ := ih hnext
    refine ⟨_, .blank hword hc hmoved, ?_⟩
    rw [wordPiece_along, List.map_append]

theorem OperandCut.exists_along {start columns : Nat} {text : List Char} {piece : Piece}
    (h : OperandCut (start + columns) text piece) :
    ∃ moved : Piece, OperandCut start text moved ∧ piece = moved.along columns := by
  cases h with
  | digits hne hdigits => exact ⟨_, .digits hne hdigits, rfl⟩
  | @reference name hname =>
    refine ⟨_, .reference hname, ?_⟩
    rw [Piece.along, Nat.add_right_comm]

theorem NumberCut.exists_along {start columns : Nat} {cs : List Char} {pieces : List Piece}
    (h : NumberCut (start + columns) cs pieces) :
    ∃ moved, NumberCut start cs moved ∧ pieces = moved.map (Piece.along · columns) := by
  generalize hcolumn : start + columns = column at h
  induction h generalizing start with
  | @last column lead text trail piece hlead hpiece htrail =>
    subst hcolumn
    rw [Nat.add_right_comm] at hpiece
    obtain ⟨moved, hmoved, rfl⟩ := hpiece.exists_along
    exact ⟨_, .last hlead hmoved htrail, rfl⟩
  | @link column lead text gap rest piece more op hlead hpiece hgap _ ih =>
    subst hcolumn
    have hsign : start + columns + lead.length + text.length + gap.length =
        start + lead.length + text.length + gap.length + columns := by omega
    have hnext : start + lead.length + text.length + gap.length + 1 + columns =
        start + columns + lead.length + text.length + gap.length + 1 := by omega
    rw [Nat.add_right_comm] at hpiece
    obtain ⟨first, hfirst, rfl⟩ := hpiece.exists_along
    obtain ⟨moved, hmoved, rfl⟩ := ih hnext
    refine ⟨_, .link op hlead hfirst hgap hmoved, ?_⟩
    rw [List.map_cons, List.map_cons, hsign]
    rfl

theorem TailCut.exists_along {start columns : Nat} {keyword : Keyword} {cs : List Char}
    {pieces : List Piece} (h : TailCut (start + columns) keyword cs pieces) :
    ∃ moved, TailCut start keyword cs moved ∧ pieces = moved.map (Piece.along · columns) := by
  cases h with
  | nothing keyword => exact ⟨_, .nothing keyword, rfl⟩
  | text hvalue =>
    rw [Nat.add_right_comm] at hvalue
    obtain ⟨moved, hmoved, rfl⟩ := hvalue.exists_along
    exact ⟨_, .text hmoved, rfl⟩
  | number hvalue =>
    rw [Nat.add_right_comm] at hvalue
    obtain ⟨moved, hmoved, rfl⟩ := hvalue.exists_along
    exact ⟨_, .number hmoved, rfl⟩

/-- A line without blanks at its front is cut into the same pieces, in earlier columns. -/
theorem LineCut.exists_along {lead core : List Char} {pieces : List Piece} (hlead : Blanks lead)
    (hcore : Leaves isBlank core) (h : LineCut (lead ++ core) pieces) :
    ∃ moved, LineCut core moved ∧ pieces = moved.map (Piece.along · lead.length) := by
  generalize hall : lead ++ core = all at h
  have htake := takeWhile_run hlead hcore
  have hdrop := dropWhile_run hlead hcore
  rw [hall] at htake hdrop
  cases h with
  | empty hblanks =>
    refine ⟨[], .empty ?_, rfl⟩
    intro c hc
    apply hblanks
    rw [← hall]
    exact List.mem_append_right _ hc
  | @statement keyword front gap name space tail pieces hfront hgap hname hspace hword hbare
      htail =>
    have hleaves := leaves_word keyword (gap ++ (name ++ (space ++ tail)))
    obtain rfl := (takeWhile_run hfront hleaves).symm.trans htake
    obtain rfl := (dropWhile_run hfront hleaves).symm.trans hdrop
    have hname' : front.length + keyword.word.toList.length + gap.length =
        0 + keyword.word.toList.length + gap.length + front.length := by omega
    have htail' : front.length + keyword.word.toList.length + gap.length + name.length
        + space.length = 0 + keyword.word.toList.length + gap.length + name.length
        + space.length + front.length := by omega
    rw [htail'] at htail
    obtain ⟨moved, hmoved, rfl⟩ := htail.exists_along
    refine ⟨_, .statement blanks_nil hgap hname hspace hword hbare hmoved, ?_⟩
    rw [hname', namePiece_along, List.cons_append, List.cons_append, List.map_cons,
      List.map_append]
    simp [Piece.along]

/-! ## Both ends -/

/-- What is stripped off after the white space at the front is the white space at the end. -/
theorem strip_append (cs : List Char) :
    strip cs ++ (cs.dropWhile isSpace).rtakeWhile isSpace = cs.dropWhile isSpace :=
  List.rdropWhile_append_rtakeWhile

/-- A line is what is left of it with blanks around. -/
theorem exists_around_strip {cs : List Char} (hfree : '\n' ∉ cs) :
    ∃ lead trail, cs = lead ++ (strip cs ++ trail) ∧ Blanks lead ∧ Blanks trail := by
  have hsplit : cs = cs.takeWhile isSpace ++
      (strip cs ++ (cs.dropWhile isSpace).rtakeWhile isSpace) := by
    rw [strip_append, List.takeWhile_append_dropWhile]
  have hblank : ∀ {c : Char}, c ∈ cs → isSpace c = true → isBlank c = true := by
    intro c hc hspace
    rw [isBlank_eq_isSpace, hspace]
    rintro rfl
    exact hfree hc
  refine ⟨_, _, hsplit, ?_, ?_⟩
  · intro c hc
    exact hblank (List.takeWhile_subset _ hc) (List.mem_takeWhile_imp hc)
  · intro c hc
    apply hblank _ (List.mem_rtakeWhile_imp hc)
    rw [hsplit]
    exact List.mem_append_right _ (List.mem_append_right _ hc)

end Scan

end LineScript
