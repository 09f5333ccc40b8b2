import LineScript.Proofs.Tree.Parsing

/-!
# Decimal texts

A text that is read as an integer gives one of 64 bits (`inRange_of_read`), and each of them can be
read back from the text it is written as (`read_render`). A text is not converted at all exactly if
it is `Overlong`, a sign or none and more than 4300 digits (`read_eq_tooManyDigits_iff`). Main
statement: `read_eq_iff_spells`, any other text is read as the integer that it `Spells`, if that has
64 bits. The count of digits is looked at first, so that leading zeros can make a text overlong
(`read_overlong_zeros`).
-/

set_option autoImplicit false

namespace LineScript.Integer

open Parse

/-- A text is read as an integer if it is converted to one of 64 bits. -/
theorem read_eq_integer_iff_convert {text : String} {n : Int} :
    read text = .integer n ↔ convert text = .integer n ∧ InRange n := by
  constructor
  · intro h
    simp only [read] at h
    split at h
    · next m hconvert =>
      split at h
      · next hrange =>
        cases h
        exact ⟨hconvert, hrange⟩
      · cases h
    · next hother => exact absurd h (hother n)
  · rintro ⟨hconvert, hrange⟩
    simp only [read, hconvert, if_pos hrange]

theorem inRange_of_read {text : String} {n : Int} (h : read text = .integer n) : InRange n :=
  (read_eq_integer_iff_convert.1 h).2

/-- The check for digits lets through just what is made of digits. -/
theorem notDigits_eq_false_iff {digits : List Char} :
    (digits.isEmpty || !digits.all Char.isDigit) = false ↔
      digits ≠ [] ∧ ∀ c ∈ digits, c.isDigit = true := by
  rw [Bool.or_eq_false_iff, Bool.not_eq_false', List.all_eq_true, List.isEmpty_eq_false_iff]

/-! ## Writing and reading back -/

/-- An integer of 64 bits has far fewer digits than the limit allows. -/
theorem length_toDigits_le {size : Nat} (h : size ≤ 2 ^ 63) :
    (Nat.toDigits 10 size).length ≤ digitLimit := by
  have hshort : (Nat.toDigits 10 size).length ≤ 19 :=
    (Nat.length_toDigits_le_iff (by decide) (by decide)).2 (by omega)
  exact hshort.trans (by decide)

theorem isDigit_of_mem_toDigits {size : Nat} :
    ∀ c ∈ Nat.toDigits 10 size, c.isDigit = true :=
  fun _ hc => Nat.isDigit_of_mem_toDigits (by decide) (by decide) hc

theorem read_repr {size : Nat} (h : InRange size) : read size.repr = .integer size := by
  have hsize : size ≤ 2 ^ 63 - 1 := by
    simp only [InRange, greatest] at h
    omega
  rw [Nat.repr_eq_ofList_toDigits, read_digits_iff Nat.toDigits_ne_nil isDigit_of_mem_toDigits,
    Nat.ofDigitChars_ten_toDigits]
  exact ⟨length_toDigits_le (by omega), hsize, rfl⟩

theorem read_neg_repr {size : Nat} (h : InRange (-size)) :
    read ("-" ++ size.repr) = .integer (-size) := by
  have hsize : size ≤ 2 ^ 63 := by
    simp only [InRange, least] at h
    omega
  have hsplit : splitSign ("-" ++ size.repr).toList = (true, Nat.toDigits 10 size) := by
    rw [String.toList_append, Nat.toList_repr]
    rfl
  have hdigits := notDigits_eq_false_iff.2
    ⟨Nat.toDigits_ne_nil (n := size), isDigit_of_mem_toDigits⟩
  have hlength := length_toDigits_le hsize
  simp only [read, convert, hsplit, hdigits, Nat.ofDigitChars_ten_toDigits]
  rw [if_neg (by simp), if_neg (by omega)]
  simp [h]

/-- Every integer of 64 bits is read back from its decimal text. -/
theorem read_render {n : Int} (h : InRange n) : read (render n) = .integer n := by
  cases n with
  | ofNat size => exact read_repr h
  | negSucc size => exact read_neg_repr h

/-- The decimal text of an integer has no line feed. -/
theorem newline_not_mem_render (n : Int) : '\n' ∉ (render n).toList := by
  have hdigits : ∀ size : Nat, '\n' ∉ size.repr.toList := by
    intro size hmem
    rw [Nat.toList_repr] at hmem
    exact absurd (isDigit_of_mem_toDigits _ hmem) (by decide)
  cases n with
  | ofNat size => exact hdigits size
  | negSucc size =>
    rw [render, String.toList_append, List.mem_append, not_or]
    exact ⟨by decide, hdigits (size + 1)⟩

/-- An integer is written in base ten, unless it has more digits than the limit allows. -/
theorem write?_eq_some_iff {n : Int} {text : String} :
    write? n = some text ↔ n.natAbs < 10 ^ digitLimit ∧ text = render n := by
  have hlength : n.natAbs.repr.length ≤ digitLimit ↔ n.natAbs < 10 ^ digitLimit := by
    rw [Nat.repr_eq_ofList_toDigits, String.length_ofList]
    exact Nat.length_toDigits_le_iff (by decide) (by decide)
  rw [write?, ← hlength, ← Nat.not_lt]
  split
  · next hmany => simp [hmany]
  · next hfew => simp [hfew, eq_comm]

theorem write?_eq_none_iff {n : Int} : write? n = none ↔ 10 ^ digitLimit ≤ n.natAbs := by
  rw [Option.eq_none_iff_forall_ne_some, ← Nat.not_lt]
  constructor
  · intro h hfew
    exact h _ (write?_eq_some_iff.2 ⟨hfew, rfl⟩)
  · intro h text hwrite
    exact h (write?_eq_some_iff.1 hwrite).1

/-! ## Texts that are not converted -/

/-- Only texts with a sign or none and more than 4300 digits have too many digits. -/
theorem read_eq_tooManyDigits_iff_splitSign {text : String} {count : Nat} :
    read text = .tooManyDigits count ↔
      ∃ negative digits, splitSign text.toList = (negative, digits) ∧
        (∀ c ∈ digits, c.isDigit = true) ∧ 4300 < digits.length ∧ count = digits.length := by
  generalize hsign : splitSign text.toList = split
  obtain ⟨negative, digits⟩ := split
  simp only [read, convert, hsign, digitLimit]
  constructor
  · intro h
    by_cases hdigits : digits.isEmpty || !digits.all Char.isDigit
    · rw [if_pos hdigits] at h
      cases h
    · rw [if_neg hdigits] at h
      by_cases hmany : 4300 < digits.length
      · rw [if_pos hmany] at h
        cases h
        rw [Bool.not_eq_true, notDigits_eq_false_iff] at hdigits
        exact ⟨negative, digits, rfl, hdigits.2, hmany, rfl⟩
      · rw [if_neg hmany] at h
        generalize (if negative = true then _ else _ : Int) = n at h
        by_cases hrange : InRange n <;> simp [hrange] at h
  · rintro ⟨_, _, hsplit, hdigits, hmany, rfl⟩
    cases hsplit
    have hwritten := notDigits_eq_false_iff.2 ⟨List.ne_nil_of_length_pos (by omega), hdigits⟩
    rw [if_neg (by simp [hwritten]), if_pos hmany]

/-- A text that is a sign or none and more than 4300 digits; the count is that of the digits. -/
def Overlong (text : String) (count : Nat) : Prop :=
  ∃ sign digits : List Char, text.toList = sign ++ digits ∧
    (sign = [] ∨ sign = ['+'] ∨ sign = ['-']) ∧ (∀ c ∈ digits, c.isDigit = true) ∧
    digits.length = count ∧ 4300 < count

/-- What follows the sign of a text, and the sign. -/
theorem exists_sign (cs : List Char) :
    ∃ sign, cs = sign ++ (splitSign cs).2 ∧
      (sign = [] ∨ sign = ['+'] ∨ sign = ['-']) := by
  simp only [splitSign]
  split
  · exact ⟨['+'], rfl, Or.inr (Or.inl rfl)⟩
  · exact ⟨['-'], rfl, Or.inr (Or.inr rfl)⟩
  · exact ⟨[], rfl, Or.inl rfl⟩

theorem read_eq_tooManyDigits_iff {text : String} {count : Nat} :
    read text = .tooManyDigits count ↔ Overlong text count := by
  rw [read_eq_tooManyDigits_iff_splitSign]
  constructor
  · rintro ⟨negative, digits, hsplit, hdigits, hmany, rfl⟩
    obtain ⟨sign, htext, hsign⟩ := exists_sign text.toList
    rw [hsplit] at htext
    exact ⟨sign, digits, htext, hsign, hdigits, rfl, hmany⟩
  · rintro ⟨sign, digits, htext, hsign, hdigits, rfl, hmany⟩
    rw [htext]
    rcases hsign with rfl | rfl | rfl
    · exact ⟨false, digits, splitSign_digits hdigits, hdigits, hmany, rfl⟩
    · exact ⟨false, digits, rfl, hdigits, hmany, rfl⟩
    · exact ⟨true, digits, rfl, hdigits, hmany, rfl⟩

/-! ## Texts that are integers -/

/-- The value of decimal digits, the last of which counts ones. -/
def decimal (digits : List Char) : Nat :=
  Nat.ofDigits 10 (digits.reverse.map fun c => c.toNat - '0'.toNat)

/-- A sign or none and at least one decimal digit, and the integer that is written so. -/
inductive Spells : List Char → Int → Prop
  | plain {digits : List Char} (hne : digits ≠ []) (hdigits : ∀ c ∈ digits, '0' ≤ c ∧ c ≤ '9') :
      Spells digits (decimal digits)
  | plus {digits : List Char} (hne : digits ≠ []) (hdigits : ∀ c ∈ digits, '0' ≤ c ∧ c ≤ '9') :
      Spells ('+' :: digits) (decimal digits)
  | minus {digits : List Char} (hne : digits ≠ []) (hdigits : ∀ c ∈ digits, '0' ≤ c ∧ c ≤ '9') :
      Spells ('-' :: digits) (-decimal digits)

theorem isDigit_iff (c : Char) : c.isDigit = true ↔ '0' ≤ c ∧ c ≤ '9' := by
  simp [Char.isDigit, Char.le_def]

/-- Reading digits from the first on gives the value that counts them from the last. -/
theorem ofDigitChars_eq_decimal (digits : List Char) :
    Nat.ofDigitChars 10 digits 0 = decimal digits := by
  induction digits using List.reverseRecOn with
  | nil => rfl
  | append_singleton digits c ih =>
    rw [Nat.ofDigitChars_append, ih, decimal, decimal, List.reverse_append, List.reverse_singleton,
      List.singleton_append, List.map_cons, Nat.ofDigits_cons]
    simp only [Nat.ofDigitChars, List.foldl_cons, List.foldl_nil]
    exact Nat.add_comm _ _

/-- A text spells an integer exactly if digits follow its sign. -/
theorem spells_iff {cs digits : List Char} {negative : Bool} {n : Int}
    (hsign : splitSign cs = (negative, digits)) :
    Spells cs n ↔ digits ≠ [] ∧ (∀ c ∈ digits, c.isDigit = true) ∧
      n = if negative then -(decimal digits : Int) else decimal digits := by
  simp only [isDigit_iff]
  constructor
  · intro h
    cases h with
    | plain hne hdigits =>
      rw [splitSign_digits fun c hc => (isDigit_iff c).2 (hdigits c hc)] at hsign
      cases hsign
      exact ⟨hne, hdigits, rfl⟩
    | plus hne hdigits =>
      cases hsign
      exact ⟨hne, hdigits, rfl⟩
    | minus hne hdigits =>
      cases hsign
      exact ⟨hne, hdigits, rfl⟩
  · rintro ⟨hne, hdigits, rfl⟩
    simp only [splitSign] at hsign
    split at hsign
    · cases hsign
      exact .plus hne hdigits
    · cases hsign
      exact .minus hne hdigits
    · cases hsign
      exact .plain hne hdigits

theorem convert_of_spells {text : String} {n : Int} (h : Spells text.toList n) :
    convert text = .integer n ∨ ∃ count, convert text = .tooManyDigits count := by
  generalize hsign : splitSign text.toList = split
  obtain ⟨negative, digits⟩ := split
  obtain ⟨hne, hdigits, rfl⟩ := (spells_iff hsign).1 h
  have hwritten := notDigits_eq_false_iff.2 ⟨hne, hdigits⟩
  simp only [convert, hsign, hwritten, ofDigitChars_eq_decimal]
  by_cases hmany : digitLimit < digits.length
  · exact Or.inr ⟨digits.length, if_pos hmany⟩
  · exact Or.inl (if_neg hmany)

theorem spells_of_convert {text : String} {n : Int} (h : convert text = .integer n) :
    Spells text.toList n := by
  generalize hsign : splitSign text.toList = split at h
  obtain ⟨negative, digits⟩ := split
  simp only [convert, hsign, ofDigitChars_eq_decimal] at h
  split at h
  · cases h
  · next hwritten =>
    split at h
    · cases h
    · cases h
      rw [Bool.not_eq_true, notDigits_eq_false_iff] at hwritten
      exact (spells_iff hsign).2 ⟨hwritten.1, hwritten.2, rfl⟩

/-- A text that is read as an integer spells it. -/
theorem spells_of_read {text : String} {n : Int} (h : read text = .integer n) :
    Spells text.toList n :=
  spells_of_convert (read_eq_integer_iff_convert.1 h).1

/-- A text that spells an integer of 64 bits is read as that integer, unless it is overlong. -/
theorem read_of_spells {text : String} {n : Int} (h : Spells text.toList n) (hrange : InRange n)
    (hlength : ∀ count, ¬Overlong text count) : read text = .integer n := by
  rcases convert_of_spells h with hconvert | ⟨count, hconvert⟩
  · exact read_eq_integer_iff_convert.2 ⟨hconvert, hrange⟩
  · have hread : read text = .tooManyDigits count := by simp only [read, hconvert]
    exact absurd (read_eq_tooManyDigits_iff.1 hread) (hlength count)

/-- How a text is read. Unless it is overlong, it is read as the integer that it spells if that has
64 bits, and else as none. An overlong text is not converted at all, whatever it spells. The decimal
text of an integer of 64 bits is read as that integer. -/
theorem read_eq_iff_spells (text : String) :
    (∀ n, read text = .integer n ↔
        Spells text.toList n ∧ InRange n ∧ ∀ count, ¬Overlong text count) ∧
      (read text = .notAnInteger ↔
        (∀ n, Spells text.toList n → ¬InRange n) ∧ ∀ count, ¬Overlong text count) ∧
      (∀ count, read text = .tooManyDigits count ↔ Overlong text count) ∧
      ∀ n, InRange n → read (render n) = .integer n := by
  have hoverlong : ∀ {count}, Overlong text count → read text = .tooManyDigits count :=
    read_eq_tooManyDigits_iff.2
  refine ⟨fun n => ⟨?_, ?_⟩, ⟨?_, ?_⟩, fun count => read_eq_tooManyDigits_iff,
    fun n hrange => read_render hrange⟩
  · intro hread
    refine ⟨spells_of_read hread, inRange_of_read hread, fun count hcount => ?_⟩
    rw [hoverlong hcount] at hread
    cases hread
  · rintro ⟨hspells, hrange, hlength⟩
    exact read_of_spells hspells hrange hlength
  · intro hread
    have hlength : ∀ count, ¬Overlong text count := fun count hcount => by
      rw [hoverlong hcount] at hread
      cases hread
    refine ⟨fun n hspells hrange => ?_, hlength⟩
    rw [read_of_spells hspells hrange hlength] at hread
    cases hread
  · rintro ⟨hnone, hlength⟩
    cases hread : read text with
    | integer n => exact absurd (inRange_of_read hread) (hnone n (spells_of_read hread))
    | notAnInteger => rfl
    | tooManyDigits count => exact absurd (read_eq_tooManyDigits_iff.1 hread) (hlength count)

theorem spells_zeros {count : Nat} (h : 0 < count) : Spells (List.replicate count '0') 0 := by
  have hzeros : ∀ c ∈ List.replicate count '0', '0' ≤ c ∧ c ≤ '9' := by
    intro c hc
    rw [List.eq_of_mem_replicate hc]
    decide
  have hvalue : decimal (List.replicate count '0') = 0 := by
    rw [decimal, List.reverse_replicate, List.map_replicate]
    exact Nat.ofDigits_replicate_zero
  have hspells := Spells.plain (List.ne_nil_of_length_pos (by rwa [List.length_replicate])) hzeros
  rwa [hvalue] at hspells

/-- Zeros spell zero however many they are, but 4301 of them are not read. -/
theorem read_overlong_zeros :
    Spells (List.replicate 4301 '0') 0 ∧ InRange 0 ∧
      read (String.ofList (List.replicate 4301 '0')) = .tooManyDigits 4301 := by
  refine ⟨spells_zeros (by decide), by decide, read_eq_tooManyDigits_iff.2 ?_⟩
  refine ⟨[], List.replicate 4301 '0', String.toList_ofList, Or.inl rfl, ?_, List.length_replicate,
    by decide⟩
  intro c hc
  rw [List.eq_of_mem_replicate hc]
  decide

end LineScript.Integer
