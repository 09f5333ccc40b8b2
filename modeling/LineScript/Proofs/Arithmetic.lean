import LineScript.Proofs.Session.Accumulator

/-!
# Wrapped arithmetic

An operator computes with unbounded integers and wraps the result, and the operations of an
expression do so one after the other. Both come to something simpler. What an integer is wrapped to
is the one integer of 64 bits that differs from it by a multiple of 2^64 (`eq_wrap_iff`), so on
integers of 64 bits the operators are those of a machine with words of 64 bits (`toInt_onWords`),
and only the quotient of the least integer by minus one does not fit into a word
(`inRange_tdiv_iff`). And since sums, differences and products of congruent integers are congruent,
it makes no difference how often a result is wrapped on the way (`DivisionFree.congruent`).

Main statements: `Operator.apply_twosComplement`, what each operator gives, and
`NumberExpr.eval_eq_ok_iff_wrap_exact`, the value of an expression without divisions is its exact
value, wrapped once.
-/

set_option autoImplicit false

namespace LineScript

open Accumulator (combine applySymbol_symbol)

namespace Integer

/-! ## Wrapping -/

/-- The second integer has 64 bits and differs from the first by a multiple of 2^64. -/
structure Wraps (m n : Int) : Prop where
  inRange : InRange n
  modEq : n ≡ m [ZMOD 2 ^ 64]

/-- Wrapping takes the remainder, counted from the least integer of 64 bits. -/
theorem wrap_eq_emod (n : Int) : wrap n = (n - least) % 2 ^ 64 + least := by
  simp only [wrap, least, Int.bmod]
  omega

/-- An integer wraps to one integer only. -/
theorem eq_wrap_iff {m n : Int} : n = wrap m ↔ Wraps m n := by
  constructor
  · rintro rfl
    refine ⟨wrap_inRange m, ?_⟩
    rw [Int.ModEq, wrap_eq_emod, least]
    omega
  · rintro ⟨⟨hleast, hgreatest⟩, hmod⟩
    rw [Int.ModEq] at hmod
    rw [wrap_eq_emod]
    simp only [least, greatest] at *
    omega

theorem modEq_wrap (n : Int) : wrap n ≡ n [ZMOD 2 ^ 64] := (eq_wrap_iff.1 rfl).modEq

/-! ## Quotients -/

/-- A fraction without what stands after the point. -/
def truncate (q : ℚ) : Int := if 0 ≤ q then ⌊q⌋ else ⌈q⌉

theorem truncate_of_nonneg {q : ℚ} (h : 0 ≤ q) : truncate q = ⌊|q|⌋ := by
  rw [truncate, if_pos h, abs_of_nonneg h]

theorem truncate_of_nonpos {q : ℚ} (h : q ≤ 0) : truncate q = -⌊|q|⌋ := by
  rw [truncate, abs_of_nonpos h, Int.floor_neg, neg_neg]
  split
  · next hnonneg =>
    obtain rfl : q = 0 := le_antisymm h hnonneg
    rfl
  · rfl

/-- The size of a fraction, rounded down, is the quotient of the sizes. -/
theorem floor_abs_div (left right : Int) : ⌊|(left / right : ℚ)|⌋ = |left| / |right| := by
  have hsizes : |(left / right : ℚ)| = (|left| : Int) / (right.natAbs : ℚ) := by
    rw [abs_div, Int.cast_abs, Nat.cast_natAbs, Int.cast_abs]
  rw [hsizes, Rat.floor_intCast_div_natCast, Int.natCast_natAbs]

/-- The quotient of the sizes, with a minus sign if one of the integers is negative and the other is
not. -/
def quotient (left right : Int) : Int :=
  if left < 0 ↔ right < 0 then |left| / |right| else -(|left| / |right|)

theorem tdiv_eq_quotient (left right : Int) : left.tdiv right = quotient left right := by
  rw [quotient]
  rcases lt_or_ge left 0 with hl | hl <;> rcases lt_or_ge right 0 with hr | hr
  · rw [if_pos (by omega), abs_of_neg hl, abs_of_neg hr,
      ← Int.tdiv_eq_ediv_of_nonneg (by omega), Int.neg_tdiv, Int.tdiv_neg, neg_neg]
  · rw [if_neg (by omega), abs_of_neg hl, abs_of_nonneg hr,
      ← Int.tdiv_eq_ediv_of_nonneg (by omega), Int.neg_tdiv, neg_neg]
  · rw [if_neg (by omega), abs_of_nonneg hl, abs_of_neg hr,
      ← Int.tdiv_eq_ediv_of_nonneg hl, Int.tdiv_neg, neg_neg]
  · rw [if_pos (by omega), abs_of_nonneg hl, abs_of_nonneg hr, Int.tdiv_eq_ediv_of_nonneg hl]

theorem quotient_eq_truncate (left right : Int) :
    quotient left right = truncate (left / right : ℚ) := by
  rw [quotient, ← floor_abs_div]
  -- A zero dividend counts as positive on the one side and has no sign on the other, but then both
  -- results are zero.
  rcases lt_or_ge left 0 with hl | hl <;> rcases lt_or_ge right 0 with hr | hr
  · rw [if_pos (by omega), truncate_of_nonneg
      (div_nonneg_of_nonpos (Int.cast_nonpos.2 hl.le) (Int.cast_nonpos.2 hr.le))]
  · rw [if_neg (by omega), truncate_of_nonpos
      (div_nonpos_of_nonpos_of_nonneg (Int.cast_nonpos.2 hl.le) (Int.cast_nonneg hr))]
  · rw [if_neg (by omega), truncate_of_nonpos
      (div_nonpos_of_nonneg_of_nonpos (Int.cast_nonneg hl) (Int.cast_nonpos.2 hr.le))]
  · rw [if_pos (by omega), truncate_of_nonneg
      (div_nonneg (Int.cast_nonneg hl) (Int.cast_nonneg hr))]

theorem tdiv_eq_truncate (left right : Int) : left.tdiv right = truncate (left / right : ℚ) := by
  rw [tdiv_eq_quotient, quotient_eq_truncate]

/-- Of all quotients of integers of 64 bits only one has more than 64 bits. -/
theorem inRange_tdiv_iff {left right : Int} (hleft : InRange left) (hright : right ≠ 0) :
    InRange (left.tdiv right) ↔ ¬(left = least ∧ right = -1) := by
  constructor
  · rintro hrange ⟨rfl, rfl⟩
    revert hrange
    decide
  · intro hother
    have hsize := Int.natAbs_tdiv left right
    have hdivisor : right = 1 ∨ right = -1 ∨ 2 ≤ right.natAbs := by omega
    simp only [InRange, least, greatest] at *
    rcases hdivisor with rfl | rfl | hdivisor
    · rw [Int.tdiv_one]
      exact hleft
    · rw [Int.tdiv_neg, Int.tdiv_one]
      omega
    · have hhalf : left.natAbs / right.natAbs ≤ left.natAbs / 2 :=
        Nat.div_le_div_left hdivisor (by decide)
      have hquotient : (left.tdiv right).natAbs ≤ left.natAbs / 2 := hsize ▸ hhalf
      omega

theorem toInt_ofInt {n : Int} (h : InRange n) : (BitVec.ofInt 64 n).toInt = n := by
  rw [BitVec.toInt_ofInt]
  exact wrap_eq_self h

end Integer

open Integer

/-! ## Operators -/

namespace Operator

/-- The operator on words of 64 bits that stand for signed integers in two's complement. -/
def onWords : Operator → BitVec 64 → BitVec 64 → BitVec 64
  | add, x, y => x + y
  | sub, x, y => x - y
  | mul, x, y => x * y
  | div, x, y => x.sdiv y

/-- An operator on words gives the wrapped result of the operator on the integers they stand for. -/
theorem toInt_onWords (op : Operator) (x y : BitVec 64) :
    (op.onWords x y).toInt = wrap (combine op x.toInt y.toInt) := by
  cases op with
  | add => exact BitVec.toInt_add x y
  | sub => exact BitVec.toInt_sub
  | mul => exact BitVec.toInt_mul x y
  | div => exact BitVec.toInt_sdiv x y

/-- An operator has the wrapped exact result, unless it divides by zero. -/
theorem apply_eq_some_wrap {op : Operator} {left right : Int} (h : ¬(op = div ∧ right = 0)) :
    op.apply left right = some (wrap (combine op left right)) := by
  cases op with
  | add => rfl
  | sub => rfl
  | mul => rfl
  | div =>
    have hright : right ≠ 0 := fun hzero => h ⟨rfl, hzero⟩
    rw [apply, if_neg hright, combine]

theorem apply_eq_some_iff {op : Operator} {left right : Int} (h : ¬(op = div ∧ right = 0))
    (n : Int) : op.apply left right = some n ↔ Wraps (combine op left right) n := by
  rw [apply_eq_some_wrap h, Option.some.injEq, eq_comm, eq_wrap_iff]

/-- What the operators give. Sums, differences and products of integers of any size are wrapped, and
so is a quotient, which is truncated toward zero; only a division by zero gives nothing. On integers
of 64 bits the operators are those of a machine, and the quotient is the exact one except that of
the least integer by minus one, which is the least integer again. -/
theorem apply_twosComplement (left right : Int) :
    (∀ op : Operator, op.apply left right = none ↔ op = div ∧ right = 0) ∧
      (∀ n, add.apply left right = some n ↔ Wraps (left + right) n) ∧
      (∀ n, sub.apply left right = some n ↔ Wraps (left - right) n) ∧
      (∀ n, mul.apply left right = some n ↔ Wraps (left * right) n) ∧
      (right ≠ 0 → ∀ n, div.apply left right = some n ↔ Wraps (truncate (left / right : ℚ)) n) ∧
      (InRange left → InRange right →
        (∀ op : Operator, ¬(op = div ∧ right = 0) → op.apply left right =
          some (op.onWords (BitVec.ofInt 64 left) (BitVec.ofInt 64 right)).toInt) ∧
        (right ≠ 0 → (div.apply left right = some (truncate (left / right : ℚ)) ↔
          ¬(left = least ∧ right = -1)))) ∧
      div.apply least (-1) = some least := by
  refine ⟨fun op => op.apply_eq_none_iff left right, apply_eq_some_iff (by simp),
    apply_eq_some_iff (by simp), apply_eq_some_iff (by simp), ?_, ?_, rfl⟩
  · intro hright n
    rw [apply_eq_some_iff (fun h => hright h.2), combine, tdiv_eq_truncate]
  · intro hleft hrange
    refine ⟨?_, ?_⟩
    · intro op hop
      rw [toInt_onWords, toInt_ofInt hleft, toInt_ofInt hrange, apply_eq_some_wrap hop]
    · intro hright
      have hzero : ¬(div = div ∧ right = 0) := fun h => hright h.2
      rw [← inRange_tdiv_iff hleft hright, apply_eq_some_wrap hzero, combine,
        ← tdiv_eq_truncate, Option.some.injEq]
      exact ⟨fun hwrap => hwrap ▸ wrap_inRange _, wrap_eq_self⟩

/-- The quotient that does not fit into a word, and a product that does not. -/
theorem apply_twosComplement_least :
    InRange least ∧ InRange (-1) ∧ div.apply least (-1) ≠ some (truncate (least / (-1 : Int))) ∧
      div.apply least (-1) =
        some ((BitVec.ofInt 64 least).sdiv (BitVec.ofInt 64 (-1))).toInt ∧
      ∀ n, mul.apply least (-1) = some n ↔ Wraps 9223372036854775808 n := by
  have hleast : InRange least := by decide
  have hminus : InRange (-1) := by decide
  obtain ⟨-, -, -, hmul, -, hwords, -⟩ := apply_twosComplement least (-1)
  obtain ⟨hmachine, hquotient⟩ := hwords hleast hminus
  refine ⟨hleast, hminus, ?_, hmachine div (by decide), hmul⟩
  intro hexact
  exact (hquotient (by decide)).1 hexact ⟨rfl, rfl⟩

end Operator

/-! ## Expressions -/

/-- The integer that a reading found. -/
def Integer.Reading.integer? : Reading → Option Int
  | .integer n => some n
  | .notAnInteger => none
  | .tooManyDigits _ => none

namespace NumberExpr

/-- Expressions made of integers of any size, variables, sums, differences and products. -/
inductive DivisionFree : NumberExpr → Prop
  | literal (span : Span) (n : Int) : DivisionFree (.literal span n)
  | reference (span : Span) (name : String) : DivisionFree (.reference span name)
  | binary (span : Span) {op : Operator} {left right : NumberExpr} (hop : op ≠ .div)
      (hleft : left.DivisionFree) (hright : right.DivisionFree) :
      DivisionFree (.binary span op.symbol left right)

/-- The number of operations of an expression. -/
def operations : NumberExpr → Nat
  | binary _ _ left right => left.operations + right.operations + 1
  | _ => 0

/-- The exact value of an expression, over the unbounded integers. There is none if a variable is
not set or cannot be read as a number, or if there is a division in the expression. -/
def exactValue (space : Namespace) : NumberExpr → Option Int
  | literal _ value => some value
  | reference _ name => (space.get? name).bind fun value => value.toInteger.integer?
  | binary _ symbol left right => do
    let l ← left.exactValue space
    let r ← right.exactValue space
    match Operator.ofSymbol? symbol with
    | some .add => some (l + r)
    | some .sub => some (l - r)
    | some .mul => some (l * r)
    | _ => none
  | misplaced _ _ => none

/-- A value and an exact value that are congruent, or neither of the two. -/
inductive Congruent : Except Failure Int → Option Int → Prop
  | value {n m : Int} (hmod : n ≡ m [ZMOD 2 ^ 64]) : Congruent (.ok n) (some m)
  | neither (failure : Failure) : Congruent (.error failure) none

section Congruence

variable {space : Namespace} {room : Nat} {op : Operator} (hop : op ≠ .div)

/-- A variable is read as it is, or not at all. -/
theorem congruent_reference (space : Namespace) (span : Span) (name : String) :
    Congruent (space.number name span) (exactValue space (.reference span name)) := by
  simp only [exactValue, Namespace.number, Namespace.lookup]
  cases space.get? name with
  | none => exact .neither _
  | some value =>
    simp only [bind, Except.bind, Option.bind_some]
    cases value.toInteger with
    | integer n => exact .value rfl
    | notAnInteger => exact .neither _
    | tooManyDigits count => exact .neither _

include hop

theorem eval_binary (span : Span) (left right : NumberExpr) :
    eval space (room + 1) (.binary span op.symbol left right) =
      left.eval space room >>= fun l => right.eval space room >>= fun r =>
        .ok (wrap (combine op l r)) := by
  simp only [eval, applySymbol_symbol, hop, false_and, if_false]

theorem exactValue_binary (span : Span) (left right : NumberExpr) :
    exactValue space (.binary span op.symbol left right) =
      (left.exactValue space).bind fun l => (right.exactValue space).bind fun r =>
        some (combine op l r) := by
  cases op with
  | div => exact absurd rfl hop
  | _ => rfl

theorem modEq_combine {l r m n : Int} (hl : l ≡ m [ZMOD 2 ^ 64]) (hr : r ≡ n [ZMOD 2 ^ 64]) :
    combine op l r ≡ combine op m n [ZMOD 2 ^ 64] := by
  cases op with
  | add => exact hl.add hr
  | sub => exact hl.sub hr
  | mul => exact hl.mul hr
  | div => exact absurd rfl hop

/-- One operation: it may wrap its result, since that keeps the remainder. -/
theorem Congruent.binary (span : Span) {left right : NumberExpr}
    (hleft : Congruent (left.eval space room) (left.exactValue space))
    (hright : Congruent (right.eval space room) (right.exactValue space)) :
    Congruent (eval space (room + 1) (.binary span op.symbol left right))
      (exactValue space (.binary span op.symbol left right)) := by
  rw [eval_binary hop, exactValue_binary hop]
  generalize left.eval space room = l, left.exactValue space = m at hleft
  generalize right.eval space room = r, right.exactValue space = n at hright
  cases hleft with
  | neither failure => exact .neither failure
  | value hl =>
    cases hright with
    | neither failure => exact .neither failure
    | value hr => exact .value ((modEq_wrap _).trans (modEq_combine hop hl hr))

end Congruence

/-- The value and the exact value of an expression differ by a multiple of 2^64, where there is room
for the value. -/
theorem DivisionFree.congruent (space : Namespace) {expr : NumberExpr} (h : expr.DivisionFree)
    {room : Nat} (hdepth : expr.depth ≤ room) :
    Congruent (expr.eval space room) (expr.exactValue space) := by
  induction h generalizing room with
  | literal span n =>
    obtain ⟨room, rfl⟩ := Nat.exists_eq_add_of_le' hdepth
    exact .value rfl
  | reference span name =>
    obtain ⟨room, rfl⟩ := Nat.exists_eq_add_of_le' hdepth
    exact congruent_reference space span name
  | binary span hop _ _ ihleft ihright =>
    obtain ⟨room, rfl⟩ := Nat.exists_eq_add_of_le' (Nat.le_trans (depth_pos _) hdepth)
    obtain ⟨hleft, hright⟩ := Nat.max_le.1 (Nat.le_of_succ_le_succ hdepth)
    exact .binary hop span (ihleft hleft) (ihright hright)

/-- The result of an operation has 64 bits, whatever the operands are. -/
theorem DivisionFree.inRange_eval {space : Namespace} {room : Nat} {expr : NumberExpr}
    (h : expr.DivisionFree) (hoperations : 0 < expr.operations) {n : Int}
    (heval : expr.eval space room = .ok n) : InRange n := by
  cases h with
  | literal span n => exact absurd hoperations (Nat.lt_irrefl 0)
  | reference span name => exact absurd hoperations (Nat.lt_irrefl 0)
  | binary span hop hleft hright =>
    cases room with
    | zero => cases heval
    | succ room =>
      simp only [eval_binary hop, bind_eq_ok_iff] at heval
      obtain ⟨l, -, r, -, hresult⟩ := heval
      cases hresult
      exact wrap_inRange _

/-- An expression of sums, differences and products has a value exactly if there is room for it and
it has an exact value, and its value is the exact one, wrapped once. -/
theorem eval_eq_ok_iff_wrap_exact {expr : NumberExpr} (hfree : expr.DivisionFree)
    (hoperations : 0 < expr.operations) (space : Namespace) (room : Nat) (n : Int) :
    expr.eval space room = .ok n ↔
      expr.depth ≤ room ∧ ∃ m, expr.exactValue space = some m ∧ n = wrap m := by
  by_cases hdepth : expr.depth ≤ room
  · have hcongruent := hfree.congruent space hdepth
    have hrange : ∀ n, expr.eval space room = .ok n → InRange n :=
      fun n => hfree.inRange_eval hoperations
    generalize expr.eval space room = value, expr.exactValue space = exact at hcongruent hrange
    cases hcongruent with
    | neither failure => simp
    | @value found m hmod =>
      have hwrap : found = wrap m := eq_wrap_iff.2 ⟨hrange found rfl, hmod⟩
      simp [hdepth, hwrap, eq_comm]
  · exact iff_of_false (fun heval => hdepth (depth_le_of_eval heval)) fun h => hdepth h.1

/-- A literal and a product that do not fit into 64 bits, with a variable that holds a text. -/
theorem eval_eq_ok_iff_wrap_exact_overflow :
    ∃ expr : NumberExpr, expr = .binary .zero "-" (.binary .zero "*"
        (.literal .zero 55340232221128654853) (.reference .zero "a")) (.literal .zero 1) ∧
      expr.DivisionFree ∧ 0 < expr.operations ∧
      expr.eval ⟨[("a", .text "-9223372036854775808")]⟩ 3 = .ok 9223372036854775807 ∧
      expr.depth ≤ 3 ∧ ∃ m, expr.exactValue ⟨[("a", .text "-9223372036854775808")]⟩ = some m ∧
        9223372036854775807 = wrap m := by
  have hproduct : DivisionFree (.binary .zero Operator.mul.symbol
      (.literal .zero 55340232221128654853) (.reference .zero "a")) :=
    .binary _ (by decide) (.literal _ _) (.reference _ _)
  have hfree : DivisionFree (.binary .zero Operator.sub.symbol _ (.literal .zero 1)) :=
    .binary _ (by decide) hproduct (.literal _ _)
  have heval : eval ⟨[("a", .text "-9223372036854775808")]⟩ 3 (.binary .zero "-" (.binary .zero "*"
      (.literal .zero 55340232221128654853) (.reference .zero "a")) (.literal .zero 1)) =
        .ok 9223372036854775807 := by cbv
  exact ⟨_, rfl, hfree, by decide, heval,
    (eval_eq_ok_iff_wrap_exact hfree (by decide) _ _ _).1 heval⟩

end NumberExpr

end LineScript
