import LineScript.Proofs.Integer
import LineScript.Proofs.Tree.Program

/-!
# The shape of parsed trees

Trees that are built by hand can be of any make; the parser makes only some of them. A tree is
*proper* if each part of it is of the kind that its place calls for, each of its operations has the
symbol of an operator, its literals are integers of 64 bits and its targets have names. Main
statement: `proper_of_ofSource`, all statements of a source are proper.
-/

set_option autoImplicit false

namespace LineScript

open Parse Text

/-! ## Proper trees -/

/-- An expression for a number with nothing misplaced in it. -/
inductive NumberExpr.Proper : NumberExpr → Prop
  | literal {span : Span} {n : Int} (hrange : Integer.InRange n) : Proper (.literal span n)
  | reference (span : Span) (name : String) : Proper (.reference span name)
  | binary (span : Span) (op : Operator) {left right : NumberExpr} (hleft : left.Proper)
      (hright : right.Proper) : Proper (.binary span op.symbol left right)

/-- An expression for a text with nothing misplaced in it. -/
inductive TextExpr.Proper : TextExpr → Prop
  | literal (span : Span) (text : String) : Proper (.literal span text)
  | reference (span : Span) (name : String) : Proper (.reference span name)
  | concat (span : Span) {left right : TextExpr} (hleft : left.Proper) (hright : right.Proper) :
      Proper (.concat span left right)

/-- A statement about a variable with nothing misplaced in it. -/
inductive Statement.Proper : Statement → Prop
  | text (span nameSpan : Span) (name : String) {value : TextExpr} (hvalue : value.Proper) :
      Proper (.text span (.named nameSpan name) value)
  | number (span nameSpan : Span) (name : String) {value : NumberExpr} (hvalue : value.Proper) :
      Proper (.number span (.named nameSpan name) value)
  | input (span nameSpan : Span) (name : String) : Proper (.input span (.named nameSpan name))
  | output (span nameSpan : Span) (name : String) : Proper (.output span (.named nameSpan name))

/-! ## What the parser makes -/

theorem proper_of_textLeaf? {token : Token} {leaf : TextExpr} (h : textLeaf? token = some leaf) :
    leaf.Proper := by
  rcases textLeaf?_eq_some_iff.1 h with ⟨-, rfl⟩ | ⟨-, rfl⟩
  · exact .literal _ _
  · exact .reference _ _

theorem proper_of_textTree {tokens : List Token} {value : TextExpr} (h : TextTree tokens value) :
    value.Proper := by
  induction h with
  | leaf hleaf => exact proper_of_textLeaf? hleaf
  | concat hleaf _ ih => exact .concat _ (proper_of_textLeaf? hleaf) ih

theorem proper_of_numberLeaf {token : Token} {leaf : NumberExpr} (h : NumberLeaf token leaf) :
    leaf.Proper := by
  cases h with
  | literal hkind hread => exact .literal (Integer.inRange_of_read hread)
  | reference hkind => exact .reference _ _

theorem proper_of_chainTree {left value : NumberExpr} {tokens : List Token}
    (h : ChainTree left tokens value) (hleft : left.Proper) : value.Proper := by
  induction h with
  | done left => exact hleft
  | link hsign hleaf _ ih => exact ih (.binary _ _ hleft (proper_of_numberLeaf hleaf))

theorem proper_of_lineTree {tokens : List Token} {parsed : Statement}
    (h : LineTree tokens parsed) : parsed.Proper := by
  cases h with
  | emptyText hfirst hname => exact .text _ _ _ (.literal _ _)
  | text hfirst hname hequal hvalue => exact .text _ _ _ (proper_of_textTree hvalue)
  | zeroNumber hfirst hname => exact .number _ _ _ (.literal (by decide))
  | number hfirst hname hequal hleaf hchain =>
    exact .number _ _ _ (proper_of_chainTree hchain (proper_of_numberLeaf hleaf))
  | input hfirst hname => exact .input _ _ _
  | output hfirst hname => exact .output _ _ _

/-- The statements of a source are proper. -/
theorem proper_of_ofSource {source : String} {statements : List Statement}
    (h : Statement.ofSource source = .ok statements) :
    ∀ statement ∈ statements, statement.Proper := by
  intro statement hstatement
  obtain ⟨tokens, htree⟩ := ofSource_eq_ok_iff.1 h
  obtain ⟨line, -, pieces, -, hline, -⟩ := htree.exists_lineTree hstatement
  exact proper_of_lineTree hline

end LineScript
