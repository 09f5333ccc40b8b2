import LineScript.Proofs.Session.Outcome

/-!
# What a failed source leaves behind

A source that is no program leaves the session as it was. A program fails at one of its statements,
and then the session is left as the statements before that one left it: the failed statement sets
nothing and writes nothing, and of the input it takes at most the one line that an `Input` asks for.
A statement reads once if it is an `Input` and else not at all, whether it goes well or not
(`input_execute`), so the lines that were taken are counted by the `Input` statements. A failure
that asks to leave the program comes from a stream (`ne_leave_of_interpret`). Main statement:
`interpret_eq_some_iff`, a source fails exactly in one of these ways.
-/

set_option autoImplicit false

namespace LineScript

/-! ## Reads -/

/-- Whether a statement takes a line from the input. -/
def Statement.takesLine : Statement → Bool
  | input _ _ => true
  | _ => false

/-- The input after some reads. -/
def Input.afterReads (input : Input) : Nat → Input
  | 0 => input
  | count + 1 => input.read.2.afterReads count

theorem Input.afterReads_add (input : Input) (first second : Nat) :
    input.afterReads (first + second) = (input.afterReads first).afterReads second := by
  induction first generalizing input with
  | zero => rw [Nat.zero_add, afterReads]
  | succ first ih => rw [Nat.succ_add, afterReads, ih, afterReads]

namespace Session

/-- A statement reads once if it is an `Input`, and else it leaves the input alone. -/
theorem input_execute (session : Session) (statement : Statement) :
    (session.execute statement).1.input =
      session.input.afterReads statement.takesLine.toNat := by
  cases statement with
  | text span target value => exact input_assign session target _
  | number span target value => exact input_assign session target _
  | input span target => exact input_assign { session with input := _ } target _
  | output span target =>
    simp only [execute]
    split <;> rfl
  | misplaced span kind => rfl

/-- A run that ends well has read once for each of its `Input` statements. -/
theorem input_run {session after : Session} {statements : List Statement}
    (h : session.run statements = (after, none)) :
    after.input = session.input.afterReads (statements.countP Statement.takesLine) := by
  induction statements generalizing session with
  | nil =>
    cases h
    rfl
  | cons statement rest ih =>
    simp only [run] at h
    split at h
    · next middle hexecute =>
      have hstep := session.input_execute statement
      rw [hexecute] at hstep
      rw [ih h, hstep, ← Input.afterReads_add, List.countP_cons, Nat.add_comm]
      cases statement.takesLine <;> rfl
    · cases h

end Session

/-! ## Statements that fail -/

/-- A write that fails writes nothing. -/
theorem Output.written_of_refused {output after : Output} {text : String} {failure : Failure}
    (h : output.write text = (after, some failure)) : after.written = output.written := by
  obtain ⟨written, policy⟩ := output
  cases policy with
  | unlimited => cases h
  | encoded encoding =>
    simp only [write] at h
    split at h
    · cases h
    · cases h
      rfl
  | planned plan =>
    cases plan with
    | nil => cases h
    | cons next plan =>
      cases next with
      | none => cases h
      | some planned =>
        cases h
        rfl

namespace Session

theorem assign_failed {session after : Session} {target : Target} {value : Except Failure Value}
    {failure : Failure} (h : session.assign target value = (after, some failure)) :
    after = session := by
  cases value with
  | error other =>
    cases h
    rfl
  | ok result =>
    cases target with
    | named span name => cases h
    | misplaced span kind =>
      cases h
      rfl

/-- A statement that fails sets nothing and writes nothing. -/
theorem execute_failed {session after : Session} {statement : Statement} {failure : Failure}
    (h : session.execute statement = (after, some failure)) :
    after.space = session.space ∧ after.output.written = session.output.written := by
  cases statement with
  | text span target value =>
    obtain rfl := assign_failed h
    exact ⟨rfl, rfl⟩
  | number span target value =>
    obtain rfl := assign_failed h
    exact ⟨rfl, rfl⟩
  | input span target =>
    obtain rfl := assign_failed h
    exact ⟨rfl, rfl⟩
  | output span target =>
    simp only [execute] at h
    split at h
    · next value hvalue =>
      simp only [writeLine, Prod.mk.injEq, Option.map_eq_some_iff] at h
      obtain ⟨rfl, other, hrefused, -⟩ := h
      exact ⟨rfl, Output.written_of_refused (Prod.ext rfl hrefused)⟩
    · cases h
      exact ⟨rfl, rfl⟩
  | misplaced span kind =>
    cases h
    exact ⟨rfl, rfl⟩

/-! ## Runs that fail -/

/-- A run fails at the first statement that fails, in the session that the statements before it
left. What comes after that statement does not matter. -/
theorem run_eq_some_iff {session after : Session} {statements : List Statement}
    {failure : Failure} :
    session.run statements = (after, some failure) ↔
      ∃ before statement rest middle, statements = before ++ statement :: rest ∧
        session.run before = (middle, none) ∧
        middle.execute statement = (after, some failure) := by
  constructor
  · intro h
    induction statements generalizing session with
    | nil => cases h
    | cons first others ih =>
      simp only [run] at h
      split at h
      · next onward hexecute =>
        obtain ⟨before, statement, rest, middle, rfl, hbefore, hstatement⟩ := ih h
        refine ⟨first :: before, statement, rest, middle, rfl, ?_, hstatement⟩
        rw [run, hexecute]
        exact hbefore
      · next onward other hexecute =>
        cases h
        exact ⟨[], first, others, session, rfl, rfl, hexecute⟩
  · rintro ⟨before, statement, rest, middle, rfl, hbefore, hstatement⟩
    simp only [run_append, hbefore, run, hstatement]

end Session

/-! ## Requests to leave -/

/-- A statement asks to leave the program only if a stream does. -/
theorem ne_leave_of_execute {session : Session}
    (hstreams : ∀ failure, session.Brings failure → ∀ status, failure ≠ .leave status)
    {statement : Statement} (hproper : statement.Proper) {failure : Failure}
    (h : (session.execute statement).2 = some failure) (status : Int) :
    failure ≠ .leave status := by
  cases within_execute hproper h with
  | execution hinternal =>
    intro hleave
    cases hleave
  | stuck hstuck =>
    intro hleave
    cases hleave
  | stream hbrings htrouble => exact hstreams failure hbrings status

/-- What is wrong with a source is no request to leave the program. -/
theorem ne_leave_of_ofSource {source : String} {failure : Failure}
    (h : Statement.ofSource source = .error failure) (status : Int) : failure ≠ .leave status := by
  simp only [Statement.ofSource] at h
  split at h
  · cases h
    exact Failure.noConfusion
  · split at h
    · next stopped hparse =>
      cases h
      cases stopped <;> exact Failure.noConfusion
    · cases h

/-- A source asks to leave the program only if a stream does. -/
theorem ne_leave_of_interpret {session : Session}
    (hstreams : ∀ failure, session.Brings failure → ∀ status, failure ≠ .leave status)
    {source : String} {failure : Failure} (h : (session.interpret source).2 = some failure)
    (status : Int) : failure ≠ .leave status := by
  cases hsource : Statement.ofSource source with
  | error other =>
    rw [interpret_of_error session hsource] at h
    cases h
    exact ne_leave_of_ofSource hsource status
  | ok statements =>
    rw [interpret_of_ok session hsource] at h
    obtain ⟨before, statement, rest, middle, rfl, hbefore, hstatement⟩ :=
      Session.run_eq_some_iff.1 (Prod.ext rfl h)
    have hmiddle : ∀ failure, middle.Brings failure → ∀ status, failure ≠ .leave status := by
      intro other hbrings
      have hrun : (session.run before).1.Brings other := by rwa [hbefore]
      exact hstreams other hrun.of_run
    have hproper : statement.Proper :=
      proper_of_ofSource hsource statement (List.mem_append_right _ List.mem_cons_self)
    exact ne_leave_of_execute hmiddle hproper (by rw [hstatement]) status

namespace Session

/-- How a source fails in a session, and what it leaves. It cannot be scanned or it cannot be
parsed, and then nothing was done. Or one of its statements fails: then the variables and the text
that was written are those that the statements before it left, and the lines that were taken are
counted by the `Input` statements up to that one. -/
inductive Aborts (session : Session) (source : String) : Session → Failure → Prop
  | unscanned {fault : Located LexFault} (hscan : Token.scan source = .error fault) :
      Aborts session source session (.lexical fault)
  | unparsed {tokens : List Token} {failure : ParseFailure} (hscan : Token.scan source = .ok tokens)
      (hparse : Statement.parse tokens = .error failure) :
      Aborts session source session failure.toFailure
  | execution {before rest : List Statement} {statement : Statement} {middle after : Session}
      {failure : Failure} (hsource : Statement.ofSource source = .ok (before ++ statement :: rest))
      (hbefore : session.run before = (middle, none))
      (hstatement : middle.execute statement = (after, some failure))
      (hspace : after.space = middle.space)
      (hwritten : after.output.written = middle.output.written)
      (hinput : after.input = session.input.afterReads
        (before.countP Statement.takesLine + statement.takesLine.toNat)) :
      Aborts session source after failure

/-- A source that fails leaves exactly what the statements before the failure did. -/
theorem interpret_eq_some_iff (session after : Session) (source : String) (failure : Failure) :
    session.interpret source = (after, some failure) ↔ session.Aborts source after failure := by
  constructor
  · intro h
    cases hscan : Token.scan source with
    | error fault =>
      simp only [interpret, Statement.ofSource, hscan] at h
      cases h
      exact .unscanned hscan
    | ok tokens =>
      cases hparse : Statement.parse tokens with
      | error other =>
        simp only [interpret, Statement.ofSource, hscan, hparse] at h
        cases h
        exact .unparsed hscan hparse
      | ok statements =>
        have hsource : Statement.ofSource source = .ok statements := by
          simp only [Statement.ofSource, hscan, hparse]
        rw [interpret_of_ok session hsource] at h
        obtain ⟨before, statement, rest, middle, rfl, hbefore, hstatement⟩ := run_eq_some_iff.1 h
        obtain ⟨hspace, hwritten⟩ := execute_failed hstatement
        refine .execution hsource hbefore hstatement hspace hwritten ?_
        have hread := middle.input_execute statement
        rw [hstatement, input_run hbefore, ← Input.afterReads_add] at hread
        exact hread
  · intro h
    cases h with
    | unscanned hscan => simp only [interpret, Statement.ofSource, hscan]
    | unparsed hscan hparse => simp only [interpret, Statement.ofSource, hscan, hparse]
    | execution hsource hbefore hstatement _ _ _ =>
      rw [interpret_of_ok session hsource]
      exact run_eq_some_iff.2 ⟨_, _, _, _, rfl, hbefore, hstatement⟩

end Session

end LineScript
