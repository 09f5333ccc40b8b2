import LineScript.Proofs.Session.Aborted
import LineScript.Proofs.Session.Agreement

/-!
# What a run leaves bound

The statements of a run that go well are a front part of it, and they alone decide what is bound
afterwards. Each of them sets one name to a value that it computes in the session it is executed in,
or, if it is an `Output`, binds nothing (`exists_set_of_execute`). `Session.Binds` says what comes
of many such steps: new names stand after the old ones in the order of the first statement that set
them, a name that was set has the value of the last statement that set it, and any other name has
the value it had. Main statement: `binds_run`, for any statements in any session, however the run
ends.
-/

set_option autoImplicit false

namespace LineScript

/-- The names that statements set, one for each statement that sets one. -/
def Statement.targets (statements : List Statement) : List String :=
  statements.filterMap Statement.sets?

namespace Session

/-! ## One statement -/

/-- The value that a statement computes for the name it sets: that of its expression, or the line
that is read next, without its end. -/
inductive Computes (session : Session) : Statement → String → Value → Prop
  | text (span nameSpan : Span) (name : String) {expr : TextExpr} {text : String}
      (heval : expr.eval session.space session.room = .ok text) :
      Computes session (.text span (.named nameSpan name) expr) name (.text text)
  | number (span nameSpan : Span) (name : String) {expr : NumberExpr} {n : Int}
      (heval : expr.eval session.space session.room = .ok n) :
      Computes session (.number span (.named nameSpan name) expr) name (.number n)
  | input (span nameSpan : Span) (name : String) {line : String}
      (hread : session.input.read.1 = .ok line) (hline : line ≠ "") :
      Computes session (.input span (.named nameSpan name)) name
        (.text (String.ofList (Text.dropLineEnd line.toList)))

theorem set_of_assign {session after : Session} {target : Target} {value : Except Failure Value}
    (h : session.assign target value = (after, none)) :
    ∃ span name result, target = .named span name ∧ value = .ok result ∧
      after.space = session.space.set name result := by
  obtain ⟨result, rfl⟩ := eq_ok_of_assign h
  cases target with
  | named span name =>
    cases h
    exact ⟨span, name, result, rfl, rfl, rfl⟩
  | misplaced span kind => cases h

/-- An `Output` binds nothing, whether it goes well or not. -/
theorem space_execute_output (session : Session) (span : Span) (target : Target) :
    (session.execute (.output span target)).1.space = session.space := by
  simp only [execute]
  split <;> rfl

/-- A statement that goes well sets a name to the value that it computes, or sets none and binds
nothing. -/
theorem exists_set_of_execute {session after : Session} {statement : Statement}
    (h : session.execute statement = (after, none)) :
    (∃ name value, statement.sets? = some name ∧ session.Computes statement name value ∧
        after.space = session.space.set name value) ∨
      (statement.sets? = none ∧ after.space = session.space) := by
  cases statement with
  | text span target expr =>
    obtain ⟨nameSpan, name, result, rfl, hvalue, hspace⟩ := set_of_assign h
    obtain ⟨text, heval, rfl⟩ := map_eq_ok_iff.1 hvalue
    exact Or.inl ⟨name, _, rfl, .text span nameSpan name heval, hspace⟩
  | number span target expr =>
    obtain ⟨nameSpan, name, result, rfl, hvalue, hspace⟩ := set_of_assign h
    obtain ⟨n, heval, rfl⟩ := map_eq_ok_iff.1 hvalue
    exact Or.inl ⟨name, _, rfl, .number span nameSpan name heval, hspace⟩
  | input span target =>
    have hassign : assign { session with input := session.input.read.2 } target
        (received target session.input.read.1) = (after, none) := h
    obtain ⟨nameSpan, name, result, rfl, hvalue, hspace⟩ := set_of_assign hassign
    cases hread : session.input.read.1 with
    | error failure =>
      rw [hread] at hvalue
      cases hvalue
    | ok line =>
      rw [hread, received] at hvalue
      split at hvalue
      · cases hvalue
      · next hline =>
        cases hvalue
        exact Or.inl ⟨name, _, rfl, .input span nameSpan name hread hline, hspace⟩
  | output span target =>
    have hspace := session.space_execute_output span target
    rw [h] at hspace
    exact Or.inr ⟨rfl, hspace⟩
  | misplaced span kind => cases h

/-! ## Many statements -/

/-- What is bound after statements that all went well in a session. -/
structure Binds (session : Session) (done : List Statement) (after : Namespace) : Prop where
  /-- The old names stay where they are, and each new one comes after them once, in the order in
  which the names were first set. -/
  names_eq : after.names = session.space.names ++
    ((Statement.targets done).filter fun name => name ∉ session.space.names).eraseDups
  /-- A name that no statement sets keeps its value. -/
  kept : ∀ name ∉ Statement.targets done, after.get? name = session.space.get? name
  /-- A name that is set has the value that the last statement to set it computed, in the session
  that the statements before that one left. -/
  computed : ∀ name ∈ Statement.targets done, ∃ before statement rest value,
    done = before ++ statement :: rest ∧ name ∉ Statement.targets rest ∧
      (session.run before).1.Computes statement name value ∧ after.get? name = some value

theorem names_run {session after : Session} {done : List Statement}
    (h : session.run done = (after, none)) :
    after.space.names = session.space.names ++
      ((Statement.targets done).filter fun name => name ∉ session.space.names).eraseDups := by
  induction done generalizing session with
  | nil =>
    cases h
    simp [Statement.targets]
  | cons statement rest ih =>
    simp only [run] at h
    split at h
    · next middle hexecute =>
      have hrest := ih h
      simp only [Statement.targets, List.filterMap_cons] at hrest ⊢
      generalize rest.filterMap Statement.sets? = targets at hrest ⊢
      rcases exists_set_of_execute hexecute with ⟨name, value, hset, -, hspace⟩ | ⟨hset, hspace⟩
      · simp only [hset]
        rw [hspace, Namespace.names_set] at hrest
        by_cases hold : name ∈ session.space.names
        · rw [if_pos hold] at hrest
          rw [hrest, List.filter_cons_of_neg (by simpa using hold)]
        · have hfilter : targets.filter (fun other => other ∉ session.space.names ++ [name]) =
              (targets.filter fun other => other ∉ session.space.names).filter
                fun other => !other == name := by
            rw [List.filter_filter]
            apply List.filter_congr
            intro other _
            by_cases hother : other = name <;> simp [hother]
          rw [if_neg hold, hfilter] at hrest
          rw [hrest, List.filter_cons_of_pos (by simpa using hold), List.eraseDups_cons,
            List.append_assoc, List.singleton_append]
      · simp only [hset]
        rw [hspace] at hrest
        exact hrest
    · cases h

theorem get?_run {session after : Session} {done : List Statement}
    (h : session.run done = (after, none)) {name : String}
    (hname : name ∉ Statement.targets done) : after.space.get? name = session.space.get? name := by
  induction done generalizing session with
  | nil =>
    cases h
    rfl
  | cons statement rest ih =>
    have hfirst : statement.sets? ≠ some name := by
      intro hset
      exact hname (List.mem_filterMap.2 ⟨statement, List.mem_cons_self, hset⟩)
    have hrest : name ∉ Statement.targets rest := by
      intro hmem
      obtain ⟨later, hlater, hset⟩ := List.mem_filterMap.1 hmem
      exact hname (List.mem_filterMap.2 ⟨later, List.mem_cons_of_mem _ hlater, hset⟩)
    simp only [run] at h
    split at h
    · next middle hexecute =>
      have hstep := session.get?_execute hfirst
      rw [hexecute] at hstep
      rw [ih h hrest, hstep]
    · cases h

/-- A name that is set is set by some statement for the last time. -/
theorem exists_last_set {done : List Statement} {name : String}
    (h : name ∈ Statement.targets done) :
    ∃ before statement rest, done = before ++ statement :: rest ∧ statement.sets? = some name ∧
      name ∉ Statement.targets rest := by
  induction done with
  | nil => cases h
  | cons first others ih =>
    by_cases hlater : name ∈ Statement.targets others
    · obtain ⟨before, statement, rest, rfl, hset, hrest⟩ := ih hlater
      exact ⟨first :: before, statement, rest, rfl, hset, hrest⟩
    · obtain ⟨statement, hmem, hset⟩ := List.mem_filterMap.1 h
      rcases List.mem_cons.1 hmem with rfl | hmem
      · exact ⟨[], statement, others, rfl, hset, hlater⟩
      · exact absurd (List.mem_filterMap.2 ⟨statement, hmem, hset⟩) hlater

/-- A run that ends well binds what its statements compute. -/
theorem binds_of_run {session after : Session} {done : List Statement}
    (h : session.run done = (after, none)) : session.Binds done after.space := by
  refine ⟨names_run h, fun name hname => get?_run h hname, ?_⟩
  intro name hname
  obtain ⟨before, statement, rest, rfl, hset, hlater⟩ := exists_last_set hname
  rw [run_append] at h
  split at h
  · next middle hbefore =>
    simp only [run] at h
    split at h
    · next onward hexecute =>
      rcases exists_set_of_execute hexecute with ⟨other, value, hother, hcomputes, hspace⟩ |
        ⟨hnone, -⟩
      · obtain rfl : name = other := Option.some.inj (hset.symm.trans hother)
        refine ⟨before, statement, rest, value, rfl, hlater, ?_, ?_⟩
        · rw [hbefore]
          exact hcomputes
        · rw [get?_run h hlater, hspace, Namespace.get?_set, if_pos rfl]
      · rw [hset] at hnone
        cases hnone
    · cases h
  · cases h

/-- Any run is a run that ends well, of all statements or of those before one that fails, and a
statement that fails binds nothing. -/
theorem exists_done (session : Session) (statements : List Statement) :
    ∃ done rest middle, statements = done ++ rest ∧ session.run done = (middle, none) ∧
      (∀ statement ∈ rest.head?, ∃ failure, (middle.execute statement).2 = some failure) ∧
      (session.run statements).1.space = middle.space := by
  cases hrun : session.run statements with
  | mk after raised =>
    cases raised with
    | none =>
      refine ⟨statements, [], after, (List.append_nil _).symm, hrun, ?_, rfl⟩
      intro statement hstatement
      cases hstatement
    | some failure =>
      obtain ⟨before, statement, rest, middle, rfl, hbefore, hfailed⟩ := run_eq_some_iff.1 hrun
      refine ⟨before, statement :: rest, middle, rfl, hbefore, ?_, (execute_failed hfailed).1⟩
      intro other hother
      obtain rfl : statement = other := Option.some.inj hother
      exact ⟨failure, by rw [hfailed]⟩

/-- What a run leaves bound, however it ends: the old names, then the names that were new to the
statements that went well, each with its old value or with the value that the last of these
statements to set it computed. No name is lost, and an `Output` binds nothing. -/
theorem binds_run (session : Session) (statements : List Statement) :
    (∃ done rest middle, statements = done ++ rest ∧ session.run done = (middle, none) ∧
        (∀ statement ∈ rest.head?, ∃ failure, (middle.execute statement).2 = some failure) ∧
        session.Binds done (session.run statements).1.space) ∧
      session.space.names <+: (session.run statements).1.space.names ∧
      ∀ span target, (session.execute (.output span target)).1.space = session.space := by
  obtain ⟨done, rest, middle, hsplit, hdone, hfails, hspace⟩ := session.exists_done statements
  have hbinds := binds_of_run hdone
  rw [← hspace] at hbinds
  refine ⟨⟨done, rest, middle, hsplit, hdone, hfails, hbinds⟩, ?_, session.space_execute_output⟩
  rw [hbinds.names_eq]
  exact List.prefix_append _ _

end Session

end LineScript
