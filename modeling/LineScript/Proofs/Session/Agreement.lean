import LineScript.Proofs.Token.Scanning
import LineScript.Session

/-!
# What a run reads

A statement asks for the values of some names and sets at most one. A name is *read first* by a
program if a statement reads it and no statement before that one sets it (`ReadsFirst`); these are
the only names whose values a run takes from the namespace it starts with. Two sessions *agree* on a
class of names if each of the names is set in neither or has the same value in both, and their
streams are the same. Main statements: `Session.AgreeOn.run`, a program does the same to sessions
that agree on all it reads first, and leaves them agreeing also on all that it set; and
`isSome_of_readsFirst`, a program that ends well found all of these names set.
-/

set_option autoImplicit false

namespace LineScript

/-! ## Names that statements read and set -/

/-- The names that a number refers to. -/
def NumberExpr.references : NumberExpr → List String
  | literal _ _ => []
  | reference _ name => [name]
  | binary _ _ left right => left.references ++ right.references
  | misplaced _ _ => []

/-- The names that a text refers to. -/
def TextExpr.references : TextExpr → List String
  | literal _ _ => []
  | reference _ name => [name]
  | concat _ left right => left.references ++ right.references
  | misplaced _ _ => []

/-- The name of a target that has one. -/
def Target.name? : Target → Option String
  | named _ name => some name
  | misplaced _ _ => none

namespace Statement

/-- The names whose values a statement asks for: what its value refers to, or what it writes. -/
def reads : Statement → List String
  | text _ _ value => value.references
  | number _ _ value => value.references
  | input _ _ => []
  | output _ target => target.name?.toList
  | misplaced _ _ => []

/-- The name that a statement sets when it goes well. -/
def sets? : Statement → Option String
  | text _ target _ => target.name?
  | number _ target _ => target.name?
  | input _ target => target.name?
  | output _ _ => none
  | misplaced _ _ => none

end Statement

/-- A statement reads the name, and no statement before that one sets it. -/
def ReadsFirst (statements : List Statement) (name : String) : Prop :=
  ∃ before statement after, statements = before ++ statement :: after ∧
    name ∈ statement.reads ∧ ∀ earlier ∈ before, earlier.sets? ≠ some name

theorem not_readsFirst_nil (name : String) : ¬ReadsFirst [] name := by
  rintro ⟨before, statement, after, hnil, -⟩
  simp at hnil

theorem readsFirst_cons_iff {statement : Statement} {rest : List Statement} {name : String} :
    ReadsFirst (statement :: rest) name ↔
      name ∈ statement.reads ∨ (statement.sets? ≠ some name ∧ ReadsFirst rest name) := by
  constructor
  · rintro ⟨before, reader, after, hsplit, hreads, hbefore⟩
    cases before with
    | nil =>
      obtain ⟨rfl, rfl⟩ := List.cons.inj hsplit
      exact Or.inl hreads
    | cons first before =>
      obtain ⟨rfl, rfl⟩ := List.cons.inj hsplit
      obtain ⟨hfirst, hbefore⟩ := List.forall_mem_cons.1 hbefore
      exact Or.inr ⟨hfirst, before, reader, after, rfl, hreads, hbefore⟩
  · rintro (hreads | ⟨hfirst, before, reader, after, rfl, hreads, hbefore⟩)
    · exact ⟨[], statement, rest, rfl, hreads, List.forall_mem_nil _⟩
    · exact ⟨statement :: before, reader, after, rfl, hreads,
        List.forall_mem_cons.2 ⟨hfirst, hbefore⟩⟩

/-! ## Evaluation -/

/-- Each of the names is set in neither namespace, or has the same value in both. -/
def Namespace.AgreeOn (names : String → Prop) (space other : Namespace) : Prop :=
  ∀ name, names name → space.get? name = other.get? name

section Evaluation

variable {names : String → Prop} {space other : Namespace} (h : space.AgreeOn names other)

include h

theorem Namespace.AgreeOn.lookup_eq {name : String} (hname : names name) (span : Span) :
    space.lookup name span = other.lookup name span := by
  simp only [Namespace.lookup, h name hname]

/-- A number asks for nothing but the names it refers to. -/
theorem NumberExpr.eval_agreeOn {expr : NumberExpr}
    (hnames : ∀ name ∈ expr.references, names name) (room : Nat) :
    expr.eval space room = expr.eval other room := by
  induction expr generalizing room with
  | literal span value => cases room <;> rfl
  | reference span name =>
    cases room with
    | zero => rfl
    | succ room =>
      simp only [NumberExpr.eval, Namespace.number, h.lookup_eq (hnames name List.mem_cons_self)]
  | binary span symbol left right ihleft ihright =>
    obtain ⟨hleft, hright⟩ := List.forall_mem_append.1 hnames
    cases room with
    | zero => rfl
    | succ room => simp only [NumberExpr.eval, ihleft hleft, ihright hright]
  | misplaced span kind => cases room <;> rfl

/-- A text asks for nothing but the names it refers to. -/
theorem TextExpr.eval_agreeOn {expr : TextExpr}
    (hnames : ∀ name ∈ expr.references, names name) (room : Nat) :
    expr.eval space room = expr.eval other room := by
  induction expr generalizing room with
  | literal span value => cases room <;> rfl
  | reference span name =>
    cases room with
    | zero => rfl
    | succ room => simp only [TextExpr.eval, h.lookup_eq (hnames name List.mem_cons_self)]
  | concat span left right ihleft ihright =>
    obtain ⟨hleft, hright⟩ := List.forall_mem_append.1 hnames
    cases room with
    | zero => rfl
    | succ room => simp only [TextExpr.eval, ihleft hleft, ihright hright]
  | misplaced span kind => cases room <;> rfl

end Evaluation

/-! ## Statements -/

namespace Session

/-- Sessions with the same streams and the same room whose namespaces agree on a class of names. -/
structure AgreeOn (names : String → Prop) (session other : Session) : Prop where
  space : session.space.AgreeOn names other.space
  input_eq : session.input = other.input
  output_eq : session.output = other.output
  room_eq : session.room = other.room

/-- How a statement that sets a name ends in two sessions that agree on a class of names: with the
same failure, still agreeing on the class; or well, agreeing on the name as well. -/
inductive EndAlike (names : String → Prop) (set? : Option String) :
    Session × Option Failure → Session × Option Failure → Prop
  | failed {after other : Session} (failure : Failure) (h : after.AgreeOn names other) :
      EndAlike names set? (after, some failure) (other, some failure)
  | done {after other : Session}
      (h : after.AgreeOn (fun name => names name ∨ set? = some name) other) :
      EndAlike names set? (after, none) (other, none)

section Execution

variable {names : String → Prop} {session other : Session} (h : session.AgreeOn names other)

include h

theorem AgreeOn.set (name : String) (value : Value) :
    (session.set name value).AgreeOn (fun other => names other ∨ some name = some other)
      (other.set name value) := by
  refine ⟨?_, h.input_eq, h.output_eq, h.room_eq⟩
  intro found hfound
  simp only [Session.set, Namespace.get?_set]
  split
  · rfl
  · next hne =>
    rcases hfound with hfound | hsame
    · exact h.space found hfound
    · exact absurd (Option.some.inj hsame) hne

/-- Setting a target to the same value in sessions that agree. -/
theorem AgreeOn.assign (target : Target) (value : Except Failure Value) :
    EndAlike names target.name? (session.assign target value) (other.assign target value) := by
  cases value with
  | error failure => exact .failed failure h
  | ok value =>
    cases target with
    | named span name => exact .done (h.set name value)
    | misplaced span kind => exact .failed _ h

theorem AgreeOn.readInto (target : Target) :
    EndAlike names target.name? (session.readInto target) (other.readInto target) := by
  simp only [Session.readInto, h.input_eq]
  have hread : AgreeOn names { session with input := other.input.read.2 }
      { other with input := other.input.read.2 } :=
    ⟨h.space, rfl, h.output_eq, h.room_eq⟩
  exact hread.assign target _

theorem AgreeOn.writeLine (target : Target) (text : String) :
    EndAlike names none (session.writeLine target text) (other.writeLine target text) := by
  simp only [Session.writeLine, h.output_eq]
  generalize other.output.write (text ++ "\n") = written
  obtain ⟨output, failure⟩ := written
  cases failure with
  | some failure => exact .failed _ ⟨h.space, h.input_eq, rfl, h.room_eq⟩
  | none =>
    refine .done ⟨?_, h.input_eq, rfl, h.room_eq⟩
    rintro name (hname | hnone)
    · exact h.space name hname
    · cases hnone

theorem AgreeOn.valueOf_eq {target : Target} (hnames : ∀ name ∈ target.name?, names name) :
    session.valueOf target = other.valueOf target := by
  cases target with
  | named span name => exact h.space.lookup_eq (hnames name rfl) span
  | misplaced span kind => rfl

/-- A statement does the same to sessions that agree on what it reads. -/
theorem AgreeOn.execute {statement : Statement} (hreads : ∀ name ∈ statement.reads, names name) :
    EndAlike names statement.sets? (session.execute statement) (other.execute statement) := by
  cases statement with
  | text span target value =>
    simp only [Session.execute, h.room_eq, TextExpr.eval_agreeOn h.space hreads]
    exact h.assign target _
  | number span target value =>
    simp only [Session.execute, h.room_eq, NumberExpr.eval_agreeOn h.space hreads]
    exact h.assign target _
  | input span target => exact h.readInto target
  | output span target =>
    have hvalue := h.valueOf_eq fun name hname => hreads name (Option.mem_toList.2 hname)
    simp only [Session.execute, hvalue]
    cases other.valueOf target with
    | ok value => exact h.writeLine target _
    | error failure => exact .failed failure h
  | misplaced span kind => exact .failed _ h

end Execution

/-! ## Runs -/

/-- The statements of a run that go well: all of them up to the first that fails. -/
def completed (session : Session) : List Statement → List Statement
  | [] => []
  | statement :: rest =>
    match session.execute statement with
    | (after, none) => statement :: after.completed rest
    | (_, some _) => []

/-- A program does the same to sessions that agree on all it reads first. Afterwards they agree also
on all that its statements set. -/
theorem AgreeOn.run {names : String → Prop} {session other : Session}
    (h : session.AgreeOn names other) {statements : List Statement}
    (hreads : ∀ name, ReadsFirst statements name → names name) :
    (session.run statements).2 = (other.run statements).2 ∧
      session.completed statements = other.completed statements ∧
      (session.run statements).1.AgreeOn
        (fun name => names name ∨ ∃ done ∈ session.completed statements, done.sets? = some name)
        (other.run statements).1 := by
  -- The class of names grows by what each statement sets, and so covers what the rest reads first.
  induction statements generalizing session other names with
  | nil =>
    refine ⟨rfl, rfl, ?_, h.input_eq, h.output_eq, h.room_eq⟩
    rintro name (hname | ⟨done, hdone, -⟩)
    · exact h.space name hname
    · cases hdone
  | cons statement rest ih =>
    have hstep : EndAlike names statement.sets? (session.execute statement)
        (other.execute statement) :=
      h.execute fun name hname => hreads name (readsFirst_cons_iff.2 (Or.inl hname))
    simp only [Session.run, completed]
    generalize session.execute statement = ended at hstep
    generalize other.execute statement = otherEnded at hstep
    cases hstep with
    | failed failure hafter =>
      refine ⟨rfl, rfl, ?_, hafter.input_eq, hafter.output_eq, hafter.room_eq⟩
      rintro name (hname | ⟨done, hdone, -⟩)
      · exact hafter.space name hname
      · cases hdone
    | done hafter =>
      have hrest : ∀ name, ReadsFirst rest name → names name ∨ statement.sets? = some name := by
        intro name hname
        by_cases hset : statement.sets? = some name
        · exact Or.inr hset
        · exact Or.inl (hreads name (readsFirst_cons_iff.2 (Or.inr ⟨hset, hname⟩)))
      obtain ⟨hfailure, hcompleted, hend⟩ := ih hafter hrest
      refine ⟨hfailure, congrArg _ hcompleted, ?_, hend.input_eq, hend.output_eq, hend.room_eq⟩
      rintro name (hname | ⟨done, hdone, hset⟩)
      · exact hend.space name (Or.inl (Or.inl hname))
      · rcases List.mem_cons.1 hdone with rfl | hdone
        · exact hend.space name (Or.inl (Or.inr hset))
        · exact hend.space name (Or.inr ⟨done, hdone, hset⟩)

end Session

/-! ## Names that have to be set -/

theorem Namespace.isSome_of_lookup {space : Namespace} {name : String} {span : Span} {value : Value}
    (h : space.lookup name span = .ok value) : (space.get? name).isSome := by
  simp only [Namespace.lookup] at h
  split at h
  · next found hget =>
    rw [hget]
    rfl
  · cases h

/-- A number that has a value refers only to names that are set. -/
theorem NumberExpr.isSome_of_eval {space : Namespace} {room : Nat} {expr : NumberExpr} {n : Int}
    (h : expr.eval space room = .ok n) :
    ∀ name ∈ expr.references, (space.get? name).isSome := by
  induction expr generalizing room n with
  | literal span value => exact List.forall_mem_nil _
  | reference span name =>
    cases room with
    | zero => cases h
    | succ room =>
      obtain ⟨value, hlookup, -⟩ := bind_eq_ok_iff.1 h
      exact List.forall_mem_singleton.2 (Namespace.isSome_of_lookup hlookup)
  | binary span symbol left right ihleft ihright =>
    cases room with
    | zero => cases h
    | succ room =>
      simp only [NumberExpr.eval, bind_eq_ok_iff] at h
      obtain ⟨l, hl, r, hr, -⟩ := h
      exact List.forall_mem_append.2 ⟨ihleft hl, ihright hr⟩
  | misplaced span kind => exact List.forall_mem_nil _

/-- A text that has a value refers only to names that are set. -/
theorem TextExpr.isSome_of_eval {space : Namespace} {room : Nat} {expr : TextExpr} {text : String}
    (h : expr.eval space room = .ok text) :
    ∀ name ∈ expr.references, (space.get? name).isSome := by
  induction expr generalizing room text with
  | literal span value => exact List.forall_mem_nil _
  | reference span name =>
    cases room with
    | zero => cases h
    | succ room =>
      obtain ⟨value, hlookup, -⟩ := bind_eq_ok_iff.1 h
      exact List.forall_mem_singleton.2 (Namespace.isSome_of_lookup hlookup)
  | concat span left right ihleft ihright =>
    cases room with
    | zero => cases h
    | succ room =>
      simp only [TextExpr.eval, bind_eq_ok_iff] at h
      obtain ⟨l, hl, r, hr, -⟩ := h
      exact List.forall_mem_append.2 ⟨ihleft hl, ihright hr⟩
  | misplaced span kind => exact List.forall_mem_nil _

namespace Session

theorem eq_ok_of_assign {session after : Session} {target : Target}
    {value : Except Failure Value} (h : session.assign target value = (after, none)) :
    ∃ result, value = .ok result := by
  cases value with
  | error failure => cases h
  | ok result => exact ⟨result, rfl⟩

/-- A statement that goes well found all that it reads. -/
theorem isSome_of_execute {session after : Session} {statement : Statement}
    (h : session.execute statement = (after, none)) :
    ∀ name ∈ statement.reads, (session.space.get? name).isSome := by
  cases statement with
  | text span target value =>
    obtain ⟨result, hvalue⟩ := eq_ok_of_assign h
    obtain ⟨text, heval, -⟩ := map_eq_ok_iff.1 hvalue
    exact TextExpr.isSome_of_eval heval
  | number span target value =>
    obtain ⟨result, hvalue⟩ := eq_ok_of_assign h
    obtain ⟨n, heval, -⟩ := map_eq_ok_iff.1 hvalue
    exact NumberExpr.isSome_of_eval heval
  | input span target => exact List.forall_mem_nil _
  | output span target =>
    intro name hname
    cases target with
    | named place written =>
      obtain rfl := Option.some.inj (Option.mem_toList.1 hname)
      simp only [Session.execute] at h
      split at h
      · next value hvalue => exact Namespace.isSome_of_lookup hvalue
      · cases h
    | misplaced place kind => cases hname
  | misplaced span kind => exact List.forall_mem_nil _

theorem get?_assign (session : Session) {target : Target} (value : Except Failure Value)
    {name : String} (hname : target.name? ≠ some name) :
    (session.assign target value).1.space.get? name = session.space.get? name := by
  cases value with
  | error failure => rfl
  | ok value =>
    cases target with
    | named span other =>
      have hne : other ≠ name := fun e => hname (congrArg some e)
      simp only [Session.assign, Target.name, Session.set, Namespace.get?_set, if_neg hne]
    | misplaced span kind => rfl

/-- A statement changes no name but the one it sets. -/
theorem get?_execute (session : Session) {statement : Statement} {name : String}
    (hname : statement.sets? ≠ some name) :
    (session.execute statement).1.space.get? name = session.space.get? name := by
  cases statement with
  | text span target value => exact get?_assign session _ hname
  | number span target value => exact get?_assign session _ hname
  | input span target => exact get?_assign { session with input := _ } _ hname
  | output span target =>
    simp only [Session.execute]
    split <;> rfl
  | misplaced span kind => rfl

/-- A program that ends well found all set that it reads first. -/
theorem isSome_of_readsFirst {session after : Session} {statements : List Statement}
    (h : session.run statements = (after, none)) {name : String}
    (hname : ReadsFirst statements name) : (session.space.get? name).isSome := by
  induction statements generalizing session with
  | nil => exact absurd hname (not_readsFirst_nil name)
  | cons statement rest ih =>
    simp only [Session.run] at h
    split at h
    · next middle hexecute =>
      rcases readsFirst_cons_iff.1 hname with hreads | ⟨hset, hrest⟩
      · exact isSome_of_execute hexecute name hreads
      · have hmiddle := ih h hrest
        have hframe := get?_execute session hset
        rw [hexecute] at hframe
        rwa [hframe] at hmiddle
    · cases h

end Session

end LineScript
