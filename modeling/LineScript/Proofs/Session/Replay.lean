import LineScript.Proofs.Session.Agreement
import LineScript.Proofs.Session.Streams
import LineScript.Proofs.Tree.Depth

/-!
# Replaying programs

What a program does depends on the streams, on the room for nested evaluations and on the names it
reads first, and on nothing else. A program without `Input` that once ends well in a session without
variables reads no name first: it hands the same texts to the output in every session with no less
room, and how it ends is up to that output alone (`Session.replays_run`). Main statement:
`run_of_agreeOn`, both of these for any list of statements.
-/

set_option autoImplicit false

namespace LineScript

/-! ## What a program hands to the output -/

namespace Session

/-- The text that a statement hands to the output, if it gets that far. -/
def hands (session : Session) : Statement → List String
  | .output _ target =>
    match session.valueOf target with
    | .ok value => [value.render ++ "\n"]
    | .error _ => []
  | _ => []

/-- The texts that statements hand to the output one after the other. -/
def handed (session : Session) : List Statement → List String
  | [] => []
  | statement :: rest => session.hands statement ++ (session.execute statement).1.handed rest

/-- How a run ends that does nothing with its streams but write texts, given how the writes end: it
goes well and leaves the given namespace if they are all accepted, and fails if they are not. -/
inductive Replays (space : Namespace) (room : Nat) :
    Output × Option Failure → Session × Option Failure → Prop
  | done (input : Input) (output : Output) :
      Replays space room (output, none) (⟨space, input, output, room⟩, none)
  | refused (after : Session) (failure told : Failure) :
      Replays space room (after.output, some failure) (after, some told)

theorem Replays.output_eq {space : Namespace} {room : Nat} {written : Output × Option Failure}
    {ended : Session × Option Failure} (h : Replays space room written ended) :
    ended.1.output = written.1 := by
  cases h <;> rfl

theorem Replays.eq_none_iff {space : Namespace} {room : Nat} {written : Output × Option Failure}
    {ended : Session × Option Failure} (h : Replays space room written ended) :
    ended.2 = none ↔ written.2 = none := by
  cases h with
  | done input output => exact Iff.rfl
  | refused after failure told => simp

theorem replays_assign {session after : Session} {target : Target}
    {value other : Except Failure Value} (h : session.assign target value = (after, none))
    (hother : ∀ result, value = .ok result → other = .ok result) (input : Input) (output : Output)
    (room : Nat) :
    Replays after.space room (output, none)
      (Session.assign ⟨session.space, input, output, room⟩ target other) := by
  cases value with
  | error failure => cases h
  | ok result =>
    rw [hother result rfl]
    cases target with
    | named span name =>
      cases h
      exact .done input output
    | misplaced span kind => cases h

/-- A statement other than `Input` that goes well in a session does so in every session with the
same namespace and no less room, if the output accepts what it hands over. -/
theorem replays_execute {session after : Session} {statement : Statement}
    (hinput : ∀ span target, statement ≠ .input span target)
    (h : session.execute statement = (after, none)) (input : Input) (output : Output) {room : Nat}
    (hroom : session.room ≤ room) :
    Replays after.space room (output.writeAll (session.hands statement))
      (Session.execute ⟨session.space, input, output, room⟩ statement) := by
  cases statement with
  | text span target value =>
    refine replays_assign h ?_ input output room
    intro result hresult
    obtain ⟨text, heval, rfl⟩ := map_eq_ok_iff.1 hresult
    exact map_eq_ok_iff.2 ⟨text, TextExpr.eval_of_le hroom heval, rfl⟩
  | number span target value =>
    refine replays_assign h ?_ input output room
    intro result hresult
    obtain ⟨n, heval, rfl⟩ := map_eq_ok_iff.1 hresult
    exact map_eq_ok_iff.2 ⟨n, NumberExpr.eval_of_le hroom heval, rfl⟩
  | input span target => exact absurd rfl (hinput span target)
  | output span target =>
    have hvalue : Session.valueOf ⟨session.space, input, output, room⟩ target =
        session.valueOf target := rfl
    simp only [Session.execute, hands, hvalue] at h ⊢
    cases hfound : session.valueOf target with
    | error failure =>
      rw [hfound] at h
      cases h
    | ok value =>
      rw [hfound] at h
      have hafter : session.space = after.space := congrArg (fun ended => ended.1.space) h
      rw [← hafter]
      simp only [Output.writeAll_singleton, writeLine]
      generalize output.write (value.render ++ "\n") = written
      obtain ⟨left, failure⟩ := written
      cases failure with
      | none => exact .done input left
      | some failure => exact .refused ⟨session.space, input, left, room⟩ failure _
  | misplaced span kind => cases h

/-- A program without `Input` that ends well in a session hands the same texts to the output in
every session with the same namespace and no less room, and ends well there if they are accepted. -/
theorem replays_run {session after : Session} {statements : List Statement}
    (hinput : ∀ span target, .input span target ∉ statements)
    (h : session.run statements = (after, none)) (input : Input) (output : Output) {room : Nat}
    (hroom : session.room ≤ room) :
    Replays after.space room (output.writeAll (session.handed statements))
      (Session.run ⟨session.space, input, output, room⟩ statements) := by
  induction statements generalizing session input output with
  | nil =>
    cases h
    exact .done input output
  | cons statement rest ih =>
    have hfirst : ∀ span target, statement ≠ .input span target := by
      rintro span target rfl
      exact hinput span target List.mem_cons_self
    have hrest : ∀ span target, .input span target ∉ rest := fun span target hmem =>
      hinput span target (List.mem_cons_of_mem _ hmem)
    simp only [Session.run] at h
    split at h
    · next middle hexecute =>
      have hstep := replays_execute hfirst hexecute input output hroom
      have hmiddle : middle.room ≤ room := by
        rw [← congrArg (fun ended => ended.1.room) hexecute, room_execute]
        exact hroom
      simp only [Session.run, handed, hexecute, Output.writeAll_append]
      generalize output.writeAll (session.hands statement) = written at hstep
      generalize Session.execute ⟨session.space, input, output, room⟩ statement = ended at hstep
      cases hstep with
      | done input output => exact ih hrest h input output hmiddle
      | refused after failure told => exact .refused after failure told
    · cases h

end Session

/-! ## Programs and what they depend on -/

/-- A program that ends well without any variables reads no name first. -/
theorem not_readsFirst_of_fresh {statements : List Statement} {input : Input} {output : Output}
    {room : Nat} {after : Session}
    (h : Session.run (.fresh input output room) statements = (after, none)) (name : String) :
    ¬ReadsFirst statements name := by
  intro hname
  have hsome := Session.isSome_of_readsFirst h hname
  cases hsome

/-- A program without `Input` that ends well without any variables hands the same texts to the
output in every session with no less room, and how it ends there is up to the output. -/
theorem replay_of_fresh {statements : List Statement}
    (hinput : ∀ span target, .input span target ∉ statements) {input : Input} {output : Output}
    {room : Nat} {after : Session}
    (h : Session.run (.fresh input output room) statements = (after, none)) {session : Session}
    (hroom : room ≤ session.room) :
    (session.run statements).1.output =
        (session.output.writeAll ((Session.fresh input output room).handed statements)).1 ∧
      ((session.run statements).2 = none ↔
        (session.output.writeAll ((Session.fresh input output room).handed statements)).2 =
          none) := by
  -- Whatever the session holds, it agrees with one without variables on no names at all, and no
  -- names is all that the program reads first.
  have hstart : Session.AgreeOn (fun _ => False) session
      (.fresh session.input session.output session.room) :=
    ⟨fun _ hname => hname.elim, rfl, rfl, rfl⟩
  obtain ⟨hfailure, -, hend⟩ := hstart.run (not_readsFirst_of_fresh h)
  have hreplays := Session.replays_run hinput h session.input session.output hroom
  rw [hend.output_eq, hfailure]
  exact ⟨hreplays.output_eq, hreplays.eq_none_iff⟩

/-- Any statements do the same from two namespaces that agree on the names they read first: they end
in the same way, with the same streams, and leave namespaces that agree on these names and on all
that was set. If they contain no `Input` and once end well without any variables, then they read no
name first, and in every session with no less room they hand the same texts to the output: they end
well if these are accepted, as they are where they once were, and the texts are all that is
written. -/
theorem run_of_agreeOn (statements : List Statement) :
    (∀ (space other : Namespace) (input : Input) (output : Output) (room : Nat),
      space.AgreeOn (ReadsFirst statements) other →
        (Session.run ⟨other, input, output, room⟩ statements).2 =
            (Session.run ⟨space, input, output, room⟩ statements).2 ∧
          (Session.run ⟨other, input, output, room⟩ statements).1.output =
            (Session.run ⟨space, input, output, room⟩ statements).1.output ∧
          (Session.run ⟨other, input, output, room⟩ statements).1.input =
            (Session.run ⟨space, input, output, room⟩ statements).1.input ∧
          Session.completed ⟨other, input, output, room⟩ statements =
            Session.completed ⟨space, input, output, room⟩ statements ∧
          Namespace.AgreeOn
            (fun name => ReadsFirst statements name ∨
              ∃ done ∈ Session.completed ⟨space, input, output, room⟩ statements,
                done.sets? = some name)
            (Session.run ⟨space, input, output, room⟩ statements).1.space
            (Session.run ⟨other, input, output, room⟩ statements).1.space) ∧
      ((∀ span target, .input span target ∉ statements) →
        ∀ (input : Input) (output : Output) (room : Nat),
        (Session.run (.fresh input output room) statements).2 = none →
          (∀ name, ¬ReadsFirst statements name) ∧
            ∃ texts : List String, ∀ session : Session, room ≤ session.room →
              (session.run statements).1.output = (session.output.writeAll texts).1 ∧
                ((session.run statements).2 = none ↔
                  (session.output.writeAll texts).2 = none) ∧
                ((session.run statements).2 = none →
                  (session.run statements).1.output.written =
                    session.output.written ++ String.join texts) ∧
                (session.output.policy = output.policy →
                  (session.run statements).2 = none)) := by
  refine ⟨?_, ?_⟩
  · intro space other input output room hspace
    have hstart : Session.AgreeOn (ReadsFirst statements) ⟨space, input, output, room⟩
        ⟨other, input, output, room⟩ := ⟨hspace, rfl, rfl, rfl⟩
    obtain ⟨hfailure, hcompleted, hend⟩ := hstart.run fun name hname => hname
    exact ⟨hfailure.symm, hend.output_eq.symm, hend.input_eq.symm, hcompleted.symm, hend.space⟩
  · intro hinput input output room hsucceeds
    have hrun : Session.run (.fresh input output room) statements =
        ((Session.run (.fresh input output room) statements).1, none) := by
      rw [← hsucceeds]
    refine ⟨not_readsFirst_of_fresh hrun, (Session.fresh input output room).handed statements, ?_⟩
    intro session hroom
    obtain ⟨houtput, hends⟩ := replay_of_fresh hinput hrun hroom
    refine ⟨houtput, hends, ?_, ?_⟩
    · intro hnone
      rw [houtput]
      exact Output.written_of_writeAll (hends.1 hnone)
    · intro hpolicy
      rw [hends, Output.writeAll_of_policy hpolicy]
      have hroom : room ≤ (Session.fresh input output room).room := le_rfl
      exact (replay_of_fresh hinput hrun hroom).2.1 hsucceeds

/-- A program that reads its own variable before it sets it, from two namespaces with other names in
another order; and one that reads nothing first, in a session that holds other values. -/
theorem run_of_agreeOn_square :
    (∃ statements, Statement.ofSource "Zahl a = $a$ * $b$\nOutput a" = .ok statements ∧
      (Session.run ⟨⟨[("c", .text "x"), ("b", .number 4), ("a", .number 3)]⟩, .empty,
          .fresh .unlimited, 990⟩ statements).1.output = ⟨"12\n", .unlimited⟩ ∧
      (Session.run ⟨⟨[("a", .number 3), ("b", .number 4)]⟩, .empty,
          .fresh .unlimited, 990⟩ statements).1.output = ⟨"12\n", .unlimited⟩) ∧
    ∃ statements, Statement.ofSource "Text a = x\nOutput a" = .ok statements ∧
      (∀ name, ¬ReadsFirst statements name) ∧
      ∃ text, (Session.run (.fresh .empty (.fresh .unlimited) 990) statements).1.output.written =
          "" ++ text ∧
        (Session.run ⟨⟨[("a", .number 3)]⟩, .empty, ⟨"y\n", .unlimited⟩, 990⟩
          statements).1.output.written = "y\n" ++ text := by
  constructor
  · have hsource : Statement.ofSource "Zahl a = $a$ * $b$\nOutput a" = .ok
        [.number ⟨1, 0, 17⟩ (.named ⟨1, 5, 6⟩ "a")
          (.binary ⟨1, 10, 17⟩ "*" (.reference ⟨1, 10, 11⟩ "a") (.reference ⟨1, 16, 17⟩ "b")),
         .output ⟨2, 19, 27⟩ (.named ⟨2, 26, 27⟩ "a")] := by cbv
    refine ⟨_, hsource, ?_⟩
    have hrun : (Session.run ⟨⟨[("a", .number 3), ("b", .number 4)]⟩, .empty,
        .fresh .unlimited, 990⟩
        [.number ⟨1, 0, 17⟩ (.named ⟨1, 5, 6⟩ "a")
          (.binary ⟨1, 10, 17⟩ "*" (.reference ⟨1, 10, 11⟩ "a") (.reference ⟨1, 16, 17⟩ "b")),
         .output ⟨2, 19, 27⟩ (.named ⟨2, 26, 27⟩ "a")]).1.output = ⟨"12\n", .unlimited⟩ := by cbv
    refine ⟨?_, hrun⟩
    rw [← hrun]
    apply ((run_of_agreeOn _).1 _ _ _ _ _ ?_).2.1
    intro name hname
    have hreads : (name = "a" ∨ name = "b") ∨ ¬"a" = name ∧ name = "a" := by
      simpa [readsFirst_cons_iff, not_readsFirst_nil, Statement.reads, Statement.sets?,
        NumberExpr.references, Target.name?] using hname
    rcases hreads with (rfl | rfl) | ⟨-, rfl⟩ <;> rfl
  · have hsource : Statement.ofSource "Text a = x\nOutput a" = .ok
        [.text ⟨1, 0, 10⟩ (.named ⟨1, 5, 6⟩ "a") (.literal ⟨1, 9, 10⟩ "x"),
         .output ⟨2, 11, 19⟩ (.named ⟨2, 18, 19⟩ "a")] := by cbv
    have hrun : (Session.run (.fresh .empty (.fresh .unlimited) 990)
        [.text ⟨1, 0, 10⟩ (.named ⟨1, 5, 6⟩ "a") (.literal ⟨1, 9, 10⟩ "x"),
         .output ⟨2, 11, 19⟩ (.named ⟨2, 18, 19⟩ "a")]).2 = none := by cbv
    obtain ⟨hnone, texts, htexts⟩ := (run_of_agreeOn _).2 (by simp) _ _ _ hrun
    have hwritten : ∀ session : Session, 990 ≤ session.room →
        session.output.policy = .unlimited → _ := fun session hroom hpolicy =>
      (htexts session hroom).2.2.1 ((htexts session hroom).2.2.2 hpolicy)
    exact ⟨_, hsource, hnone, String.join texts, hwritten _ (Nat.le_refl _) rfl,
      hwritten _ (Nat.le_refl _) rfl⟩

end LineScript
