import LineScript.Session

/-!
# What the streams of a session bring

An input holds the failures that its reads will bring, and an output those that were planned for its
writes; an output with an encoding can also lack a character. `Session.Brings` collects all failures
that can come from the streams of a session. A read or a write that fails does so with one of them
(`Input.brings_of_read`, `Output.brings_of_write`), and neither adds any. Main statement:
`Session.Brings.of_run`, what the streams can bring after a run they could bring before it, so a
property of all of these failures holds along every run. Texts that are written one after the other
are added to what was written, as long as none is refused. The room for nested evaluations stays
what it is (`Session.room_execute`).
-/

set_option autoImplicit false

namespace LineScript

/-! ## Inputs -/

/-- The failures that an input can bring. -/
inductive Input.Brings (input : Input) : Failure → Prop
  | event {failure : Failure} (hevent : .failure failure ∈ input.events) : input.Brings failure
  | failing {failure : Failure} (hfailing : input.failing = some failure) : input.Brings failure

theorem Input.brings_of_read {input : Input} {failure : Failure}
    (h : input.read.1 = .error failure) : input.Brings failure := by
  obtain ⟨events, failing⟩ := input
  cases events with
  | nil =>
    cases failing with
    | none => cases h
    | some other =>
      cases h
      exact .failing rfl
  | cons event events =>
    cases event with
    | line text => cases h
    | failure other =>
      cases h
      exact .event List.mem_cons_self

/-- A read uses failures up and adds none. -/
theorem Input.Brings.of_read {input : Input} {failure : Failure}
    (h : input.read.2.Brings failure) : input.Brings failure := by
  obtain ⟨events, failing⟩ := input
  cases events with
  | nil => cases failing <;> exact h
  | cons event events =>
    have hrest : Input.Brings ⟨events, failing⟩ failure := by
      cases event <;> exact h
    cases hrest with
    | event hevent => exact .event (List.mem_cons_of_mem _ hevent)
    | failing hfailing => exact .failing hfailing

/-! ## Outputs -/

/-- The failures that an output can bring. -/
inductive Output.Brings (output : Output) : Failure → Prop
  | planned {plan : List (Option Failure)} {failure : Failure}
      (hpolicy : output.policy = .planned plan) (hplan : some failure ∈ plan) :
      output.Brings failure
  | encoded {encoding : Text.Encoding} (hpolicy : output.policy = .encoded encoding)
      (fault : Text.EncodeFault) : output.Brings (.mishap fault.mishap)

/-- A write to a planned output does as the first entry of its plan says. -/
theorem Output.brings_of_write {output : Output} {text : String} {failure : Failure}
    (h : (output.write text).2 = some failure) : output.Brings failure := by
  obtain ⟨written, policy⟩ := output
  cases policy with
  | unlimited => cases h
  | encoded encoding =>
    simp only [Output.write] at h
    split at h
    · cases h
    · next fault hfault =>
      cases h
      exact .encoded rfl fault
  | planned plan =>
    cases plan with
    | nil => cases h
    | cons first plan =>
      cases first with
      | none => cases h
      | some other =>
        cases h
        exact .planned rfl List.mem_cons_self

/-- A write uses failures up and adds none. -/
theorem Output.Brings.of_write {output : Output} {text : String} {failure : Failure}
    (h : (output.write text).1.Brings failure) : output.Brings failure := by
  obtain ⟨written, policy⟩ := output
  cases policy with
  | unlimited => cases h with
    | planned hpolicy hplan => cases hpolicy
    | encoded hpolicy fault => cases hpolicy
  | encoded encoding =>
    have hpolicy : (Output.write ⟨written, .encoded encoding⟩ text).1.policy =
        .encoded encoding := by
      simp only [Output.write]
      split <;> rfl
    cases h with
    | planned hplanned hplan =>
      rw [hpolicy] at hplanned
      cases hplanned
    | encoded _ fault => exact .encoded rfl fault
  | planned plan =>
    cases plan with
    | nil => cases h with
      | planned hpolicy hplan => exact .planned hpolicy hplan
      | encoded hpolicy fault => cases hpolicy
    | cons first plan =>
      have hpolicy : (Output.write ⟨written, .planned (first :: plan)⟩ text).1.policy =
          .planned plan := by
        cases first <;> rfl
      cases h with
      | planned hplanned hplan =>
        rw [hpolicy] at hplanned
        cases hplanned
        exact .planned rfl (List.mem_cons_of_mem _ hplan)
      | encoded hencoded fault =>
        rw [hpolicy] at hencoded
        cases hencoded

/-! ## Texts one after the other -/

namespace Output

theorem writeAll_singleton (output : Output) (text : String) :
    output.writeAll [text] = output.write text := by
  simp only [writeAll]
  generalize output.write text = ended
  obtain ⟨after, failure⟩ := ended
  cases failure <;> rfl

theorem writeAll_append (output : Output) (first second : List String) :
    output.writeAll (first ++ second) =
      match output.writeAll first with
      | (after, none) => after.writeAll second
      | (after, some failure) => (after, some failure) := by
  induction first generalizing output with
  | nil => rfl
  | cons text first ih =>
    simp only [List.cons_append, writeAll]
    generalize output.write text = ended
    obtain ⟨after, failure⟩ := ended
    cases failure with
    | none => exact ih after
    | some failure => rfl

/-- A text that is accepted is added to what was written. -/
theorem written_of_write {output after : Output} {text : String}
    (h : output.write text = (after, none)) : after.written = output.written ++ text := by
  simp only [write] at h
  split at h
  · cases h
    rfl
  · split at h
    · cases h
      rfl
    · cases h
  · cases h
    rfl
  · cases h
    rfl
  · cases h

/-- Texts that are all accepted are added to what was written. -/
theorem written_of_writeAll {output : Output} {texts : List String}
    (h : (output.writeAll texts).2 = none) :
    (output.writeAll texts).1.written = output.written ++ String.join texts := by
  induction texts generalizing output with
  | nil => exact String.append_empty.symm
  | cons text rest ih =>
    simp only [writeAll] at h ⊢
    cases hwrite : output.write text with
    | mk after failure =>
      rw [hwrite] at h
      cases failure with
      | some failure => cases h
      | none => rw [ih h, written_of_write hwrite, String.join_cons, String.append_assoc]

/-- An output that accepts everything takes texts as one. -/
theorem writeAll_of_unlimited {output : Output} (h : output.policy = .unlimited)
    (texts : List String) :
    output.writeAll texts = (⟨output.written ++ String.join texts, .unlimited⟩, none) := by
  induction texts generalizing output with
  | nil =>
    obtain ⟨written, policy⟩ := output
    obtain rfl : policy = .unlimited := h
    simp [writeAll]
  | cons text rest ih =>
    have hwrite : output.write text = (⟨output.written ++ text, .unlimited⟩, none) := by
      rw [write, h]
    rw [writeAll, hwrite]
    simp only
    rw [ih rfl, String.join_cons, String.append_assoc]

/-- Whether a text is accepted is up to the policy, not to what was written before. -/
theorem write_of_policy {output other : Output} (h : output.policy = other.policy)
    (text : String) :
    (output.write text).2 = (other.write text).2 ∧
      (output.write text).1.policy = (other.write text).1.policy := by
  obtain ⟨written, policy⟩ := output
  obtain ⟨otherWritten, otherPolicy⟩ := other
  obtain rfl : policy = otherPolicy := h
  cases policy with
  | unlimited => exact ⟨rfl, rfl⟩
  | encoded encoding =>
    simp only [write]
    split <;> exact ⟨rfl, rfl⟩
  | planned plan =>
    cases plan with
    | nil => exact ⟨rfl, rfl⟩
    | cons next plan => cases next <;> exact ⟨rfl, rfl⟩

theorem writeAll_of_policy {output other : Output} (h : output.policy = other.policy)
    (texts : List String) : (output.writeAll texts).2 = (other.writeAll texts).2 := by
  induction texts generalizing output other with
  | nil => rfl
  | cons text rest ih =>
    have hstep := write_of_policy h text
    simp only [writeAll]
    generalize output.write text = ended at hstep
    generalize other.write text = otherEnded at hstep
    obtain ⟨after, failure⟩ := ended
    obtain ⟨otherAfter, otherFailure⟩ := otherEnded
    obtain ⟨hfailure, hpolicy⟩ := hstep
    simp only at hfailure hpolicy
    subst hfailure
    cases failure with
    | none => exact ih hpolicy
    | some failure => rfl

end Output

/-! ## Sessions -/

namespace Session

/-- The failures that the streams of a session can bring. -/
inductive Brings (session : Session) : Failure → Prop
  | input {failure : Failure} (hinput : session.input.Brings failure) : session.Brings failure
  | output {failure : Failure} (houtput : session.output.Brings failure) : session.Brings failure

theorem room_assign (session : Session) (target : Target) (value : Except Failure Value) :
    (session.assign target value).1.room = session.room := by
  simp only [assign]
  split
  · rfl
  · split <;> rfl

theorem room_execute (session : Session) (statement : Statement) :
    (session.execute statement).1.room = session.room := by
  cases statement with
  | text span target value => exact session.room_assign target _
  | number span target value => exact session.room_assign target _
  | input span target => exact room_assign _ target _
  | output span target =>
    simp only [execute]
    split <;> rfl
  | misplaced span kind => rfl

theorem Brings.of_assign {session : Session} {target : Target} {value : Except Failure Value}
    {failure : Failure} (h : (session.assign target value).1.Brings failure) :
    session.Brings failure := by
  simp only [assign] at h
  split at h
  · exact h
  · split at h
    · exact h
    · cases h with
      | input hinput => exact .input hinput
      | output houtput => exact .output houtput

/-- A statement adds no failures to the streams. -/
theorem Brings.of_execute {session : Session} {statement : Statement} {failure : Failure}
    (h : (session.execute statement).1.Brings failure) : session.Brings failure := by
  cases statement with
  | text span target value => exact h.of_assign
  | number span target value => exact h.of_assign
  | input span target =>
    have hread : Brings { session with input := session.input.read.2 } failure := h.of_assign
    cases hread with
    | input hinput => exact .input hinput.of_read
    | output houtput => exact .output houtput
  | output span target =>
    simp only [execute] at h
    split at h
    · cases h with
      | input hinput => exact .input hinput
      | output houtput => exact .output houtput.of_write
    · exact h
  | misplaced span kind => exact h

/-- A run adds no failures to the streams. -/
theorem Brings.of_run {session : Session} {statements : List Statement} {failure : Failure}
    (h : (session.run statements).1.Brings failure) : session.Brings failure := by
  induction statements generalizing session with
  | nil => exact h
  | cons statement rest ih =>
    simp only [run] at h
    split at h
    · next after hexecute =>
      have hafter : (session.execute statement).1.Brings failure := by
        rw [hexecute]
        exact ih h
      exact hafter.of_execute
    · next after other hexecute =>
      have hafter : (session.execute statement).1.Brings failure := by
        rw [hexecute]
        exact h
      exact hafter.of_execute

end Session

end LineScript
