import LineScript.Proofs.Session.Aborted
import LineScript.Proofs.Session.Agreement

/-!
# What `Input` statements receive

Sources that are interpreted one after the other share one input. `Session.history` lists all
statements that are executed on the way, each with the session it is executed in. A statement of a
source takes the next line if it is an `Input` and there is a line left, and else it leaves the
input as it is (`Step.Takes`); the statements of a history do so one after the other (`Reads`).
Main statement: `inputValues_history`, the values that the `Input` statements store are the lines of
the input from the first on, and one of them fails exactly if the input is used up.
-/

set_option autoImplicit false

namespace LineScript

/-! ## Lines without their ends -/

namespace Text

/-- A line without the carriage return at its end, if there is one. -/
def dropReturn (line : List Char) : List Char :=
  if line.getLast? = some '\r' then line.dropLast else line

/-- The lines of a text without their ends. A line feed ends a line, together with one carriage
return right before it. What follows the last line feed is a line as it stands, unless it is
empty. -/
def delivered (text : List Char) : List (List Char) :=
  (lines text).dropLast.map dropReturn ++
    (lines text).getLast?.toList.filter fun line => !line.isEmpty

theorem delivered_of_not_mem {line : List Char} (h : '\n' ∉ line) :
    delivered line = if line = [] then [] else [line] := by
  rw [delivered, lines_of_not_mem h]
  split
  · next hempty =>
    rw [hempty]
    rfl
  · next hempty => simp [hempty]

theorem delivered_append_newline {line : List Char} (h : '\n' ∉ line) (rest : List Char) :
    delivered (line ++ '\n' :: rest) = dropReturn line :: delivered rest := by
  rw [delivered, delivered, lines_append_newline h,
    List.dropLast_cons_of_ne_nil (lines_ne_nil rest),
    List.getLast?_cons_of_ne_nil (lines_ne_nil rest), List.map_cons, List.cons_append]

theorem dropLineEnd_of_not_mem {line : List Char} (h : '\n' ∉ line) : dropLineEnd line = line := by
  rw [dropLineEnd, if_neg]
  intro hlast
  exact h (List.mem_of_getLast? hlast)

theorem dropLineEnd_append_newline (line : List Char) :
    dropLineEnd (line ++ ['\n']) = dropReturn line := by
  rw [dropLineEnd, if_pos List.getLast?_concat, List.dropLast_concat, dropReturn]

/-- Cutting after the line feeds and then dropping the line ends gives the lines of a text. -/
theorem map_dropLineEnd_terminatedLines (text : List Char) :
    (terminatedLines text).map dropLineEnd = delivered text := by
  induction text using linesInduction with
  | single line hline =>
    rw [delivered_of_not_mem hline]
    split
    · next hempty =>
      rw [hempty]
      rfl
    · next hempty =>
      rw [terminatedLines_of_not_mem hline hempty, List.map_singleton,
        dropLineEnd_of_not_mem hline]
  | more line rest hline ih =>
    rw [terminatedLines_append_newline hline, List.map_cons, ih, dropLineEnd_append_newline,
      delivered_append_newline hline]

/-- A text is cut into two texts wherever its lines are cut into two parts. -/
theorem exists_cut_terminatedLines {text : List Char} {taken left : List (List Char)}
    (h : terminatedLines text = taken ++ left) :
    ∃ consumed rest, text = consumed ++ rest ∧ terminatedLines consumed = taken ∧
      terminatedLines rest = left := by
  induction text using linesInduction generalizing taken with
  | single line hline =>
    cases taken with
    | nil => exact ⟨[], line, rfl, rfl, h⟩
    | cons first taken =>
      have hne : line ≠ [] := by
        rintro rfl
        cases h
      rw [terminatedLines_of_not_mem hline hne] at h
      obtain ⟨rfl, hnil⟩ := List.cons.inj h
      obtain ⟨rfl, rfl⟩ := List.append_eq_nil_iff.1 hnil.symm
      exact ⟨line, [], (List.append_nil _).symm, terminatedLines_of_not_mem hline hne, rfl⟩
  | more line rest hline ih =>
    cases taken with
    | nil => exact ⟨[], _, rfl, rfl, h⟩
    | cons first taken =>
      rw [terminatedLines_append_newline hline] at h
      obtain ⟨rfl, hrest⟩ := List.cons.inj h
      obtain ⟨consumed, onward, rfl, hconsumed, honward⟩ := ih hrest
      refine ⟨line ++ '\n' :: consumed, onward, by simp, ?_, honward⟩
      rw [terminatedLines_append_newline hline, hconsumed]

theorem terminatedLines_eq_nil_iff {text : List Char} : terminatedLines text = [] ↔ text = [] := by
  constructor
  · intro h
    rw [← flatten_terminatedLines text, h]
    rfl
  · rintro rfl
    rfl

end Text

open Text

/-! ## Reading lines -/

/-- The input that brings some lines. -/
def Input.ofLines (lines : List (List Char)) : Input := .ofEvents (lines.map lineEvent)

namespace Session

/-- An `Input` takes the next line, without its line end, as the value of its variable. -/
theorem execute_input_of_cons {session : Session} {line : List Char} {lines : List (List Char)}
    (hinput : session.input = .ofLines (line :: lines)) (hline : line ≠ []) (span nameSpan : Span)
    (name : String) :
    session.execute (.input span (.named nameSpan name)) =
      ({ session.set name (.text (String.ofList (dropLineEnd line))) with
        input := .ofLines lines }, none) := by
  have hread : session.input.read = (.ok (String.ofList line), .ofLines lines) := by
    rw [hinput]
    rfl
  have hne : String.ofList line ≠ "" := by simpa using hline
  simp only [execute, readInto, hread, received, if_neg hne, String.toList_ofList]
  rfl

/-- An `Input` at the end of the input fails and changes nothing. -/
theorem execute_input_of_nil {session : Session} (hinput : session.input = .ofLines [])
    (span nameSpan : Span) (name : String) :
    session.execute (.input span (.named nameSpan name)) =
      (session, some (.blame (.inputEnds name) nameSpan)) := by
  have hread : session.input.read = (.ok "", session.input) := by
    rw [hinput]
    rfl
  simp only [execute, readInto, hread]
  rfl

end Session

/-! ## Histories -/

/-- A statement that is executed, and the session it is executed in. -/
structure Step where
  session : Session
  statement : Statement
  deriving DecidableEq, Repr

namespace Step

/-- The session that the statement leaves, and its failure. -/
def result (step : Step) : Session × Option Failure := step.session.execute step.statement

/-- Whether the statement is an `Input` that goes well. -/
def receives (step : Step) : Bool := step.statement.takesLine && step.result.2.isNone

/-- The value that the statement leaves in the variable that it sets. -/
def stored (step : Step) : Option Value := step.statement.sets?.bind step.result.1.space.get?

end Step

/-- The values that are stored by the `Input` statements that go well, in order. -/
def inputValues (steps : List Step) : List (Option Value) :=
  (steps.filter Step.receives).map Step.stored

theorem inputValues_append (first second : List Step) :
    inputValues (first ++ second) = inputValues first ++ inputValues second := by
  simp only [inputValues, List.filter_append, List.map_append]

theorem inputValues_singleton (step : Step) :
    inputValues [step] = if step.receives then [step.stored] else [] := by
  rw [inputValues, List.filter_singleton]
  cases step.receives <;> rfl

/-- The value of a variable that holds a line. -/
def lineValue (line : List Char) : Option Value := some (.text (String.ofList line))

namespace Session

/-- The statements that a run executes, up to the first that fails. -/
def steps (session : Session) : List Statement → List Step
  | [] => []
  | statement :: rest =>
    ⟨session, statement⟩ ::
      match session.execute statement with
      | (after, none) => after.steps rest
      | (_, some _) => []

/-- The statements that a source executes. A source that is no program executes none. -/
def sourceSteps (session : Session) (source : String) : List Step :=
  match Statement.ofSource source with
  | .ok statements => session.steps statements
  | .error _ => []

/-- The statements that are executed when sources are interpreted one after the other, each in the
session that the one before left, however that ended. -/
def history (session : Session) : List String → List Step
  | [] => []
  | source :: sources =>
    session.sourceSteps source ++ (session.interpret source).1.history sources

end Session

/-! ## Statements and the lines they take -/

/-- What a statement does to the lines that are left. An `Input` stores the next line without its
end, or fails because there is none; other statements leave the lines alone. -/
inductive Step.Takes (step : Step) : List (List Char) → List (List Char) → Prop
  | line {line : List Char} {lines : List (List Char)} {span nameSpan : Span} {name : String}
      (hstatement : step.statement = .input span (.named nameSpan name))
      (hresult : step.result.2 = none) (hstored : step.stored = lineValue (dropLineEnd line)) :
      Takes step (line :: lines) lines
  | ended {span nameSpan : Span} {name : String}
      (hstatement : step.statement = .input span (.named nameSpan name))
      (hresult : step.result.2 = some (.blame (.inputEnds name) nameSpan)) : Takes step [] []
  | nothing {lines : List (List Char)} (hstatement : step.statement.takesLine = false) :
      Takes step lines lines

/-- A statement takes lines from the front, and stores what it takes. -/
theorem Step.Takes.exists_taken {step : Step} {lines left : List (List Char)}
    (h : step.Takes lines left) :
    ∃ taken, lines = taken ++ left ∧
      inputValues [step] = taken.map fun line => lineValue (dropLineEnd line) := by
  rw [inputValues_singleton]
  cases h with
  | @line line _ _ _ _ hstatement hresult hstored =>
    have hreceives : step.receives = true := by
      rw [Step.receives, hstatement, hresult]
      rfl
    exact ⟨[line], rfl, by rw [if_pos hreceives, hstored, List.map_singleton]⟩
  | ended hstatement hresult => exact ⟨[], rfl, if_neg (by simp [Step.receives, hresult])⟩
  | nothing hstatement => exact ⟨[], rfl, if_neg (by simp [Step.receives, hstatement])⟩

/-- An `Input` fails exactly if there is no line left, and then it says so. -/
theorem Step.Takes.of_takesLine {step : Step} {lines left : List (List Char)}
    (h : step.Takes lines left) (hstatement : step.statement.takesLine = true) :
    ∃ span nameSpan name, step.statement = .input span (.named nameSpan name) ∧
      step.result.2 = if lines = [] then some (.blame (.inputEnds name) nameSpan) else none := by
  cases h with
  | line hinput hresult hstored => exact ⟨_, _, _, hinput, hresult⟩
  | ended hinput hresult => exact ⟨_, _, _, hinput, hresult⟩
  | nothing hother =>
    rw [hother] at hstatement
    cases hstatement

/-! ## Histories and the lines they take -/

/-- What the statements of a history do to the lines that are left, one after the other. -/
inductive Reads : List (List Char) → List Step → List (List Char) → Prop
  | nil (lines : List (List Char)) : Reads lines [] lines
  | cons {lines middle left : List (List Char)} {step : Step} {steps : List Step}
      (hinput : step.session.input = .ofLines lines) (htakes : step.Takes lines middle)
      (hrest : Reads middle steps left) : Reads lines (step :: steps) left

namespace Reads

variable {lines middle left : List (List Char)} {first second steps : List Step}

theorem append (h : Reads lines first middle) (hmore : Reads middle second left) :
    Reads lines (first ++ second) left := by
  induction h with
  | nil lines => exact hmore
  | cons hinput htakes _ ih => exact .cons hinput htakes (ih hmore)

theorem exists_middle (h : Reads lines (first ++ second) left) :
    ∃ middle, Reads lines first middle ∧ Reads middle second left := by
  induction first generalizing lines with
  | nil => exact ⟨lines, .nil lines, h⟩
  | cons step first ih =>
    cases h with
    | cons hinput htakes hrest =>
      obtain ⟨middle, hfirst, hsecond⟩ := ih hrest
      exact ⟨middle, .cons hinput htakes hfirst, hsecond⟩

/-- What is received is what was taken from the front, each line without its end. -/
theorem exists_taken (h : Reads lines steps left) :
    ∃ taken, lines = taken ++ left ∧
      inputValues steps = taken.map fun line => lineValue (dropLineEnd line) := by
  induction h with
  | nil lines => exact ⟨[], rfl, rfl⟩
  | @cons _ _ _ step steps _ htakes _ ih =>
    obtain ⟨next, rfl, hnext⟩ := htakes.exists_taken
    obtain ⟨taken, rfl, htaken⟩ := ih
    refine ⟨next ++ taken, (List.append_assoc _ _ _).symm, ?_⟩
    rw [List.map_append, ← hnext, ← htaken, ← inputValues_append, List.singleton_append]

theorem ne_nil_of_mem_left (h : Reads lines steps left) (hlines : ∀ line ∈ lines, line ≠ []) :
    ∀ line ∈ left, line ≠ [] := by
  obtain ⟨taken, rfl, -⟩ := h.exists_taken
  exact fun line hline => hlines line (List.mem_append_right taken hline)

end Reads

namespace Session

section Reading

variable {session : Session} {lines : List (List Char)}
  (hinput : session.input = .ofLines lines) (hlines : ∀ line ∈ lines, line ≠ [])

include hinput hlines

/-- What a statement of a source takes, and what it leaves. -/
theorem takes_execute {statement : Statement} (hproper : statement.Proper) :
    ∃ left, Step.Takes ⟨session, statement⟩ lines left ∧
      (session.execute statement).1.input = .ofLines left := by
  have hnothing : statement.takesLine = false →
      ∃ left, Step.Takes ⟨session, statement⟩ lines left ∧
        (session.execute statement).1.input = .ofLines left := by
    intro hstatement
    refine ⟨lines, .nothing hstatement, ?_⟩
    rw [input_execute, hstatement]
    exact hinput
  cases hproper with
  | text span nameSpan name hvalue => exact hnothing rfl
  | number span nameSpan name hvalue => exact hnothing rfl
  | output span nameSpan name => exact hnothing rfl
  | input span nameSpan name =>
    cases lines with
    | nil =>
      have hexecute := execute_input_of_nil hinput span nameSpan name
      refine ⟨[], .ended rfl ?_, ?_⟩
      · rw [Step.result, hexecute]
      · rw [hexecute, hinput]
    | cons line lines =>
      have hexecute :=
        execute_input_of_cons hinput (hlines line List.mem_cons_self) span nameSpan name
      refine ⟨lines, .line rfl ?_ ?_, ?_⟩
      · rw [Step.result, hexecute]
      · rw [Step.stored, Step.result, hexecute]
        exact (Namespace.get?_set _ name name _).trans (if_pos rfl)
      · rw [hexecute]

/-- A run of proper statements takes lines from the front, whether it ends well or not. -/
theorem reads_steps {statements : List Statement}
    (hproper : ∀ statement ∈ statements, statement.Proper) :
    ∃ left, Reads lines (session.steps statements) left ∧
      (session.run statements).1.input = .ofLines left := by
  induction statements generalizing session lines with
  | nil => exact ⟨lines, .nil lines, hinput⟩
  | cons statement rest ih =>
    obtain ⟨hfirst, hrest⟩ := List.forall_mem_cons.1 hproper
    obtain ⟨middle, htakes, hmiddle⟩ := takes_execute hinput hlines hfirst
    have hstep : Reads lines [⟨session, statement⟩] middle := .cons hinput htakes (.nil middle)
    simp only [steps, run]
    generalize session.execute statement = ended at hmiddle
    obtain ⟨after, failure⟩ := ended
    cases failure with
    | none =>
      obtain ⟨left, hreads, hleft⟩ := ih hmiddle (hstep.ne_nil_of_mem_left hlines) hrest
      exact ⟨left, hstep.append hreads, hleft⟩
    | some failure => exact ⟨middle, hstep, hmiddle⟩

theorem reads_sourceSteps (source : String) :
    ∃ left, Reads lines (session.sourceSteps source) left ∧
      (session.interpret source).1.input = .ofLines left := by
  rw [sourceSteps, interpret]
  cases hsource : Statement.ofSource source with
  | error failure => exact ⟨lines, .nil lines, hinput⟩
  | ok statements => exact reads_steps hinput hlines (proper_of_ofSource hsource)

/-- Sources one after the other take lines from the front, however each of them ends. -/
theorem reads_history (sources : List String) :
    ∃ left, Reads lines (session.history sources) left := by
  induction sources generalizing session lines with
  | nil => exact ⟨lines, .nil lines⟩
  | cons source sources ih =>
    obtain ⟨middle, hsource, hmiddle⟩ := reads_sourceSteps hinput hlines source
    obtain ⟨left, hrest⟩ := ih hmiddle (hsource.ne_nil_of_mem_left hlines)
    exact ⟨left, hsource.append hrest⟩

end Reading

end Session

/-- Whatever sources a session is given, the values that their `Input` statements store are the
lines of the input from the first on, each without its end. When an `Input` is executed, the text of
the input is cut between two lines into what is consumed and the rest: the lines that are consumed
have all been stored, the input holds the rest, and the `Input` fails exactly if the rest is
empty. -/
theorem inputValues_history (text : List Char) (space : Namespace) (output : Output) (room : Nat)
    (sources : List String) :
    inputValues (Session.history ⟨space, .ofText text, output, room⟩ sources) <+:
        (delivered text).map lineValue ∧
      ∀ before step after,
        Session.history ⟨space, .ofText text, output, room⟩ sources = before ++ step :: after →
        step.statement.takesLine = true →
        ∃ consumed rest span nameSpan name, text = consumed ++ rest ∧
          delivered text = delivered consumed ++ delivered rest ∧
          inputValues before = (delivered consumed).map lineValue ∧
          step.session.input = .ofText rest ∧
          step.statement = .input span (.named nameSpan name) ∧
          step.result.2 = if rest = [] then some (.blame (.inputEnds name) nameSpan) else none := by
  have hlines : ∀ line ∈ terminatedLines text, line ≠ [] := fun line =>
    ne_nil_of_mem_terminatedLines
  have hinput : Session.input ⟨space, .ofText text, output, room⟩ =
      .ofLines (terminatedLines text) := rfl
  obtain ⟨left, hreads⟩ := Session.reads_history hinput hlines sources
  refine ⟨?_, ?_⟩
  · obtain ⟨taken, htext, htaken⟩ := hreads.exists_taken
    rw [htaken, ← map_dropLineEnd_terminatedLines, htext, List.map_map, List.map_append]
    exact List.prefix_append _ _
  · -- Where the history is cut the lines are cut too, and with them the text.
    intro before step after hhistory hstatement
    rw [hhistory] at hreads
    obtain ⟨middle, hbefore, hstep⟩ := hreads.exists_middle
    obtain ⟨taken, htext, htaken⟩ := hbefore.exists_taken
    obtain ⟨consumed, rest, rfl, rfl, rfl⟩ := exists_cut_terminatedLines htext
    cases hstep with
    | cons hrest htakes _ =>
      obtain ⟨span, nameSpan, name, hinput, hresult⟩ := htakes.of_takesLine hstatement
      refine ⟨consumed, rest, span, nameSpan, name, rfl, ?_, ?_, hrest, hinput, ?_⟩
      · simp only [← map_dropLineEnd_terminatedLines, htext, List.map_append]
      · rw [htaken, ← map_dropLineEnd_terminatedLines, List.map_map]
        rfl
      · simpa only [terminatedLines_eq_nil_iff] using hresult

/-- A line with a carriage return before its line feed and an unfinished line that is a carriage
return, read by two programs: the first fails, and the second asks for one line more. -/
theorem inputValues_history_returns :
    ∃ before step, Session.history ⟨.empty, .ofText ['a', '\r', '\n', '\r'], .fresh .unlimited, 990⟩
        ["Input x\nOutput q", "Input y\nInput z"] = before ++ [step] ∧
      step.statement.takesLine = true ∧
      inputValues before = [lineValue ['a'], lineValue ['\r']] ∧
      ∃ nameSpan name, step.result.2 = some (.blame (.inputEnds name) nameSpan) := by
  have hhistory : Session.history ⟨.empty, .ofText ['a', '\r', '\n', '\r'], .fresh .unlimited, 990⟩
      ["Input x\nOutput q", "Input y\nInput z"] =
      [⟨⟨⟨[]⟩, ⟨[.line "a\r\n", .line "\r"], none⟩, .fresh .unlimited, 990⟩,
          .input ⟨1, 0, 7⟩ (.named ⟨1, 6, 7⟩ "x")⟩,
        ⟨⟨⟨[("x", .text "a")]⟩, ⟨[.line "\r"], none⟩, .fresh .unlimited, 990⟩,
          .output ⟨2, 8, 16⟩ (.named ⟨2, 15, 16⟩ "q")⟩,
        ⟨⟨⟨[("x", .text "a")]⟩, ⟨[.line "\r"], none⟩, .fresh .unlimited, 990⟩,
          .input ⟨1, 0, 7⟩ (.named ⟨1, 6, 7⟩ "y")⟩] ++
        [⟨⟨⟨[("x", .text "a"), ("y", .text "\r")]⟩, ⟨[], none⟩, .fresh .unlimited, 990⟩,
          .input ⟨2, 8, 15⟩ (.named ⟨2, 14, 15⟩ "z")⟩] := by cbv
  obtain ⟨consumed, rest, span, nameSpan, name, -, -, -, hrest, -, hresult⟩ :=
    (inputValues_history _ _ _ _ _).2 _ _ _ hhistory rfl
  have hevents : [] = (terminatedLines rest).map Input.lineEvent := congrArg Input.events hrest
  have hempty : rest = [] := terminatedLines_eq_nil_iff.1 (List.map_eq_nil_iff.1 hevents.symm)
  refine ⟨_, _, hhistory, rfl, by cbv, nameSpan, name, ?_⟩
  rw [hresult, if_pos hempty]

end LineScript
